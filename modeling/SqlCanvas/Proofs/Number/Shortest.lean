import Mathlib.Algebra.Order.Floor.Semifield
import Mathlib.Data.Rat.Floor
import SqlCanvas.Proofs.Number.Rounding

/-!
# The shortest decimal rounds back

Seventeen digits are always enough: the grid of that many digits is finer than the rounding interval
is wide, so one of the two grid points next to a double rounds back to it. So `Binary64.shortest`
finds a decimal, and what it finds rounds to the double.
-/

namespace SqlCanvas.Binary64

theorem zpow_ten_pos (e : Int) : (0 : ℚ) < 10 ^ e :=
  zpow_pos (by norm_num) e

/-- An estimate of the decimal exponent of `2 ^ n`, as `leadingExponent` makes it. -/
def decimalEstimate (n : Int) : Int :=
  n * 30103 / 100000 - 1

/-- From one pair of near powers to their multiples, up to the weight `w` of the exponent of two. -/
theorem ten_zpow_le_of_near {a b p n : Int} {k w : Nat} (near : (10 : ℚ) ^ a ≤ 2 ^ b) (hw : w ≠ 0)
    (hp : p * w ≤ a * k) (hn : n * w = b * k) : (10 : ℚ) ^ p ≤ 2 ^ n := by
  rw [← pow_le_pow_iff_left₀ (zpow_ten_pos p).le (zpow_two_pos n).le hw]
  calc ((10 : ℚ) ^ p) ^ w = 10 ^ (p * w) := by rw [zpow_mul, zpow_natCast]
    _ ≤ 10 ^ (a * k) := zpow_le_zpow_right₀ (by norm_num) hp
    _ = (10 ^ a) ^ k := by rw [zpow_mul, zpow_natCast]
    _ ≤ (2 ^ b) ^ k := pow_le_pow_left₀ (zpow_ten_pos a).le near k
    _ = (2 ^ n) ^ w := by rw [← zpow_natCast, ← zpow_mul, ← hn, zpow_mul, zpow_natCast]

/-- For all exponents of doubles the estimate is low enough: `59 / 196` and `28 / 93` are close
enough to the logarithm of two that over this range the one taken off makes up for it. -/
theorem ten_zpow_le_two_zpow {n : Int} (hlow : -1100 ≤ n) (hhigh : n < 1100) :
    (10 : ℚ) ^ decimalEstimate n ≤ 2 ^ n := by
  rw [decimalEstimate]
  obtain ⟨k, rfl | rfl⟩ := n.eq_nat_or_neg
  · have near : (10 : ℚ) ^ (59 : Int) ≤ 2 ^ (196 : Int) := by norm_num
    apply ten_zpow_le_of_near (k := k) (w := 196) near (by decide)
    · omega
    · omega
  · have near : (10 : ℚ) ^ (-28 : Int) ≤ 2 ^ (-93 : Int) := by norm_num
    apply ten_zpow_le_of_near (k := k) (w := 93) near (by decide)
    · omega
    · omega

theorem leadingExponentFrom_le {x : Ratio} (hx : 0 < x.den) {p : Int} (hp : 10 ^ p ≤ x.value)
    (fuel : Nat) : (10 : ℚ) ^ leadingExponentFrom x fuel p ≤ x.value := by
  induction fuel generalizing p with
  | zero => exact hp
  | succ fuel ih =>
    rw [leadingExponentFrom]
    split
    · exact hp
    · rename_i h
      rw [Ratio.lt_iff hx (Ratio.den_ofDecimal_pos _ _), Ratio.value_ofDecimal, Nat.cast_one,
        one_mul, not_lt] at h
      exact ih h

section Double

variable {m : Nat} {e : Int} (hc : Canonical m e)

include hc

theorem magnitude_lt : magnitude m e < 2 ^ (1024 : Int) := by
  have := cast_significand_le hc
  calc (m : ℚ) * 2 ^ e < 2 ^ 53 * 2 ^ e := mul_lt_mul_of_pos_right (by linarith) (zpow_two_pos e)
    _ ≤ 2 ^ 53 * 2 ^ (971 : Int) :=
        mul_le_mul_of_nonneg_left (zpow_le_zpow_right₀ one_le_two hc.2.2.1) (by norm_num)
    _ = 2 ^ (1024 : Int) := by
        rw [show (1024 : Int) = 53 + 971 by norm_num, zpow_two_add]
        simp only [zpow_ofNat]

theorem unit_lt_width {u : ℚ} (hu : u * 10 ^ 16 ≤ magnitude m e) :
    u < (reachBelow m e + 1 / 2) * 2 ^ e := by
  have pos := zpow_two_pos e
  rw [magnitude] at hu
  have bound : (m : ℚ) < (reachBelow m e + 1 / 2) * 10 ^ 16 := by
    rw [reachBelow]
    split
    · rename_i h
      rw [h.1, cast_twoTo]
      norm_num
    · linarith [cast_significand_le hc]
  nlinarith [mul_lt_mul_of_pos_right bound pos]

variable (hm : 0 < m)

include hm

theorem le_magnitude : (2 : ℚ) ^ (-1074 : Int) ≤ magnitude m e := by
  have : (1 : ℚ) ≤ m := by exact_mod_cast hm
  calc (2 : ℚ) ^ (-1074 : Int) ≤ 2 ^ e := zpow_le_zpow_right₀ one_le_two hc.2.1
    _ = 1 * 2 ^ e := (one_mul _).symm
    _ ≤ m * 2 ^ e := mul_le_mul_of_nonneg_right this (zpow_two_pos e).le

theorem leadingExponent_le : (10 : ℚ) ^ leadingExponent (.ofBinary m e) ≤ magnitude m e := by
  have value : (Ratio.ofBinary m e).value = magnitude m e := Ratio.value_ofBinary m e
  have den := Ratio.den_ofBinary_pos m e
  have num : 0 < (Ratio.ofBinary m e).num := Nat.mul_pos hm (twoTo_pos _)
  obtain ⟨low, high⟩ := ratio_between num den
  rw [← Ratio.value, value] at low high
  have top := (zpow_lt_zpow_iff_right₀ (one_lt_two (α := ℚ))).mp (low.trans (magnitude_lt hc))
  have bottom :=
    (zpow_lt_zpow_iff_right₀ (one_lt_two (α := ℚ))).mp ((le_magnitude hc hm).trans_lt high)
  rw [leadingExponent, ← value]
  refine leadingExponentFrom_le den ?_ 4
  rw [value]
  exact (ten_zpow_le_two_zpow (by omega) (by omega)).trans low.le

end Double

/-- One of the two points next to a double rounds back when they are nearer to each other than the
ends of its rounding interval. -/
theorem roundsTo_below_or_above {m : Nat} {e : Int} {u : ℚ} {k : Nat}
    (hu : u < (reachBelow m e + 1 / 2) * 2 ^ e) (hbelow : k * u ≤ magnitude m e)
    (habove : magnitude m e < (k + 1) * u) :
    RoundsTo m e (k * u) ∨ RoundsTo m e ((k + 1) * u) := by
  have pos := zpow_two_pos e
  have low : lowEnd m e = magnitude m e - reachBelow m e * 2 ^ e := by
    rw [lowEnd, magnitude]
    ring
  have high : highEnd m e = magnitude m e + 1 / 2 * 2 ^ e := by
    rw [highEnd, magnitude]
    ring
  have inside {q : ℚ} (h₁ : lowEnd m e < q) (h₂ : q < highEnd m e) : RoundsTo m e q :=
    ⟨h₁.le, h₂.le, fun _ => ⟨h₁, h₂⟩⟩
  have reach := mul_pos (reachBelow_pos m e) pos
  by_cases h : lowEnd m e < k * u
  · exact .inl (inside h (by linarith))
  · exact .inr (inside (by linarith) (by linarith))

theorem floor_ratio {x y : Ratio} (hx : 0 < x.den) (hy : 0 < y.den) (hnum : 0 < y.num) :
    ((x.num * y.den / (x.den * y.num) : Nat) : ℚ) * y.value ≤ x.value ∧
      x.value < ((x.num * y.den / (x.den * y.num) : Nat) + 1) * y.value := by
  have hx' : (0 : ℚ) < x.den := Nat.cast_pos.mpr hx
  have hy' : (0 : ℚ) < y.den := Nat.cast_pos.mpr hy
  have hnum' : (0 : ℚ) < y.num := Nat.cast_pos.mpr hnum
  have pos : 0 < y.value := div_pos hnum' hy'
  have quotient : ((x.num * y.den : Nat) : ℚ) / ((x.den * y.num : Nat) : ℚ) =
      x.value / y.value := by
    push_cast
    rw [Ratio.value, Ratio.value, div_div_div_eq]
  rw [← le_div_iff₀ pos, ← div_lt_iff₀ pos, ← quotient, ← Nat.floor_div_eq_div (K := ℚ)]
  exact ⟨Nat.floor_le (by positivity), Nat.lt_floor_add_one _⟩

theorem contains_of_gridPoint? {x : Ratio} {i : RoundingInterval} {e exponent : Int} {d : Decimal}
    (h : gridPoint? x i e exponent = some d) :
    i.contains e (.ofDecimal d.digits d.exponent) = true := by
  rw [gridPoint?] at h
  simp only at h
  split at h
  · rename_i hbelow hupper
    cases h
    split
    · exact hbelow
    · exact hupper
  · rename_i hbelow _
    cases h
    exact hbelow
  · rename_i _ hupper
    cases h
    exact hupper
  · cases h

theorem gridPoint?_isSome {x : Ratio} {i : RoundingInterval} {e exponent : Int}
    (h : ∃ k,
      (k = x.num * (Ratio.ofDecimal 1 exponent).den / (x.den * (Ratio.ofDecimal 1 exponent).num) ∨
      k = x.num * (Ratio.ofDecimal 1 exponent).den / (x.den * (Ratio.ofDecimal 1 exponent).num) +
        1) ∧ i.contains e (.ofDecimal k exponent) = true) : (gridPoint? x i e exponent).isSome := by
  obtain ⟨k, hk, hin⟩ := h
  rw [gridPoint?]
  simp only
  rcases hk with rfl | rfl
  · rw [hin]
    split <;> simp_all
  · rw [hin]
    split <;> simp_all

theorem exists_shortest {m : Nat} {e : Int} (hc : Canonical m e) (hm : 0 < m) :
    RoundsTo m e ((shortest m e).digits * 10 ^ (shortest m e).exponent) := by
  have den := Ratio.den_ofBinary_pos m e
  have value : (Ratio.ofBinary m e).value = magnitude m e := Ratio.value_ofBinary m e
  let leading := leadingExponent (.ofBinary m e)
  let search (k : Nat) := gridPoint? (.ofBinary m e) (roundingInterval m e) e (leading - k)
  -- Seventeen digits always suffice: their grid is finer than the interval is wide. So some grid
  -- succeeds, and the first that does has a point inside.
  have found : (search 16).isSome := by
    let unit := Ratio.ofDecimal 1 (leading - (16 : Nat))
    have one : unit.value = 10 ^ (leading - (16 : Nat)) := by
      rw [Ratio.value_ofDecimal, Nat.cast_one, one_mul]
    have fine : unit.value * 10 ^ 16 ≤ magnitude m e := by
      rw [one, zpow_sub₀ (by norm_num)]
      norm_num
      exact leadingExponent_le hc hm
    obtain ⟨hbelow, habove⟩ := floor_ratio (y := unit) den (Ratio.den_ofDecimal_pos _ _)
      (Nat.mul_pos one_pos (tenTo_pos _))
    rw [value] at hbelow habove
    have grid (k : Nat) : (Ratio.ofDecimal k (leading - (16 : Nat))).value = k * unit.value := by
      rw [Ratio.value_ofDecimal, one]
    refine gridPoint?_isSome ?_
    rcases roundsTo_below_or_above (unit_lt_width hc fine) hbelow habove with h | h
    · refine ⟨_, .inl rfl, (contains_iff hm e (Ratio.den_ofDecimal_pos _ _)).mpr ?_⟩
      rwa [grid]
    · refine ⟨_, .inr rfl, (contains_iff hm e (Ratio.den_ofDecimal_pos _ _)).mpr ?_⟩
      rw [grid]
      push_cast
      exact h
  obtain ⟨d, hd⟩ : ∃ d, (List.range 17).findSome? search = some d := by
    rw [← Option.isSome_iff_exists, List.findSome?_isSome_iff]
    exact ⟨16, by decide, found⟩
  have result : shortest m e = d := by
    rw [shortest]
    change ((List.range 17).findSome? search).getD _ = d
    rw [hd, Option.getD_some]
  obtain ⟨k, -, hk⟩ := List.exists_of_findSome?_eq_some hd
  have := (contains_iff hm e (Ratio.den_ofDecimal_pos _ _)).mp (contains_of_gridPoint? hk)
  rwa [Ratio.value_ofDecimal, ← result] at this

end SqlCanvas.Binary64
