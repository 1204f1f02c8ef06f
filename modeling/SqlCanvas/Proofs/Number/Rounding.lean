import Mathlib.Algebra.Order.Field.Power
import Mathlib.Algebra.Order.Field.Rat
import Mathlib.Tactic.Linarith
import Mathlib.Tactic.NormNum
import Mathlib.Tactic.Ring
import SqlCanvas.Number.Shortest

/-!
# Rounding to doubles

A rational number rounds to the double whose rounding interval it lies in. The interval of a double
reaches half way to its neighbours, so intervals of different doubles do not overlap and follow the
order of the doubles; its ends belong to it when the significand is even. `ofRatio_of_roundsTo` says
that `Binary64.ofRatio` rounds like this.
-/

namespace SqlCanvas

theorem pow_toNat_div (b : ℚ) (n : Int) : b ^ n.toNat / b ^ (-n).toNat = b ^ n := by
  obtain ⟨k, rfl | rfl⟩ := n.eq_nat_or_neg
  · simp
  · simp

@[simp] theorem cast_twoTo (n : Nat) : ((twoTo n : Nat) : ℚ) = 2 ^ n := by
  simp [twoTo]

@[simp] theorem cast_tenTo (n : Nat) : ((tenTo n : Nat) : ℚ) = 10 ^ n := by
  simp [tenTo]

theorem twoTo_pos (n : Nat) : 0 < twoTo n :=
  Nat.pow_pos (by decide)

theorem tenTo_pos (n : Nat) : 0 < tenTo n :=
  Nat.pow_pos (by decide)

namespace Binary64

namespace Ratio

def value (x : Ratio) : ℚ :=
  x.num / x.den

theorem value_ofBinary (k : Nat) (e : Int) : (ofBinary k e).value = k * 2 ^ e := by
  rw [value, ofBinary, ← pow_toNat_div 2 e]
  push_cast
  rw [cast_twoTo, cast_twoTo, mul_div_assoc]

theorem value_ofDecimal (k : Nat) (e : Int) : (ofDecimal k e).value = k * 10 ^ e := by
  rw [value, ofDecimal, ← pow_toNat_div 10 e]
  push_cast
  rw [cast_tenTo, cast_tenTo, mul_div_assoc]

theorem den_ofBinary_pos (k : Nat) (e : Int) : 0 < (ofBinary k e).den :=
  twoTo_pos _

theorem den_ofDecimal_pos (k : Nat) (e : Int) : 0 < (ofDecimal k e).den :=
  tenTo_pos _

theorem lt_iff {a b : Ratio} (ha : 0 < a.den) (hb : 0 < b.den) :
    a.lt b = true ↔ a.value < b.value := by
  have ha' : (0 : ℚ) < a.den := Nat.cast_pos.mpr ha
  have hb' : (0 : ℚ) < b.den := Nat.cast_pos.mpr hb
  rw [lt, decide_eq_true_eq, value, value, div_lt_div_iff₀ ha' hb']
  exact_mod_cast Iff.rfl

end Ratio

/-- How far the rounding interval reaches down, in units of the last place: the neighbour below a
power of two is nearer than the one above it. -/
def reachBelow (m : Nat) (e : Int) : ℚ :=
  if m = twoTo 52 ∧ -1074 < e then 1 / 4 else 1 / 2

def lowEnd (m : Nat) (e : Int) : ℚ :=
  (m - reachBelow m e) * 2 ^ e

def highEnd (m : Nat) (e : Int) : ℚ :=
  (m + 1 / 2) * 2 ^ e

/-- The number rounds to the double `m * 2 ^ e`. -/
structure RoundsTo (m : Nat) (e : Int) (q : ℚ) : Prop where
  low : lowEnd m e ≤ q
  high : q ≤ highEnd m e
  strict : m % 2 = 1 → lowEnd m e < q ∧ q < highEnd m e

theorem zpow_two_pos (e : Int) : (0 : ℚ) < 2 ^ e :=
  zpow_pos two_pos e

theorem zpow_two_add (a b : Int) : (2 : ℚ) ^ (a + b) = 2 ^ a * 2 ^ b :=
  zpow_add₀ two_ne_zero a b

theorem le_cast_of_full {m : Nat} (h : twoTo 52 ≤ m) : (2 : ℚ) ^ 52 ≤ m := by
  rw [← cast_twoTo]
  exact Nat.cast_le.mpr h

theorem reachBelow_pos (m : Nat) (e : Int) : 0 < reachBelow m e := by
  rw [reachBelow]
  split <;> norm_num

theorem reachBelow_le (m : Nat) (e : Int) : reachBelow m e ≤ 1 / 2 := by
  rw [reachBelow]
  split <;> norm_num

theorem low_roundingInterval {m : Nat} (hm : 0 < m) (e : Int) :
    ((roundingInterval m e).low : ℚ) * 2 ^ (e - 2) = lowEnd m e := by
  have quarter : (2 : ℚ) ^ (e - 2) = 2 ^ e / 4 := by
    rw [zpow_sub₀ two_ne_zero]
    norm_num
  rw [lowEnd, reachBelow, roundingInterval, quarter]
  split
  · rw [Nat.cast_sub (by omega)]
    push_cast
    ring
  · rw [Nat.cast_sub (by omega)]
    push_cast
    ring

theorem high_roundingInterval (m : Nat) (e : Int) :
    ((roundingInterval m e).high : ℚ) * 2 ^ (e - 2) = highEnd m e := by
  have quarter : (2 : ℚ) ^ (e - 2) = 2 ^ e / 4 := by
    rw [zpow_sub₀ two_ne_zero]
    norm_num
  rw [highEnd, roundingInterval, quarter]
  push_cast
  ring

theorem contains_iff {m : Nat} (hm : 0 < m) (e : Int) {x : Ratio} (hx : 0 < x.den) :
    (roundingInterval m e).contains e x = true ↔ RoundsTo m e x.value := by
  have low (b : Nat) : (Ratio.ofBinary b (e - 2)).value = b * 2 ^ (e - 2) :=
    Ratio.value_ofBinary b _
  have below : x.lt (.ofBinary (roundingInterval m e).low (e - 2)) = true ↔
      x.value < lowEnd m e := by
    rw [Ratio.lt_iff hx (Ratio.den_ofBinary_pos _ _), low, low_roundingInterval hm]
  have above : (Ratio.ofBinary (roundingInterval m e).high (e - 2)).lt x = true ↔
      highEnd m e < x.value := by
    rw [Ratio.lt_iff (Ratio.den_ofBinary_pos _ _) hx, low, high_roundingInterval]
  have below' : (Ratio.ofBinary (roundingInterval m e).low (e - 2)).lt x = true ↔
      lowEnd m e < x.value := by
    rw [Ratio.lt_iff (Ratio.den_ofBinary_pos _ _) hx, low, low_roundingInterval hm]
  have above' : x.lt (.ofBinary (roundingInterval m e).high (e - 2)) = true ↔
      x.value < highEnd m e := by
    rw [Ratio.lt_iff hx (Ratio.den_ofBinary_pos _ _), low, high_roundingInterval]
  have closed : (roundingInterval m e).closed = true ↔ m % 2 = 0 := by
    rw [roundingInterval]
    exact beq_iff_eq
  rw [RoundingInterval.contains]
  split
  · rename_i heven
    rw [closed] at heven
    simp only [Bool.and_eq_true, Bool.not_eq_true', ← Bool.not_eq_true, below, above, not_lt]
    exact ⟨fun h => ⟨h.1, h.2, fun hodd => by omega⟩, fun h => ⟨h.low, h.high⟩⟩
  · rename_i hodd
    rw [closed] at hodd
    simp only [Bool.and_eq_true, below', above']
    exact ⟨fun h => ⟨h.1.le, h.2.le, fun _ => h⟩, fun h => h.strict (by omega)⟩

theorem roundHalfEven_eq {num den k : Nat} (hden : 0 < den) (hlow : (k : ℚ) - 1 / 2 ≤ num / den)
    (hhigh : (num : ℚ) / den ≤ k + 1 / 2)
    (hodd : k % 2 = 1 → (k : ℚ) - 1 / 2 < num / den ∧ (num : ℚ) / den < k + 1 / 2) :
    roundHalfEven num den = k := by
  have hden' : (0 : ℚ) < den := Nat.cast_pos.mpr hden
  -- The bounds over natural numbers first; `k` is then the floor of the quotient or the number
  -- above it.
  have low : 2 * (k * den) ≤ 2 * num + den := by
    rw [le_div_iff₀ hden'] at hlow
    have : (2 : ℚ) * (k * den) ≤ 2 * num + den := by linarith
    exact_mod_cast this
  have high : 2 * num ≤ 2 * (k * den) + den := by
    rw [div_le_iff₀ hden'] at hhigh
    have : (2 : ℚ) * num ≤ 2 * (k * den) + den := by linarith
    exact_mod_cast this
  have strict : k % 2 = 1 → 2 * (k * den) < 2 * num + den ∧ 2 * num < 2 * (k * den) + den := by
    intro h
    obtain ⟨h₁, h₂⟩ := hodd h
    rw [lt_div_iff₀ hden'] at h₁
    rw [div_lt_iff₀ hden'] at h₂
    have h₁ : (2 : ℚ) * (k * den) < 2 * num + den := by linarith
    have h₂ : (2 : ℚ) * num < 2 * (k * den) + den := by linarith
    exact ⟨by exact_mod_cast h₁, by exact_mod_cast h₂⟩
  have parts := Nat.div_add_mod num den
  have rest := Nat.mod_lt num hden
  rw [roundHalfEven]
  generalize num / den = floor at *
  generalize num % den = r at *
  have atLeast : floor ≤ k := by
    by_contra h
    have := Nat.mul_le_mul_right den (Nat.succ_le_of_lt (not_le.mp h))
    rw [Nat.succ_mul] at this
    rw [Nat.mul_comm den] at parts
    omega
  have atMost : k ≤ floor + 1 := by
    by_contra h
    have := Nat.mul_le_mul_right den (Nat.succ_le_of_lt (not_le.mp h))
    rw [Nat.succ_mul, Nat.add_mul, Nat.one_mul] at this
    rw [Nat.mul_comm den] at parts
    omega
  rcases (by omega : k = floor ∨ k = floor + 1) with rfl | rfl
  · rw [Nat.mul_comm den] at parts
    split <;> omega
  · rw [Nat.mul_comm den] at parts
    rw [Nat.add_mul, Nat.one_mul] at low high strict
    split <;> omega

theorem scaledTo_eq {num den k : Nat} {e : Int} (hden : 0 < den)
    (hlow : ((k : ℚ) - 1 / 2) * 2 ^ e ≤ num / den) (hhigh : (num : ℚ) / den ≤ (k + 1 / 2) * 2 ^ e)
    (hodd : k % 2 = 1 → ((k : ℚ) - 1 / 2) * 2 ^ e < num / den ∧
      (num : ℚ) / den < (k + 1 / 2) * 2 ^ e) :
    scaledTo e num den = k := by
  have pos := zpow_two_pos e
  have scaled : ((num * twoTo (-e).toNat : Nat) : ℚ) / ((den * twoTo e.toNat : Nat) : ℚ) =
      num / den / 2 ^ e := by
    push_cast
    rw [cast_twoTo, cast_twoTo, mul_div_mul_comm, div_eq_mul_inv (_ / _) ((2 : ℚ) ^ e), ← zpow_neg,
      ← pow_toNat_div 2 (-e), neg_neg]
  rw [scaledTo]
  apply roundHalfEven_eq (Nat.mul_pos hden (twoTo_pos _))
  · rwa [scaled, le_div_iff₀ pos]
  · rwa [scaled, div_le_iff₀ pos]
  · rwa [scaled, lt_div_iff₀ pos, div_lt_iff₀ pos]

/-- The binary digits of numerator and denominator bound a ratio up to a factor of four. -/
theorem ratio_between {num den : Nat} (hnum : 0 < num) (hden : 0 < den) :
    (2 : ℚ) ^ ((num.log2 : Int) - den.log2 - 1) < num / den ∧
    (num : ℚ) / den < 2 ^ ((num.log2 : Int) - den.log2 + 1) := by
  have hden' : (0 : ℚ) < den := Nat.cast_pos.mpr hden
  have numLow : (2 : ℚ) ^ (num.log2 : Int) ≤ num := by exact_mod_cast Nat.log2_self_le hnum.ne'
  have numHigh : (num : ℚ) < 2 ^ ((num.log2 : Int) + 1) := by
    exact_mod_cast Nat.lt_log2_self (n := num)
  have denLow : (2 : ℚ) ^ (den.log2 : Int) ≤ den := by exact_mod_cast Nat.log2_self_le hden.ne'
  have denHigh : (den : ℚ) < 2 ^ ((den.log2 : Int) + 1) := by
    exact_mod_cast Nat.lt_log2_self (n := den)
  constructor
  · rw [lt_div_iff₀ hden']
    calc (2 : ℚ) ^ ((num.log2 : Int) - den.log2 - 1) * den
        < 2 ^ ((num.log2 : Int) - den.log2 - 1) * 2 ^ ((den.log2 : Int) + 1) :=
          mul_lt_mul_of_pos_left denHigh (zpow_two_pos _)
      _ = 2 ^ (num.log2 : Int) := by rw [← zpow_two_add]; congr 1; ring
      _ ≤ num := numLow
  · rw [div_lt_iff₀ hden']
    calc (num : ℚ) < 2 ^ ((num.log2 : Int) + 1) := numHigh
      _ = 2 ^ ((num.log2 : Int) - den.log2 + 1) * 2 ^ (den.log2 : Int) := by
        rw [← zpow_two_add]; congr 1; ring
      _ ≤ 2 ^ ((num.log2 : Int) - den.log2 + 1) * den :=
        mul_le_mul_of_nonneg_left denLow (zpow_two_pos _).le

/-- At the exponent the ratio has at most 53 binary digits, and just 53 unless the exponent is the
least. -/
structure Fits (e : Int) (q : ℚ) : Prop where
  least : -1074 ≤ e
  below : q < 2 ^ (53 + e)
  full : e = -1074 ∨ 2 ^ (52 + e) ≤ q

theorem Fits.unique {e e' : Int} {q : ℚ} (h : Fits e q) (h' : Fits e' q) : e = e' := by
  have atMost {e e' : Int} (h : Fits e q) (h' : Fits e' q) : e ≤ e' := by
    rcases h.full with rfl | hfull
    · exact h'.least
    · have := (zpow_lt_zpow_iff_right₀ (one_lt_two (α := ℚ))).mp (hfull.trans_lt h'.below)
      omega
  exact le_antisymm (atMost h h') (atMost h' h)

theorem fits_fittingExponent {num den : Nat} (hnum : 0 < num) (hden : 0 < den) :
    Fits (fittingExponent num den) ((num : ℚ) / den) := by
  obtain ⟨low, high⟩ := ratio_between hnum hden
  rw [fittingExponent]
  generalize hguess : max (-1074) ((num.log2 : Int) - den.log2 - 53) = guess
  have hden' : (0 : ℚ) < den := Nat.cast_pos.mpr hden
  have small : num * twoTo (-guess).toNat / (den * twoTo guess.toNat) < twoTo 53 ↔
      (num : ℚ) / den < 2 ^ (53 + guess) := by
    rw [Nat.div_lt_iff_lt_mul (Nat.mul_pos hden (twoTo_pos _)), ← Nat.cast_lt (α := ℚ)]
    push_cast
    rw [cast_twoTo, cast_twoTo, cast_twoTo, zpow_two_add, ← pow_toNat_div 2 guess,
      div_lt_iff₀ hden', mul_div_assoc', div_mul_eq_mul_div, lt_div_iff₀ (pow_pos two_pos _)]
    norm_num [mul_assoc, mul_comm, mul_left_comm]
  simp only [small]
  split
  · rename_i h
    refine ⟨by omega, h, ?_⟩
    by_cases least : guess = -1074
    · exact .inl least
    · refine .inr (le_trans ?_ low.le)
      exact zpow_le_zpow_right₀ one_le_two (by omega)
  · rename_i h
    refine ⟨by omega, high.trans_le (zpow_le_zpow_right₀ one_le_two (by omega)), .inr ?_⟩
    rw [show 52 + (guess + 1) = 53 + guess by ring]
    exact not_lt.mp h

section Rounding

variable {m : Nat} {e : Int} {q : ℚ} (hc : Canonical m e)

include hc

theorem cast_significand_le : (m : ℚ) ≤ 2 ^ 53 - 1 := by
  have h : m + 1 ≤ 2 ^ 53 := hc.1
  have : ((m + 1 : Nat) : ℚ) ≤ (2 ^ 53 : Nat) := Nat.cast_le.mpr h
  push_cast at this
  linarith

theorem fits_of_roundsTo (h : RoundsTo m e q) (hq : e = -1074 ∨ 2 ^ (52 + e) ≤ q) : Fits e q := by
  refine ⟨hc.2.1, h.high.trans_lt ?_, hq⟩
  have := cast_significand_le hc
  rw [highEnd, zpow_two_add]
  exact mul_lt_mul_of_pos_right (by norm_num; linarith) (zpow_two_pos e)

/-- What rounds to a double but has fewer binary digits lies just below a power of two. -/
theorem power_of_short (h : RoundsTo m e q) (hleast : -1074 < e) (hq : q < 2 ^ (52 + e)) :
    m = twoTo 52 := by
  have full : twoTo 52 ≤ m := hc.2.2.2.resolve_right (by omega)
  by_contra hne
  have large : ((2 ^ 52 + 1 : Nat) : ℚ) ≤ m :=
    Nat.cast_le.mpr (Nat.lt_of_le_of_ne full (Ne.symm hne))
  push_cast at large
  have low := h.low.trans_lt hq
  rw [lowEnd, zpow_two_add, zpow_ofNat] at low
  have := lt_of_mul_lt_mul_right low (zpow_two_pos e).le
  linarith [reachBelow_le m e]

end Rounding

theorem lowEnd_power {e : Int} (h : -1074 < e) :
    lowEnd (twoTo 52) e = (2 ^ 53 - 1 / 2) * 2 ^ (e - 1) := by
  have half : (2 : ℚ) ^ (e - 1) = 2 ^ e / 2 := by rw [zpow_sub_one₀ two_ne_zero, div_eq_mul_inv]
  rw [lowEnd, reachBelow, if_pos ⟨rfl, h⟩, half, cast_twoTo]
  ring

theorem ofRatio_of_roundsTo (negative : Bool) {m num den : Nat} {e : Int} (hc : Canonical m e)
    (hnum : 0 < num) (hden : 0 < den) (h : RoundsTo m e ((num : ℚ) / den)) :
    ofRatio negative num den = .finite negative m e hc := by
  have fits := fits_fittingExponent hnum hden
  by_cases short : -1074 < e ∧ (num : ℚ) / den < 2 ^ (52 + e)
  · -- The ratio is rounded up to the next power of two.
    obtain ⟨hleast, hq⟩ := short
    obtain rfl := power_of_short hc h hleast hq
    have low := h.low
    rw [lowEnd_power hleast] at low
    have below : (num : ℚ) / den < 2 ^ (53 + (e - 1)) := by rwa [show 53 + (e - 1) = 52 + e by ring]
    have exponent : fittingExponent num den = e - 1 := by
      refine fits.unique ⟨by omega, below, .inr (le_trans ?_ low)⟩
      rw [zpow_two_add]
      exact mul_le_mul_of_nonneg_right (by norm_num) (zpow_two_pos _).le
    rw [zpow_two_add] at below
    have significand : scaledTo (e - 1) num den = twoTo 53 := by
      refine scaledTo_eq hden ?_ ?_ fun hodd => absurd hodd (by decide)
      · rwa [cast_twoTo]
      · rw [cast_twoTo]
        exact below.le.trans (mul_le_mul_of_nonneg_right (by norm_num) (zpow_two_pos _).le)
    rw [ofRatio]
    simp only [exponent, significand, if_true, sub_add_cancel]
    exact dif_pos hc
  · have full : e = -1074 ∨ 2 ^ (52 + e) ≤ (num : ℚ) / den := by
      by_contra hnone
      rw [not_or, not_le] at hnone
      exact short ⟨lt_of_le_of_ne hc.2.1 (Ne.symm hnone.1), hnone.2⟩
    have exponent : fittingExponent num den = e := fits.unique (fits_of_roundsTo hc h full)
    have inner : ((m : ℚ) - 1 / 2) * 2 ^ e ≤ lowEnd m e :=
      mul_le_mul_of_nonneg_right (by linarith [reachBelow_le m e]) (zpow_two_pos e).le
    have significand : scaledTo e num den = m :=
      scaledTo_eq hden (inner.trans h.low) h.high fun hodd =>
        ⟨inner.trans_lt (h.strict hodd).1, (h.strict hodd).2⟩
    rw [ofRatio]
    simp only [exponent, significand, if_neg (Nat.ne_of_lt hc.1)]
    exact dif_pos hc

theorem lowEnd_pos {m : Nat} (hm : 0 < m) (e : Int) : 0 < lowEnd m e := by
  have : (1 : ℚ) ≤ m := by exact_mod_cast hm
  exact mul_pos (by linarith [reachBelow_le m e]) (zpow_two_pos e)

/-- A decimal becomes the double that it rounds to, unless its exponent is far outside the
format. -/
theorem ofDecimal_of_roundsTo (negative : Bool) {m digits : Nat} {e exponent : Int}
    (hc : Canonical m e) (hm : 0 < m) (hlarge : exponent ≤ 400)
    (hsmall : -400 - digits.log2 ≤ exponent) (h : RoundsTo m e (digits * 10 ^ exponent)) :
    ofDecimal negative digits exponent = .finite negative m e hc := by
  have positive : 0 < digits := by
    by_contra hzero
    have := (lowEnd_pos hm e).trans_le h.low
    rw [Nat.eq_zero_of_not_pos hzero] at this
    simp at this
  rw [ofDecimal, if_neg positive.ne', if_neg (by omega), if_neg (by omega)]
  refine ofRatio_of_roundsTo negative hc (Nat.mul_pos positive (tenTo_pos _)) (tenTo_pos _) ?_
  have := Ratio.value_ofDecimal digits exponent
  rwa [← this] at h

def magnitude (m : Nat) (e : Int) : ℚ :=
  m * 2 ^ e

theorem highEnd_le_lowEnd {m m' : Nat} {e e' : Int} (hc : Canonical m e) (hc' : Canonical m' e')
    (h : magnitude m e < magnitude m' e') : highEnd m e ≤ lowEnd m' e' := by
  have pos := zpow_two_pos e
  have pos' := zpow_two_pos e'
  have bound := cast_significand_le hc
  have bound' := cast_significand_le hc'
  rw [magnitude, magnitude] at h
  rw [highEnd, lowEnd]
  rcases lt_trichotomy e e' with hlt | rfl | hgt
  · -- The larger double has a full significand, and the smaller one is at most half as fine.
    have full : twoTo 52 ≤ m' := hc'.2.2.2.resolve_right (by have := hc.2.1; omega)
    have low : ((2 : ℚ) ^ 53 - 1 / 2) * 2 ^ (e' - 1) ≤ (m' - reachBelow m' e') * 2 ^ e' := by
      have least : -1074 < e' := by have := hc.2.1; omega
      rcases Nat.eq_or_lt_of_le full with rfl | hlarge
      · exact (lowEnd_power least).ge
      · have half : (2 : ℚ) ^ (e' - 1) = 2 ^ e' / 2 := by
          rw [zpow_sub_one₀ two_ne_zero, div_eq_mul_inv]
        have : ((2 ^ 52 + 1 : Nat) : ℚ) ≤ m' := Nat.cast_le.mpr hlarge
        push_cast at this
        rw [half, mul_div_assoc', div_le_iff₀ two_pos, mul_assoc,
          mul_comm ((2 : ℚ) ^ e') 2, ← mul_assoc]
        exact mul_le_mul_of_nonneg_right (by linarith [reachBelow_le m' e']) pos'.le
    refine le_trans ?_ low
    calc ((m : ℚ) + 1 / 2) * 2 ^ e ≤ (2 ^ 53 - 1 / 2) * 2 ^ e :=
          mul_le_mul_of_nonneg_right (by linarith) pos.le
      _ ≤ (2 ^ 53 - 1 / 2) * 2 ^ (e' - 1) :=
          mul_le_mul_of_nonneg_left (zpow_le_zpow_right₀ one_le_two (by omega)) (by norm_num)
  · -- With one exponent the two significands are at least one unit apart.
    have : m + 1 ≤ m' := by exact_mod_cast lt_of_mul_lt_mul_right h pos.le
    have : ((m + 1 : Nat) : ℚ) ≤ m' := Nat.cast_le.mpr this
    push_cast at this
    exact mul_le_mul_of_nonneg_right (by linarith [reachBelow_le m' e]) pos.le
  · -- A larger exponent comes with a full significand, so the first double is not the smaller one.
    have full : twoTo 52 ≤ m := hc.2.2.2.resolve_right (by have := hc'.2.1; omega)
    have full := le_cast_of_full full
    have : (m' : ℚ) * 2 ^ e' < m * 2 ^ e := by
      calc (m' : ℚ) * 2 ^ e' < 2 ^ 53 * 2 ^ e' := mul_lt_mul_of_pos_right (by linarith) pos'
        _ = 2 ^ 52 * 2 ^ (e' + 1) := by rw [zpow_two_add]; ring
        _ ≤ 2 ^ 52 * 2 ^ e :=
          mul_le_mul_of_nonneg_left (zpow_le_zpow_right₀ one_le_two (by omega)) (by norm_num)
        _ ≤ m * 2 ^ e := mul_le_mul_of_nonneg_right full pos.le
    exact absurd h this.not_gt

end Binary64

end SqlCanvas
