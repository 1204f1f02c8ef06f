import SqlCanvas.Number.Reading
import SqlCanvas.Proofs.Number.Layout

/-!
# Doubles in places

A double is shown in places when it lies between the bounds of the layout. That is decided by the
exponent of its shortest decimal, and the decimal is on the same side of the bounds as the double,
as no rounding interval goes across them. What is shown in places is read as the double again.
-/

namespace SqlCanvas.Binary64

section Bounds

variable {m : Nat} {e : Int} (hc : Canonical m e)

theorem lowEnd_lt_magnitude (m : Nat) (e : Int) : lowEnd m e < magnitude m e :=
  mul_lt_mul_of_pos_right (by linarith [reachBelow_pos m e]) (zpow_two_pos e)

theorem magnitude_lt_highEnd (m : Nat) (e : Int) : magnitude m e < highEnd m e :=
  mul_lt_mul_of_pos_right (by linarith) (zpow_two_pos e)

theorem roundsTo_magnitude (m : Nat) (e : Int) : RoundsTo m e (magnitude m e) where
  low := (lowEnd_lt_magnitude m e).le
  high := (magnitude_lt_highEnd m e).le
  strict _ := ⟨lowEnd_lt_magnitude m e, magnitude_lt_highEnd m e⟩

include hc

theorem fits_magnitude : Fits e (magnitude m e) := by
  apply fits_of_roundsTo hc (roundsTo_magnitude m e)
  rcases hc.2.2.2 with full | least
  · rw [magnitude, zpow_two_add, zpow_ofNat]
    exact .inr (mul_le_mul_of_nonneg_right (le_cast_of_full full) (zpow_two_pos e).le)
  · exact .inl least

theorem eq_of_magnitude_eq {m' : Nat} {e' : Int} (hc' : Canonical m' e')
    (h : magnitude m e = magnitude m' e') : m = m' ∧ e = e' := by
  obtain rfl : e = e' := (fits_magnitude hc).unique (h ▸ fits_magnitude hc')
  exact ⟨Nat.cast_injective (mul_right_cancel₀ (zpow_two_pos e).ne' h), rfl⟩

/-- A bound in the lower half of a rounding interval has every double and its shortest decimal on
the same side, when the double of that interval and its decimal are not below it. -/
theorem le_shortest_iff {m₀ : Nat} {e₀ : Int} (hc₀ : Canonical m₀ e₀) {bound : ℚ}
    (low : lowEnd m₀ e₀ < bound) (high : bound ≤ magnitude m₀ e₀)
    (shown : bound ≤ (shortest m₀ e₀).value) (hm : 0 < m) :
    bound ≤ (shortest m e).value ↔ bound ≤ magnitude m e := by
  have rounds : RoundsTo m e (shortest m e).value := exists_shortest hc hm
  rcases lt_trichotomy (magnitude m e) (magnitude m₀ e₀) with hlt | heq | hgt
  · have ends := highEnd_le_lowEnd hc hc₀ hlt
    have decimal := (rounds.high.trans ends).trans_lt low
    have double := ((magnitude_lt_highEnd m e).trans_le ends).trans low
    exact ⟨fun h => absurd h decimal.not_ge, fun h => absurd h double.not_ge⟩
  · obtain ⟨rfl, rfl⟩ := eq_of_magnitude_eq hc hc₀ heq
    exact ⟨fun _ => high, fun _ => shown⟩
  · have ends := highEnd_le_lowEnd hc₀ hc hgt
    have decimal := ((high.trans_lt (magnitude_lt_highEnd m₀ e₀)).trans_le ends).le.trans rounds.low
    exact ⟨fun _ => high.trans hgt.le, fun _ => decimal⟩

theorem digits_shortest_pos (hm : 0 < m) : 0 < (shortest m e).digits := by
  by_contra hzero
  have := (lowEnd_pos hm e).trans_le (exists_shortest hc hm).low
  rw [Nat.eq_zero_of_not_pos hzero] at this
  simp at this

/-- The double nearest to the lower bound is a little larger than it. -/
theorem least_le_leading_iff (hm : 0 < m) :
    -4 ≤ (shortest m e).leading ↔ (10 : ℚ) ^ (-4 : Int) ≤ magnitude m e := by
  have nearest : Canonical 7378697629483821 (-66) := by decide
  have shown : (shortest 7378697629483821 (-66)).value = 10 ^ (-4 : Int) := by
    have digits : (shortest 7378697629483821 (-66)).digits = 1 := by decide +kernel
    have exponent : (shortest 7378697629483821 (-66)).exponent = -4 := by decide +kernel
    rw [Decimal.value, digits, exponent, Nat.cast_one, one_mul]
  rw [← Decimal.zpow_le_value_iff (digits_shortest_pos hc hm)]
  refine le_shortest_iff hc nearest ?_ ?_ shown.ge hm
  · rw [lowEnd, reachBelow, if_neg (by decide)]
    norm_num
  · rw [magnitude]
    norm_num

theorem bound_le_leading_iff (hm : 0 < m) :
    16 ≤ (shortest m e).leading ↔ (10 : ℚ) ^ (16 : Int) ≤ magnitude m e := by
  have equal : Canonical 5000000000000000 1 := by decide
  have shown : (shortest 5000000000000000 1).value = 10 ^ (16 : Int) := by
    have digits : (shortest 5000000000000000 1).digits = 1 := by decide +kernel
    have exponent : (shortest 5000000000000000 1).exponent = 16 := by decide +kernel
    rw [Decimal.value, digits, exponent, Nat.cast_one, one_mul]
  rw [← Decimal.zpow_le_value_iff (digits_shortest_pos hc hm)]
  refine le_shortest_iff hc equal ?_ ?_ shown.ge hm
  · rw [lowEnd, reachBelow, if_neg (by decide)]
    norm_num
  · rw [magnitude]
    norm_num

end Bounds

/-- Zero, or neither too large nor too small to be shown without an exponent. -/
def InPlaces : Binary64 → Prop
  | .finite _ significand exponent _ =>
    significand = 0 ∨ ((10 : ℚ) ^ (-4 : Int) ≤ magnitude significand exponent ∧
      magnitude significand exponent < 10 ^ (16 : Int))
  | _ => False

section Finite

variable {m : Nat} {e : Int} {hc : Canonical m e} {negative : Bool}

theorem inPlaces_iff_leading (hm : 0 < m) : (finite negative m e hc).InPlaces ↔
    -4 ≤ (shortest m e).leading ∧ (shortest m e).leading < 16 := by
  rw [InPlaces, or_iff_right hm.ne', least_le_leading_iff hc hm, ← not_le, ← not_le,
    bound_le_leading_iff hc hm]

theorem ofDigits_of_isShown (hm : 0 < m) {d : Decimal} (rounds : RoundsTo m e d.value)
    (hd : 0 < d.digits) (hleast : -4 ≤ d.leading) {whole fraction : Text}
    (h : d.IsShown whole fraction) :
    ofDigits negative whole fraction 0 = finite negative m e hc := by
  have value_eq := h.value_eq
  have least := (Decimal.zpow_le_value_iff hd (-4)).mpr hleast
  rw [ofDigits]
  generalize Numeral.value (whole ++ fraction) = number at value_eq ⊢
  rw [← value_eq] at least
  have positive : 0 < number := by
    by_contra hzero
    rw [Nat.eq_zero_of_not_pos hzero, Nat.cast_zero, zero_mul] at least
    exact (zpow_ten_pos _).not_ge least
  -- There are at most four places more behind the point than the number has digits.
  have large : 10 ^ (fraction.length - 4) ≤ number := by
    rw [zpow_neg (10 : ℚ) (fraction.length : Int), ← div_eq_mul_inv, le_div_iff₀ (zpow_ten_pos _),
      ← zpow_add₀ (by norm_num)] at least
    by_cases short : fraction.length ≤ 4
    · rw [Nat.sub_eq_zero_of_le short]
      exact positive
    · have exponent : (-4 : Int) + fraction.length = (fraction.length - 4 : Nat) := by omega
      rw [exponent, zpow_natCast] at least
      exact_mod_cast least
  have bits : fraction.length - 4 ≤ number.log2 :=
    (Nat.le_log2 positive.ne').mpr ((Nat.pow_le_pow_left (by decide) _).trans large)
  refine ofDecimal_of_roundsTo negative hc hm (by omega) (by omega) ?_
  rw [zero_sub, value_eq]
  exact rounds

theorem exists_text_of_inPlaces (h : (finite negative m e hc).InPlaces) : ∃ whole fraction,
    (finite negative m e hc).text = (if negative then ['-'] else []) ++ (whole ++ '.' :: fraction) ∧
      IsDigits whole ∧ IsDigits fraction ∧ ofDigits negative whole fraction 0 =
        finite negative m e hc := by
  rw [text]
  by_cases hzero : m = 0
  · subst hzero
    obtain rfl : e = -1074 := hc.2.2.2.resolve_left (by decide)
    exact ⟨['0'], ['0'], rfl, isDigits_replicate one_pos, isDigits_replicate one_pos,
      by cases negative <;> rfl⟩
  · have hm := Nat.pos_of_ne_zero hzero
    obtain ⟨hleast, hbound⟩ := (inPlaces_iff_leading hm).mp h
    obtain ⟨whole, fraction, htext, shown⟩ :=
      Decimal.exists_shown (digits_shortest_pos hc hm) hleast hbound
    rw [if_neg hzero, htext]
    exact ⟨whole, fraction, rfl, shown.whole_digits, shown.fraction_digits,
      ofDigits_of_isShown hm (exists_shortest hc hm) (digits_shortest_pos hc hm) hleast shown⟩

theorem exists_text_of_not_inPlaces (h : ¬ (finite negative m e hc).InPlaces) : ∃ c t,
    (finite negative m e hc).text = (if negative then ['-'] else []) ++ c :: t ∧ c.isDigit = true ∧
    'e' ∈ t := by
  have hzero : m ≠ 0 := fun hzero => h (.inl hzero)
  have hm := Nat.pos_of_ne_zero hzero
  rw [inPlaces_iff_leading hm] at h
  obtain ⟨c, t, htext, hdigit, hmark⟩ := Decimal.exists_marked (digits_shortest_pos hc hm) h
  rw [text, if_neg hzero, htext]
  exact ⟨c, t, rfl, hdigit, hmark⟩

end Finite

end SqlCanvas.Binary64
