import Mathlib.Algebra.Group.Nat.Defs
import SqlCanvas.Number.Numeral

/-!
# Digits of numerals

A number lies between the powers of ten that the digits of its numeral count, and a text of digits
stands for a number with no more digits than the text has. So what is short enough to be read is
short enough to be written.
-/

namespace SqlCanvas.Numeral

open Text

theorem isWritable_iff {n : Int} : IsWritable n ↔ n.natAbs < 10 ^ digitLimit :=
  Nat.length_toDigits_le_iff (by decide) (by decide)

theorem not_isWritable_pow : ¬ IsWritable (10 ^ digitLimit : Nat) := by
  rw [isWritable_iff, Int.natAbs_natCast]
  exact Nat.lt_irrefl _

theorem lt_pow_length (n : Nat) : n < 10 ^ (ofNat n).length :=
  (Nat.length_toDigits_le_iff (by decide) Nat.length_toDigits_pos).mp (Nat.le_refl _)

theorem pow_length_le {n : Nat} (hn : 0 < n) : 10 ^ ((ofNat n).length - 1) ≤ n := by
  by_cases one : (ofNat n).length ≤ 1
  · rw [Nat.sub_eq_zero_of_le one]
    exact hn
  · apply Nat.le_of_not_lt
    intro small
    have short : (ofNat n).length ≤ (ofNat n).length - 1 :=
      (Nat.length_toDigits_le_iff (by decide) (by omega)).mpr small
    omega

theorem foldl_lt (t : Text) (n : Nat) :
    t.foldl (fun n c => 10 * n + (digitValue? c).getD 0) n < (n + 1) * 10 ^ t.length := by
  induction t generalizing n with
  | nil => simp
  | cons c t ih =>
    have digit : (digitValue? c).getD 0 < 10 := by
      cases hc : digitValue? c with
      | none => simp
      | some d => exact digitValue?_lt hc
    calc (c :: t).foldl (fun n c => 10 * n + (digitValue? c).getD 0) n
        < (10 * n + (digitValue? c).getD 0 + 1) * 10 ^ t.length := ih _
      _ ≤ (n + 1) * 10 * 10 ^ t.length := Nat.mul_le_mul_right _ (by omega)
      _ = (n + 1) * 10 ^ (c :: t).length := by rw [List.length_cons, Nat.pow_succ', Nat.mul_assoc]

theorem length_ofNat_value_le {digits : Text} (hne : digits ≠ []) :
    (ofNat (value digits)).length ≤ digits.length := by
  apply (Nat.length_toDigits_le_iff (by decide) (List.length_pos_iff.mpr hne)).mpr
  simpa [value] using foldl_lt digits 0

/-- Digits that are few enough to be read stand for a number that can be written. -/
theorem isWritable_value {digits : Text} (h : digits.length ≤ digitLimit) :
    IsWritable (value digits) := by
  by_cases hne : digits = []
  · subst hne
    decide
  · exact Nat.le_trans (length_ofNat_value_le hne) h

theorem isWritable_neg {n : Int} (h : IsWritable n) : IsWritable (-n) := by
  rwa [IsWritable, Int.natAbs_neg]

theorem foldl_zeros (k n : Nat) :
    (List.replicate k '0').foldl (fun n c => 10 * n + (digitValue? c).getD 0) n = n * 10 ^ k := by
  have zero : (digitValue? '0').getD 0 = 0 := by decide
  induction k generalizing n with
  | zero => simp
  | succ k ih =>
    rw [List.replicate_succ, List.foldl_cons, ih, zero, Nat.pow_succ', Nat.add_zero,
      Nat.mul_comm 10, Nat.mul_assoc]

theorem value_append_zeros (t : Text) (k : Nat) :
    value (t ++ List.replicate k '0') = value t * 10 ^ k := by
  rw [value_append, foldl_zeros]

theorem value_zeros_append (k : Nat) (t : Text) : value (List.replicate k '0' ++ t) = value t := by
  have zeros : value (List.replicate k '0') = 0 := by
    rw [value, foldl_zeros, Nat.zero_mul]
  rw [value_append, zeros, value]

end SqlCanvas.Numeral
