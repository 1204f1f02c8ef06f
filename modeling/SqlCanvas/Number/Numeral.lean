import SqlCanvas.Text.Word

/-!
# Numerals

Whole numbers written in decimal. Reading accepts decimal digits of any script, writing uses the
ASCII ones. A numeral of more than `Numeral.digitLimit` digits is neither read nor written.
-/

namespace SqlCanvas.Numeral

open Text

/-- The number whose digits, most significant first, are the digits of the text. -/
def value (digits : Text) : Nat :=
  digits.foldl (fun n c => 10 * n + (digitValue? c).getD 0) 0

def ofNat (n : Nat) : Text :=
  Nat.toDigits 10 n

def ofInt : Int → Text
  | .ofNat n => ofNat n
  | .negSucc n => '-' :: ofNat (n + 1)

/-- The most digits that a whole number may have in a text. The sign does not count. -/
def digitLimit : Nat := 4300

def IsWritable (n : Int) : Prop :=
  (ofNat n.natAbs).length ≤ digitLimit

instance (n : Int) : Decidable (IsWritable n) :=
  inferInstanceAs (Decidable (_ ≤ _))

theorem digitValue?_of_isDigit {c : Char} (h : c.isDigit = true) :
    digitValue? c = some (c.toNat - '0'.toNat) := by
  simp only [Char.isDigit, Bool.and_eq_true, decide_eq_true_eq, ge_iff_le,
    UInt32.le_iff_toNat_le] at h
  have hn : c.toNat = c.val.toNat := rfl
  simp at h
  simp only [digitValue?, hn]
  rw [if_pos (by omega), if_pos (by omega)]
  rfl

theorem value_append (s t : Text) :
    value (s ++ t) = t.foldl (fun n c => 10 * n + (digitValue? c).getD 0) (value s) := by
  simp [value]

theorem foldl_eq_ofDigitChars {t : Text} (h : ∀ c ∈ t, c.isDigit = true) (n : Nat) :
    t.foldl (fun n c => 10 * n + (digitValue? c).getD 0) n = Nat.ofDigitChars 10 t n := by
  induction t generalizing n with
  | nil => rfl
  | cons c t ih =>
    rw [List.foldl_cons, ih fun d hd => h d (List.mem_cons_of_mem _ hd),
      digitValue?_of_isDigit (h c List.mem_cons_self)]
    rfl

theorem isDigit_of_mem_ofNat {n : Nat} {c : Char} (h : c ∈ ofNat n) : c.isDigit = true :=
  Nat.isDigit_of_mem_toDigits (by decide) (by decide) h

theorem value_ofNat (n : Nat) : value (ofNat n) = n := by
  rw [value, foldl_eq_ofDigitChars fun _ h => isDigit_of_mem_ofNat h]
  exact Nat.ofDigitChars_toDigits (by decide) (by decide)

end SqlCanvas.Numeral
