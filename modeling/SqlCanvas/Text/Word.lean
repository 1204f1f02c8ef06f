import SqlCanvas.Text.Basic
import SqlCanvas.Text.Interval
import SqlCanvas.Text.Table.Word
import SqlCanvas.Text.Table.Digit

/-!
# Word characters and digits

Names are made of word characters: letters, digits and numbers of every script, and the underscore.
Numerals are made of decimal digits of any script; a digit in the wider sense may also be a
superscript or circled one, which has no place value.
-/

namespace SqlCanvas.Text

def isAsciiAlphanumeric (n : Nat) : Bool :=
  (48 ≤ n && n ≤ 57) || (65 ≤ n && n ≤ 90) || (97 ≤ n && n ≤ 122)

def isWord (c : Char) : Bool :=
  let n := c.toNat
  if n < 128 then isAsciiAlphanumeric n || n == 95
  else Interval.contains Table.alphanumeric n

/-- The value of a decimal digit of any script. -/
def digitValue? (c : Char) : Option Nat :=
  let n := c.toNat
  if n < 128 then
    if 48 ≤ n ∧ n ≤ 57 then some (n - 48) else none
  else
    (Table.decimalZeros.find? fun first => first ≤ n && n ≤ first + 9).map (n - ·)

def isDecimal (c : Char) : Bool :=
  (digitValue? c).isSome

/-- Decimal digits and the digits without place value. -/
def isDigit (c : Char) : Bool :=
  isDecimal c || Interval.contains Table.otherDigits c.toNat

theorem isWord_of_isAsciiAlphanumeric {c : Char} (h : isAsciiAlphanumeric c.toNat = true) :
    isWord c = true := by
  have hc : c.toNat < 128 := by
    simp [isAsciiAlphanumeric] at h
    omega
  simp [isWord, hc, h]

theorem digitValue?_lt {c : Char} {d : Nat} (h : digitValue? c = some d) : d < 10 := by
  simp only [digitValue?] at h
  split at h
  · split at h
    · simp at h; omega
    · simp at h
  · obtain ⟨first, hz, rfl⟩ := Option.map_eq_some_iff.1 h
    have := Array.find?_some hz
    simp at this
    omega

end SqlCanvas.Text
