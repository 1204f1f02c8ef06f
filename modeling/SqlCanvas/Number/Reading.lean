import SqlCanvas.Number.Binary64
import SqlCanvas.Number.Numeral
import SqlCanvas.Text.LetterCase

/-!
# Reading doubles

A fractional number is written as digits around a point, with or without an exponent. The digits may
be of any script. `Binary64.read?` takes the full form that documents use: blanks at the ends, a
sign, single underscores between digits, an exponent, and the words for infinity and not-a-number.
-/

namespace SqlCanvas.Binary64

open Text

/-- The double nearest to the number with these digits before and after the point, times a power of
ten. -/
def ofDigits (negative : Bool) (whole fraction : Text) (exponent : Int) : Binary64 :=
  ofDecimal negative (Numeral.value (whole ++ fraction)) (exponent - fraction.length)

/-- Splits an optional sign off; `true` stands for minus. -/
def splitSign : Text → Bool × Text
  | '-' :: rest => (true, rest)
  | '+' :: rest => (false, rest)
  | t => (false, t)

/-- The digits and underscores at the start of a text, and what follows them. -/
def splitDigits (t : Text) : Text × Text :=
  let belongs (c : Char) : Bool := isDecimal c || c == '_'
  (t.takeWhile belongs, t.dropWhile belongs)

/-- The digits of a stretch in which an underscore stands between two digits only. -/
def digitsOf? (stretch : Text) : Option Text :=
  if stretch.isEmpty || (stretch.splitOn '_').all (!·.isEmpty) then
    some (stretch.filter isDecimal)
  else none

/-- A whole number: blanks at the ends, a sign, digits of any script with single underscores between
them. -/
def readWhole? (t : Text) : Option Int :=
  let (negative, rest) := splitSign t.trim
  match splitDigits rest with
  | (stretch@(_ :: _), []) => (digitsOf? stretch).map fun digits =>
    let n : Int := Numeral.value digits
    if negative then -n else n
  | _ => none

def readExponent? : Text → Option Int
  | [] => some 0
  | mark :: rest =>
    if mark = 'e' ∨ mark = 'E' then
      let (negative, rest) := splitSign rest
      match splitDigits rest with
      | (stretch@(_ :: _), []) => (digitsOf? stretch).map fun digits =>
        let size : Int := Numeral.value digits
        if negative then -size else size
      | _ => none
    else none

def readUnsigned? (negative : Bool) (t : Text) : Option Binary64 := do
  let (whole, rest) := splitDigits t
  let (fraction, rest) :=
    match rest with
    | '.' :: more => splitDigits more
    | _ => ([], rest)
  if whole.isEmpty && fraction.isEmpty then none
  else
    let whole ← digitsOf? whole
    let fraction ← digitsOf? fraction
    let exponent ← readExponent? rest
    return ofDigits negative whole fraction exponent

def read? (t : Text) : Option Binary64 :=
  let (negative, rest) := splitSign t.trim
  let word := lower rest
  if word = "inf".toList ∨ word = "infinity".toList then some (.infinite negative)
  else if word = "nan".toList then some .nan
  else readUnsigned? negative rest

end SqlCanvas.Binary64
