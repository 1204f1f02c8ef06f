import SqlCanvas.Number.Binary64
import SqlCanvas.Number.Numeral

/-!
# The shortest decimal of a double

Among the decimals that round to a given double, the one with the fewest digits is chosen, and of
those the nearest to it. The layout of the digits is a record, so that the choice of digits does not
depend on how they are shown.
-/

namespace SqlCanvas

namespace Binary64

/-- The reals that round to the double `significand * 2 ^ exponent` lie between `low` and `high`, in
units of `2 ^ (exponent - 2)`; the ends belong to them when the significand is even. -/
structure RoundingInterval where
  low : Nat
  high : Nat
  closed : Bool

def roundingInterval (significand : Nat) (exponent : Int) : RoundingInterval where
  low := if significand = twoTo 52 ∧ -1074 < exponent then 4 * significand - 1
    else 4 * significand - 2
  high := 4 * significand + 2
  closed := significand % 2 == 0

/-- A positive number `num / den`, to be compared with points of decimal grids. -/
structure Ratio where
  num : Nat
  den : Nat

def Ratio.ofBinary (k : Nat) (exponent : Int) : Ratio :=
  ⟨k * twoTo exponent.toNat, twoTo (-exponent).toNat⟩

def Ratio.ofDecimal (k : Nat) (exponent : Int) : Ratio :=
  ⟨k * tenTo exponent.toNat, tenTo (-exponent).toNat⟩

def Ratio.lt (a b : Ratio) : Bool :=
  a.num * b.den < b.num * a.den

def RoundingInterval.contains (i : RoundingInterval) (exponent : Int) (x : Ratio) : Bool :=
  let low := Ratio.ofBinary i.low (exponent - 2)
  let high := Ratio.ofBinary i.high (exponent - 2)
  if i.closed then !x.lt low && !high.lt x else low.lt x && x.lt high

/-- The exponent `p` of the first digit: `10 ^ p ≤ x < 10 ^ (p + 1)`, looked for upwards from
`p`. -/
def leadingExponentFrom (x : Ratio) : Nat → Int → Int
  | 0, p => p
  | fuel + 1, p =>
    if x.lt (.ofDecimal 1 (p + 1)) then p else leadingExponentFrom x fuel (p + 1)

/-- A lower bound of the first digit's exponent, from the number of binary digits, and then the
exponent itself; the bound is short of it by two at most. -/
def leadingExponent (x : Ratio) : Int :=
  let bits := (x.num.log2 : Int) - x.den.log2
  leadingExponentFrom x 4 ((bits - 1) * 30103 / 100000 - 1)

/-- The digits as a whole number with the exponent of its last place. -/
structure Decimal where
  digits : Nat
  exponent : Int

/-- The grid point next to `x` that rounds back, at the places from `10 ^ exponent` on. Of two such
points the nearer is taken, and of two equally near the even one. -/
def gridPoint? (x : Ratio) (i : RoundingInterval) (binaryExponent exponent : Int) :
    Option Decimal :=
  let unit := Ratio.ofDecimal 1 exponent
  let below := x.num * unit.den / (x.den * unit.num)
  let rest := x.num * unit.den % (x.den * unit.num)
  let fits (k : Nat) : Bool := i.contains binaryExponent (.ofDecimal k exponent)
  let upper := below + 1
  match fits below, fits upper with
  | true, true =>
    let half := x.den * unit.num
    some ⟨if 2 * rest < half ∨ (2 * rest = half ∧ below % 2 = 0) then below else upper, exponent⟩
  | true, false => some ⟨below, exponent⟩
  | false, true => some ⟨upper, exponent⟩
  | false, false => none

/-- The shortest decimal that rounds to a positive double: grids of 1, 2, … 17 digits are tried. -/
def shortest (significand : Nat) (exponent : Int) : Decimal :=
  let x := Ratio.ofBinary significand exponent
  let i := roundingInterval significand exponent
  let leading := leadingExponent x
  ((List.range 17).findSome? fun (k : Nat) => gridPoint? x i exponent (leading - k)).getD
    ⟨significand, exponent⟩

end Binary64

/-- How the digits of a number are laid out. Exponents of the first digit from `least` up to, not
including, `bound` are written out in places; the others are given behind `exponentMark` with a sign
and `exponentWidth` digits at least. -/
structure NumberLayout where
  least : Int
  bound : Int
  exponentMark : Char
  exponentWidth : Nat
  /-- What marks a whole number in places as one that may have a fraction. -/
  wholeEnding : Text
  nan : Text
  infinity : Text

namespace NumberLayout

def padded (width : Nat) (n : Nat) : Text :=
  let digits := Numeral.ofNat n
  List.replicate (width - digits.length) '0' ++ digits

/-- The digits without the zeros at their end. -/
def significantDigits (digits : Nat) : Text :=
  Text.dropEndWhile (· == '0') (Numeral.ofNat digits)

def write (layout : NumberLayout) (x : Binary64.Decimal) : Text :=
  let all := Numeral.ofNat x.digits
  let leading : Int := x.exponent + (all.length - 1 : Nat)
  let digits := significantDigits x.digits
  if layout.least ≤ leading ∧ leading < layout.bound then
    if leading < 0 then
      '0' :: '.' :: (List.replicate ((-leading).toNat - 1) '0' ++ digits)
    else
      let whole := leading.toNat + 1
      if digits.length ≤ whole then
        digits ++ List.replicate (whole - digits.length) '0' ++ layout.wholeEnding
      else digits.take whole ++ '.' :: digits.drop whole
  else
    let fraction := if digits.length ≤ 1 then [] else '.' :: digits.drop 1
    let sign := if leading < 0 then '-' else '+'
    digits.take 1 ++ fraction ++
      layout.exponentMark :: sign :: padded layout.exponentWidth leading.natAbs

end NumberLayout

/-- Doubles in SQL text and in documents: in places from `10 ^ -4` up to `10 ^ 16`, always with a
point or an exponent. -/
def Binary64.layout : NumberLayout where
  least := -4
  bound := 16
  exponentMark := 'e'
  exponentWidth := 2
  wholeEnding := ['.', '0']
  nan := "nan".toList
  infinity := "inf".toList

def Binary64.text : Binary64 → Text
  | .nan => layout.nan
  | .infinite negative => (if negative then ['-'] else []) ++ layout.infinity
  | .finite negative significand exponent _ =>
    (if negative then ['-'] else []) ++
      if significand = 0 then '0' :: layout.wholeEnding
      else layout.write (shortest significand exponent)

end SqlCanvas
