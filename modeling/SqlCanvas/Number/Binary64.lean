/-!
# Double precision numbers

The values of the 64-bit binary format, each in one way: a finite number is a sign, a significand
below `2 ^ 53` and an exponent of two, with the significand full or the exponent least. A ratio of
whole numbers becomes the nearest of them, ties going to the even significand, and overflows to an
infinity.
-/

namespace SqlCanvas

def twoTo (n : Nat) : Nat := Nat.pow 2 n

def tenTo (n : Nat) : Nat := Nat.pow 10 n

/-- The significand and exponent of a finite double in its only form. -/
def Canonical (significand : Nat) (exponent : Int) : Prop :=
  significand < twoTo 53 ∧ -1074 ≤ exponent ∧ exponent ≤ 971 ∧
    (twoTo 52 ≤ significand ∨ exponent = -1074)

instance (significand : Nat) (exponent : Int) : Decidable (Canonical significand exponent) :=
  inferInstanceAs (Decidable (_ ∧ _ ∧ _ ∧ _))

inductive Binary64 where
  | nan
  | infinite (negative : Bool)
  | finite (negative : Bool) (significand : Nat) (exponent : Int)
      (canonical : Canonical significand exponent)
  deriving DecidableEq

namespace Binary64

theorem canonical_zero : Canonical 0 (-1074) := by decide

def zero (negative : Bool) : Binary64 :=
  .finite negative 0 (-1074) canonical_zero

/-- The whole number nearest to `num / den`, a half going to the even neighbour. -/
def roundHalfEven (num den : Nat) : Nat :=
  let floor := num / den
  let rest := num % den
  if den < 2 * rest ∨ (2 * rest = den ∧ floor % 2 = 1) then floor + 1 else floor

/-- The whole number nearest to `num / (den * 2 ^ exponent)`. -/
def scaledTo (exponent : Int) (num den : Nat) : Nat :=
  roundHalfEven (num * twoTo (-exponent).toNat) (den * twoTo exponent.toNat)

/-- The exponent at which `num / den` fills the significand, but not below the least exponent. -/
def fittingExponent (num den : Nat) : Int :=
  let guess := max (-1074) ((num.log2 : Int) - den.log2 - 53)
  let floor := num * twoTo (-guess).toNat / (den * twoTo guess.toNat)
  if floor < twoTo 53 then guess else guess + 1

/-- The double nearest to `num / den`. -/
def ofRatio (negative : Bool) (num den : Nat) : Binary64 :=
  let exponent := fittingExponent num den
  let significand := scaledTo exponent num den
  let (significand, exponent) :=
    if significand = twoTo 53 then (twoTo 52, exponent + 1) else (significand, exponent)
  if h : Canonical significand exponent then .finite negative significand exponent h
  else .infinite negative

/-- The double nearest to `digits * 10 ^ exponent`. Exponents far outside the format are settled
without computing the power. -/
def ofDecimal (negative : Bool) (digits : Nat) (exponent : Int) : Binary64 :=
  if digits = 0 then zero negative
  else if 400 < exponent then .infinite negative
  else if exponent < -400 - digits.log2 then zero negative
  else ofRatio negative (digits * tenTo exponent.toNat) (tenTo (-exponent).toNat)

def isFinite : Binary64 → Bool
  | .finite .. => true
  | _ => false

/-- The whole number that a double equals, if it equals one. -/
def toInt? : Binary64 → Option Int
  | .finite negative significand exponent _ =>
    let size := significand * twoTo exponent.toNat
    let unit := twoTo (-exponent).toNat
    if size % unit = 0 then
      let whole : Int := (size / unit : Nat)
      some (if negative then -whole else whole)
    else none
  | _ => none

end Binary64

end SqlCanvas
