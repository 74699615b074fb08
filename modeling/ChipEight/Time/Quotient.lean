/-!
# ChipEight.Time.Quotient

The double nearest to a quotient of two integers, ties going to the even one. Numerator and
denominator may be of any size, so the quotient is found in whole numbers before it becomes a
double.

* `Quotient.ratio`: the double, if there is one.
* `Quotient.ofInt`: the double nearest to an integer.
-/

namespace ChipEight
namespace Quotient

/-- `num / den` as a whole number, rounded to the nearest, ties going to the even one. -/
def roundDiv (num den : Nat) : Nat :=
  let q := num / den
  let r := num % den
  if 2 * r > den || (2 * r == den && q % 2 == 1) then q + 1 else q

/-- The number of values that a significand of 53 bits can take. -/
def significands : Nat := 9007199254740992

/-- `num / den` over a power of two, as two whole numbers. -/
def scaled (num den : Nat) (e : Int) : Nat × Nat :=
  if e ≥ 0 then (num, den <<< e.toNat) else (num <<< (-e).toNat, den)

/-- The binary exponent that gives `num / den` a significand of 53 bits. No double has a lesser one
than -1074. -/
def exponent (num den : Nat) : Int :=
  let guess : Int := (num.log2 : Int) - (den.log2 : Int) - 53
  let (n, d) := scaled num den guess
  max (if n / d ≥ significands then guess + 1 else guess) (-1074)

/-- The significand of `num / den` for a binary exponent. -/
def significand (num den : Nat) (e : Int) : Nat :=
  let (n, d) := scaled num den e
  roundDiv n d

/-- Why a quotient has no double. -/
inductive Fault where
  | divisionByZero
  | tooLarge
deriving DecidableEq, Repr

/-- What a quotient without a double is reported as. -/
def Fault.message : Fault → String
  | .divisionByZero => "Division by zero"
  | .tooLarge => "The quotient is too large for a double"

/-- The double nearest to `num / den`. A zero takes its sign from the two signs as well. -/
def ratio (num den : Int) : Except Fault Float :=
  if den = 0 then .error .divisionByZero
  else
    let e := exponent num.natAbs den.natAbs
    let size := (Float.ofNat (significand num.natAbs den.natAbs e)).scaleB e
    if size.isInf then .error .tooLarge
    else .ok (if (num < 0) != (den < 0) then -size else size)

/-- The double nearest to an integer. -/
def ofInt (n : Int) : Except Fault Float := ratio n 1

end Quotient
end ChipEight
