/-
**Decimal texts of a given precision.**

A number can be written with a fixed count of places after the point, or with a fixed count of
significant digits.  Its exact value is rounded once, a tie to the even digit.  The general form
shows significant digits and chooses between positional and scientific writing by the exponent.

Main definitions:

* `Double.roundedAt` — a rational in units of a power of ten;
* `Double.significant` — the leading digits of a rational;
* `Double.fixedText`, `Double.scientificText`, `Double.generalText` — the three forms.

Main results:

* `Double.roundedAt_natCast` — a whole number is not rounded.
-/
import EventLayer.Double.Shortest

set_option autoImplicit false
set_option relaxedAutoImplicit false

namespace EventLayer.Double

/-- A nonnegative rational as a count of units `10 ^ -places`, rounded. -/
def roundedAt (r : Rat) (places : Int) : Nat :=
  let scaled := r * tenPow places
  roundEven scaled.num.natAbs scaled.den

theorem roundedAt_natCast (n : Nat) : roundedAt n 0 = n := by
  have h : ((n : Rat) * tenPow 0) = n := by simp [tenPow]
  simp [roundedAt, h, roundEven, Nat.mod_one]

/-- The digits of a number, filled up with zeros in front. -/
def digitsOf (width n : Nat) : List Char :=
  let digits := Nat.toDigits 10 n
  List.replicate (width - digits.length) '0' ++ digits

/-- The first `count` significant digits of a nonnegative rational, rounded, and the exponent of the
first of them. -/
def significant (count : Nat) (r : Rat) : List Char × Int :=
  if r = 0 then (List.replicate count '0', 0)
  else
    let e := log10 r
    let k := roundedAt r (count - 1 - e)
    -- rounding up may lead to a further digit, which is a zero then
    if Nat.pow 10 count ≤ k then (digitsOf count (k / 10), e + 1) else (digitsOf count k, e)

/-- A point and the digits behind it; a point alone only where it is asked for. -/
def pointed (keepPoint : Bool) (fraction : List Char) : List Char :=
  if fraction.isEmpty && !keepPoint then [] else '.' :: fraction

/-- A nonnegative rational with a number of places. -/
def fixedText (places : Nat) (keepPoint : Bool) (r : Rat) : List Char :=
  let digits := digitsOf (places + 1) (roundedAt r places)
  let whole := digits.length - places
  digits.take whole ++ pointed keepPoint (digits.drop whole)

/-- Digits with an exponent. -/
def withExponent (keepPoint : Bool) (digits : List Char) (e : Int) : List Char :=
  digits.take 1 ++ pointed keepPoint (digits.drop 1) ++ exponentText e

/-- A nonnegative rational with one digit before the point, a number of places and an exponent. -/
def scientificText (places : Nat) (keepPoint : Bool) (r : Rat) : List Char :=
  let (digits, e) := significant (places + 1) r
  withExponent keepPoint digits e

/-- A nonnegative rational with a number of significant digits: positional for exponents from `-4`
up to that number, scientific otherwise.  Zeros at the end are dropped unless they are asked for. -/
def generalText (count : Nat) (keepZeros : Bool) (r : Rat) : List Char :=
  let count := max count 1
  let (digits, e) := significant count r
  let kept := if keepZeros then digits else (dropZeros digits).1
  if -4 ≤ e ∧ e < count then
    if e < 0 then ['0', '.'] ++ List.replicate (-e - 1).toNat '0' ++ kept
    else
      let whole := e.toNat + 1
      digits.take whole ++ pointed keepZeros (kept.drop whole)
  else withExponent keepZeros kept e

end EventLayer.Double
