/-
**The shortest decimal text of a number.**

A floating-point number is written with the fewest digits that read back as the same number, and of
several such texts with the one nearest to it.  Numbers from `0.0001` up to `10 ^ 16` are written
positionally and keep a `.0` when they are whole; all others have one digit before the point and a
signed exponent of at least two digits.

Main definitions:

* `Double.shortest` — the digits and the exponent of the last one;
* `Double.text` — the written form.
-/
import EventLayer.Double

set_option autoImplicit false
set_option relaxedAutoImplicit false

namespace EventLayer.Double

/-- The power of ten with a whole exponent of either sign. -/
def tenPow (e : Int) : Rat :=
  if e < 0 then mkRat 1 (Nat.pow 10 (-e).toNat) else Nat.pow 10 e.toNat

/-- The exponent of the greatest power of ten that is at most a positive rational. -/
def log10 (r : Rat) : Int :=
  let k : Int := ((Nat.toDigits 10 r.num.natAbs).length : Int) - (Nat.toDigits 10 r.den).length
  if tenPow k ≤ r then k else k - 1

/-- Of the two neighbours of a positive rational on the grid of the multiples of `10 ^ p`, the
nearest one that rounds to it, as a count of grid steps. -/
def onGrid? (r : Rat) (p : Int) : Option Nat :=
  let c := (r / tenPow p).floor.toNat
  let readsBack (k : Nat) : Bool := ofRat (k * tenPow p) = .finite r
  let below := r - c * tenPow p
  let above := (c + 1 : Nat) * tenPow p - r
  -- of two neighbours that read back the nearer wins, on a tie the even one
  let lowFirst := below < above ∨ (below = above ∧ c % 2 = 0)
  let order := if lowFirst then [c, c + 1] else [c + 1, c]
  order.find? readsBack

/-- The fewest digits that read back as a positive number, as a whole number of units
`10 ^ exponent`. -/
def shortest (r : Rat) : Nat × Int :=
  let e := log10 r
  -- seventeen digits always suffice
  let grids := (List.range 17).map fun n : Nat => e - (n : Int)
  match grids.findSome? fun p => (onGrid? r p).map fun k => (k, p) with
  | some found => found
  | none => ((r / tenPow (e - 16)).floor.toNat, e - 16)

/-- A numeral without the zeros at its end, and how many they were. -/
def dropZeros (digits : List Char) : List Char × Nat :=
  let kept := (digits.reverse.dropWhile (· == '0')).reverse
  (kept, digits.length - kept.length)

/-- A signed exponent of at least two digits. -/
def exponentText (e : Int) : List Char :=
  let scale := Nat.toDigits 10 e.natAbs
  ['e', if e < 0 then '-' else '+'] ++ (if scale.length < 2 then '0' :: scale else scale)

/-- The written form of a positive number. -/
def magnitudeText (r : Rat) : List Char :=
  let (k, p) := shortest r
  let (digits, dropped) := dropZeros (Nat.toDigits 10 k)
  let exponent : Int := p + dropped + digits.length - 1
  if -4 ≤ exponent ∧ exponent < 16 then
    if exponent < 0 then
      ['0', '.'] ++ List.replicate (-exponent - 1).toNat '0' ++ digits
    else
      let whole := exponent.toNat + 1
      let padded := digits ++ List.replicate (whole - digits.length) '0'
      let fraction := padded.drop whole
      padded.take whole ++ ['.'] ++ (if fraction.isEmpty then ['0'] else fraction)
  else
    let fraction := digits.drop 1
    digits.take 1 ++ (if fraction.isEmpty then [] else '.' :: fraction) ++ exponentText exponent

/-- The written form of a number. -/
def text : Double → String
  | .nan => "nan"
  | .infinite n => if n then "-inf" else "inf"
  | .negZero => "-0.0"
  | .finite q =>
    if q = 0 then "0.0"
    else if q < 0 then String.ofList ('-' :: magnitudeText (-q))
    else String.ofList (magnitudeText q)

end EventLayer.Double
