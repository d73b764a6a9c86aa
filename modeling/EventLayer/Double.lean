/-
**Binary floating-point numbers, exactly.**

The weights, thresholds and draws of a game are binary floating-point numbers of 64 bits.  Here such
a number is kept as the rational that it denotes, next to the values that denote none: the two
infinities, the negative zero and the undefined number.  An operation computes the exact rational
result first and rounds once, to the nearest representable number with ties to even.

Main definitions:

* `Double` — the numbers;
* `Double.ofRat` — rounding;
* `Double.add`, `Double.mul`, `Double.div`, `Double.modulo` — arithmetic, rounded once;
* `Double.compare?` — the order, which says nothing of the undefined number;
* `Double.truncate` — the whole part;
* `Double.toBits` — the 64-bit pattern.

Main results:

* `Double.ofRat_zero` — zero is kept;
* `Double.compare?_nan_left`, `Double.compare?_nan_right` — the undefined number is not comparable.
-/
import EventLayer.Fault

set_option autoImplicit false
set_option relaxedAutoImplicit false

namespace EventLayer

/-- A binary floating-point number of 64 bits. -/
inductive Double where
  /-- The undefined number. -/
  | nan
  /-- An infinity. -/
  | infinite (negative : Bool)
  /-- The zero with a sign. -/
  | negZero
  /-- The number that a rational denotes. -/
  | finite (value : Rat)
deriving Repr, DecidableEq

namespace Double

instance : Inhabited Double := ⟨.finite 0⟩

/-! ### Rounding -/

/-- The quotient rounded to the nearest whole number, a tie to the even one. -/
def roundEven (num den : Nat) : Nat :=
  let q := num / den
  let r := num % den
  if 2 * r < den then q
  else if den < 2 * r then q + 1
  else if q % 2 = 0 then q else q + 1

/-- The power of two with a whole exponent of either sign. -/
def twoPow (e : Int) : Rat :=
  if e < 0 then mkRat 1 (Nat.pow 2 (-e).toNat) else Nat.pow 2 e.toNat

/-- The exponent of the greatest power of two that is at most the positive quotient `num / den`. -/
def log2 (num den : Nat) : Int :=
  let k : Int := (Nat.log2 num : Int) - Nat.log2 den
  let fits : Bool :=
    if k < 0 then den ≤ num * Nat.pow 2 (-k).toNat else den * Nat.pow 2 k.toNat ≤ num
  if fits then k else k - 1

/-- The exponent of the unit in the last place near the positive quotient `num / den`. -/
def unitExponent (num den : Nat) : Int := max (log2 num den) (-1022) - 52

/-- How many units in the last place the positive quotient `num / den` comes to, rounded. -/
def unitCount (num den : Nat) (e : Int) : Nat :=
  if e < 0 then roundEven (num * Nat.pow 2 (-e).toNat) den
  else roundEven num (den * Nat.pow 2 e.toNat)

/-- A zero of either sign. -/
def zero (negative : Bool) : Double := if negative then .negZero else .finite 0

/-- The representable number nearest to a rational, ties to even; a number that is too large becomes
an infinity, one that is too small a zero of its sign. -/
def ofRat (q : Rat) : Double :=
  if q = 0 then .finite 0
  else
    -- the magnitude is rounded alone: ties to even do not depend on the sign
    let negative := decide (q < 0)
    let e := unitExponent q.num.natAbs q.den
    let k := unitCount q.num.natAbs q.den e
    let r : Rat := k * twoPow e
    if Nat.pow 2 1024 ≤ r then .infinite negative
    else if k = 0 then zero negative
    else .finite (if negative then -r else r)

@[simp] theorem ofRat_zero : ofRat 0 = .finite 0 := by simp [ofRat]

/-- The representable number nearest to a whole number. -/
def ofInt (n : Int) : Double := ofRat n

/-! ### Signs and values -/

/-- Whether the sign is set. -/
def isNegative : Double → Bool
  | .nan => false
  | .infinite n => n
  | .negZero => true
  | .finite q => q < 0

/-- The rational that a number denotes. -/
def toRat? : Double → Option Rat
  | .negZero => some 0
  | .finite q => some q
  | _ => none

/-- The number with the opposite sign. -/
def neg : Double → Double
  | .nan => .nan
  | .infinite n => .infinite !n
  | .negZero => .finite 0
  | .finite q => if q = 0 then .negZero else .finite (-q)

instance : Neg Double := ⟨neg⟩

/-! ### Arithmetic -/

/-- The sum, rounded. -/
def add : Double → Double → Double
  | .nan, _ => .nan
  | _, .nan => .nan
  | .infinite a, .infinite b => if a = b then .infinite a else .nan
  | .infinite a, _ => .infinite a
  | _, .infinite b => .infinite b
  | .negZero, y => y
  | x, .negZero => x
  | .finite a, .finite b => ofRat (a + b)

instance : Add Double := ⟨add⟩

instance : Sub Double := ⟨fun a b => add a (neg b)⟩

/-- The product, rounded; an infinity times a zero is undefined. -/
def mul (x y : Double) : Double :=
  let negative := x.isNegative != y.isNegative
  match x, y with
  | .nan, _ => .nan
  | _, .nan => .nan
  | .infinite _, y => if y.toRat? = some 0 then .nan else .infinite negative
  | x, .infinite _ => if x.toRat? = some 0 then .nan else .infinite negative
  | x, y =>
    let p := x.toRat?.getD 0 * y.toRat?.getD 0
    if p = 0 then zero negative else ofRat p

instance : Mul Double := ⟨mul⟩

/-- The quotient by a number other than zero, rounded. -/
def div (x y : Double) : Double :=
  let negative := x.isNegative != y.isNegative
  match x, y with
  | .nan, _ => .nan
  | _, .nan => .nan
  | .infinite _, .infinite _ => .nan
  | .infinite _, _ => .infinite negative
  | _, .infinite _ => zero negative
  | x, y =>
    let p := x.toRat?.getD 0 / y.toRat?.getD 0
    if p = 0 then zero negative else ofRat p

/-- The remainder of the floored quotient by a number other than zero; it has the sign of the
divisor. -/
def modulo (x y : Double) : Double :=
  match x, y with
  | .nan, _ => .nan
  | _, .nan => .nan
  | .infinite _, _ => .nan
  | x, .infinite n =>
    if x.toRat? = some 0 then zero n else if x.isNegative = n then x else .infinite n
  | x, y =>
    let a := x.toRat?.getD 0
    let b := y.toRat?.getD 0
    -- the exact remainder has the sign of the dividend, and is moved to that of the divisor
    let truncated := if a / b < 0 then (a / b).ceil else (a / b).floor
    let r := a - b * truncated
    if r = 0 then zero y.isNegative
    else if (r < 0) = (b < 0) then ofRat r else ofRat (r + b)

/-! ### Order -/

/-- How two numbers compare by value; the undefined number does not compare. -/
def compare? : Double → Double → Option Ordering
  | .nan, _ => none
  | _, .nan => none
  | .infinite a, .infinite b =>
    some (if a = b then .eq else if a then .lt else .gt)
  | .infinite a, _ => some (if a then .lt else .gt)
  | _, .infinite b => some (if b then .gt else .lt)
  | x, y =>
    let a := x.toRat?.getD 0
    let b := y.toRat?.getD 0
    some (if a < b then .lt else if a = b then .eq else .gt)

@[simp] theorem compare?_nan_left (x : Double) : compare? .nan x = none := by
  cases x <;> rfl

@[simp] theorem compare?_nan_right (x : Double) : compare? x .nan = none := by
  cases x <;> rfl

/-- Equality of value. -/
def sameValue (x y : Double) : Bool := compare? x y == some .eq

/-- Whether a number is less than another. -/
def less (x y : Double) : Bool := compare? x y == some .lt

instance : LT Double := ⟨fun x y => less x y = true⟩

instance (x y : Double) : Decidable (x < y) := inferInstanceAs (Decidable (less x y = true))

/-- Whether a number is at most another. -/
def atMost (x y : Double) : Bool := less x y || sameValue x y

/-- Whether a number is neither zero of either sign. -/
def isNonzero (x : Double) : Bool := !sameValue x (.finite 0)

/-! ### Whole part -/

/-- The whole part, toward zero.  The undefined number has none, and that of an infinity is too
large. -/
def truncate : Double → Except Fault Int
  | .nan => .error .notANumber
  | .infinite _ => .error .tooLarge
  | .negZero => .ok 0
  | .finite q => .ok (q.num.tdiv q.den)

/-- A number that is whole, as a whole number. -/
def whole? : Double → Option Int
  | .negZero => some 0
  | .finite q => if q.den = 1 then some q.num else none
  | _ => none

/-- The representable number nearest to a whole number that is not too large for one. -/
def ofIntChecked (n : Int) : Except Fault Double :=
  match ofInt n with
  | .infinite _ => .error .tooLarge
  | x => .ok x

/-- The quotient of two whole numbers, rounded once; it fails where the quotient is too large. -/
def quotient (a b : Int) : Except Fault Double :=
  match ofRat ((a : Rat) / b) with
  | .infinite _ => .error .tooLarge
  | x => .ok x

/-! ### Bits -/

/-- The least count of units in the last place that is written with an exponent of its own. -/
def hiddenBit : Nat := 0x10000000000000

/-- The 64-bit pattern: sign, eleven bits of exponent, fifty-two bits of fraction. -/
def toBits : Double → Nat
  | .nan => 0x7ff8000000000000
  | .infinite n => if n then 0xfff0000000000000 else 0x7ff0000000000000
  | .negZero => 0x8000000000000000
  | .finite q =>
    if q = 0 then 0
    else
      let e := unitExponent q.num.natAbs q.den
      let k := unitCount q.num.natAbs q.den e
      let magnitude := if k < hiddenBit then k else (e + 1074).toNat * hiddenBit + k
      (if q < 0 then 0x8000000000000000 else 0) + magnitude

end Double

end EventLayer
