/-
**Numbers of either kind.**

The number in a value is a whole one or a floating-point one, and the truth values count as one and
zero.  Whole numbers are exact at any size; as soon as a floating-point number takes part, the other
operand becomes one.  Numbers compare by value across the two kinds.

Main definitions:

* `Json.Number`, `Json.number?` — the number in a value;
* `Json.Number.plus`, `Json.Number.minus` — sums and differences;
* `Json.Number.compare?`, `Json.Number.larger`, `Json.Number.smaller` — order.

Main results:

* `Json.Number.below_int`, `Json.Number.larger_int`, `Json.Number.smaller_int` — among whole numbers
  the order is the usual one.
-/
import EventLayer.Json

set_option autoImplicit false
set_option relaxedAutoImplicit false

namespace EventLayer.Json

/-- A number of either kind. -/
inductive Number where
  | int (n : Int)
  | float (x : Double)
deriving Repr, DecidableEq

/-- The number in a value; the truth values count as one and zero. -/
def number? : Json → Option Number
  | .bool b => some (.int b.toInt)
  | .int n => some (.int n)
  | .float x => some (.float x)
  | _ => none

@[simp] theorem number?_int (n : Int) : number? (.int n) = some (.int n) := rfl

namespace Number

/-- A number as a value. -/
def toJson : Number → Json
  | .int n => .int n
  | .float x => .float x

/-- A number as a floating-point one. -/
def toDouble : Number → Except Fault Double
  | .int n => Double.ofIntChecked n
  | .float x => .ok x

/-- The whole part of a number. -/
def truncate : Number → Except Fault Int
  | .int n => .ok n
  | .float x => x.truncate

/-- An operation on two numbers, given on whole and on floating-point ones. -/
def combine (onInts : Int → Int → Int) (onDoubles : Double → Double → Double) (a b : Number) :
    Except Fault Number :=
  match a, b with
  | .int m, .int n => .ok (.int (onInts m n))
  | a, b => return .float (onDoubles (← a.toDouble) (← b.toDouble))

/-- The sum of two numbers. -/
def plus (a b : Number) : Except Fault Number := a.combine (· + ·) (· + ·) b

/-- The difference of two numbers. -/
def minus (a b : Number) : Except Fault Number := a.combine (· - ·) (· - ·) b

/-- A number with the opposite sign. -/
def negated : Number → Number
  | .int n => .int (-n)
  | .float x => .float (-x)

/-- How two numbers compare by value; the undefined number does not compare. -/
def compare? (a b : Number) : Option Ordering :=
  let exact : Number → Double
    | .int n => .finite n
    | .float x => x
  Double.compare? (exact a) (exact b)

/-- Whether a number is less than another. -/
def below (a b : Number) : Bool := a.compare? b == some .lt

/-- Whether a number is at most another. -/
def atMost (a b : Number) : Bool := a.below b || a.compare? b == some .eq

/-- A number without its sign. -/
def magnitude : Number → Number
  | .int n => .int n.natAbs
  | .float x => .float (if x.isNegative then -x else x)

/-- The first of two numbers, unless the second is greater. -/
def larger (a b : Number) : Number := if a.below b then b else a

/-- The first of two numbers, unless the second is less. -/
def smaller (a b : Number) : Number := if b.below a then b else a

@[simp] theorem plus_int (m n : Int) : plus (.int m) (.int n) = .ok (.int (m + n)) := rfl

@[simp] theorem below_int (m n : Int) : below (.int m) (.int n) = decide (m < n) := by
  have h : ((m : Rat) < n) ↔ m < n := Rat.intCast_lt_intCast
  simp only [below, compare?, Double.compare?, Double.toRat?, Option.getD_some, h]
  by_cases hlt : m < n
  · simp only [hlt, if_true, decide_true, BEq.rfl]
  · by_cases he : (m : Rat) = n <;> simp only [hlt, he, if_true, if_false, decide_false] <;> rfl

theorem larger_int (m n : Int) : larger (.int m) (.int n) = .int (max m n) := by
  simp only [larger, below_int, decide_eq_true_eq]
  split <;> simp <;> omega

theorem smaller_int (m n : Int) : smaller (.int m) (.int n) = .int (min m n) := by
  simp only [smaller, below_int, decide_eq_true_eq]
  split <;> simp <;> omega

end Number

/-- The number in a value; it is a fault to ask another value for one. -/
def number (v : Json) : Except Fault Number :=
  match v.number? with
  | some n => .ok n
  | none => .error .wrongType

/-- Whether a value is a number greater than zero. -/
def isPositive (v : Json) : Bool := (v.number?.map fun n => (Number.int 0).below n).getD false

/-- The whole number in a value. -/
def intIn? (v : Json) : Option Int :=
  match v.number? with
  | some (.int n) => some n
  | _ => none

end EventLayer.Json
