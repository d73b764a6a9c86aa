/-
**Arithmetic on values.**

Variables hold values, and commands add, multiply and compare them.  Numbers are added as numbers of
either kind are.  Texts and lists can be joined and repeated, and the remainder of a text is the
text as a template, filled in with the other operand.  Any other combination is a fault.

Main definitions:

* `Json.plus`, `Json.minus`, `Json.times`, `Json.dividedBy`, `Json.modulo` — arithmetic;
* `Json.order` — how two values compare.

Main results:

* `Json.plus_int`, `Json.minus_int`, `Json.times_int`, `Json.modulo_int` — whole numbers are exact;
* `Json.length_of_repeatElements` — how many elements there are after repeating some.
-/
import EventLayer.Json.Template

set_option autoImplicit false
set_option relaxedAutoImplicit false

namespace EventLayer.Json

/-- The sum of two values. -/
def plus (a b : Json) : Except Fault Json :=
  match a.number?, b.number? with
  | some m, some n => return (← m.plus n).toJson
  | _, _ =>
    match a, b with
    | .str s, .str t => .ok (.str (s ++ t))
    | .arr xs, .arr ys => .ok (.arr (xs ++ ys))
    | _, _ => .error .wrongType

/-- The difference of two values. -/
def minus (a b : Json) : Except Fault Json :=
  match a.number?, b.number? with
  | some m, some n => return (← m.minus n).toJson
  | _, _ => .error .wrongType

/-- A value with the opposite sign. -/
def negated (a : Json) : Except Fault Json :=
  match a.number? with
  | some n => .ok n.negated.toJson
  | none => .error .wrongType

/-- The greatest number of elements that a text or list can have, and the greatest number of times
that it can be repeated. -/
def maxLength : Nat := 0x7fffffffffffffff

/-- Some elements repeated; a count below zero counts as zero. -/
def repeatElements {α : Type} (l : List α) (n : Int) : Except Fault (List α) :=
  if maxLength < n ∨ n < -maxLength - 1 ∨ maxLength < l.length * n.toNat then .error .tooLarge
  -- however often nothing is repeated, it stays nothing
  else if l.isEmpty then .ok []
  else .ok (List.replicate n.toNat l).flatten

/-- A text or list repeated. -/
def repeated (v : Json) (n : Int) : Except Fault Json :=
  match v with
  | .str s => return .str (String.ofList (← repeatElements s.toList n))
  | .arr xs => return .arr (← repeatElements xs n)
  | _ => .error .wrongType

theorem length_of_repeatElements {α : Type} {l r : List α} {n : Int}
    (h : repeatElements l n = .ok r) : r.length = l.length * n.toNat := by
  unfold repeatElements at h
  split at h
  · simp at h
  · split at h
    · next hl =>
      have hl : l = [] := by simpa using hl
      have hr : r = [] := by simpa using h.symm
      simp [hl, hr]
    · have hr : (List.replicate n.toNat l).flatten = r := by simpa using h
      simp [← hr, Nat.mul_comm]

/-- The product of two values. -/
def times (a b : Json) : Except Fault Json :=
  match a.number?, b.number? with
  | some m, some n => return (← m.combine (· * ·) (· * ·) n).toJson
  | _, _ =>
    match intIn? a, intIn? b with
    | _, some n => a.repeated n
    | some n, _ => b.repeated n
    | _, _ => .error .wrongType

/-- The quotient of two values, rounded once and cut off to a whole number; the divisor is not a
zero. -/
def dividedBy (a b : Json) : Except Fault Json :=
  match a.number?, b.number? with
  | some (.int m), some (.int n) => return .int (← (← Double.quotient m n).truncate)
  | some m, some n => return .int (← (Double.div (← m.toDouble) (← n.toDouble)).truncate)
  | _, _ => .error .wrongType

/-- The remainder of the floored quotient, whose divisor is not a zero; or a text as a template,
filled in. -/
def modulo (a b : Json) : Except Fault Json :=
  match a with
  | .str s => return .str (← Template.fill s b)
  | a =>
    match a.number?, b.number? with
    | some m, some n => return (← m.combine Int.fmod Double.modulo n).toJson
    | _, _ => .error .wrongType

@[simp] theorem plus_int (m n : Int) : plus (.int m) (.int n) = .ok (.int (m + n)) := rfl

@[simp] theorem minus_int (m n : Int) : minus (.int m) (.int n) = .ok (.int (m - n)) := rfl

@[simp] theorem times_int (m n : Int) : times (.int m) (.int n) = .ok (.int (m * n)) := rfl

@[simp] theorem modulo_int (m n : Int) : modulo (.int m) (.int n) = .ok (.int (m.fmod n)) := rfl

/-! ### Order -/

mutual

/-- How two values compare: numbers by value, texts by their characters, lists at the first
difference.  The undefined number compares to none. -/
def order : Json → Json → Except Fault (Option Ordering)
  | .str s, .str t => .ok (some (if s < t then .lt else if s = t then .eq else .gt))
  | .arr xs, .arr ys => orderItems xs ys
  | a, b =>
    match a.number?, b.number? with
    | some m, some n => .ok (m.compare? n)
    | _, _ => .error .wrongType

/-- How two lists compare. -/
def orderItems : List Json → List Json → Except Fault (Option Ordering)
  | [], [] => .ok (some .eq)
  | [], _ :: _ => .ok (some .lt)
  | _ :: _, [] => .ok (some .gt)
  | x :: xs, y :: ys => if same x y then orderItems xs ys else order x y

end

end EventLayer.Json
