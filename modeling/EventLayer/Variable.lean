/-
**What variable commands compute.**

A command changes a variable by an operation and an operand, and a conditional branch compares a
variable to a value.  Dividing by zero, or taking the remainder by it, leaves the old value.

Main definitions:

* `VariableOp.apply` — the new value of a variable;
* `Relation.holds` — a comparison of two values;
* `Relation.holdsOn` — the same for floating-point numbers.

Main results:

* `VariableOp.apply_add_int`, `VariableOp.apply_subtract_int`, `VariableOp.apply_multiply_int` —
  whole numbers are exact;
* `VariableOp.apply_divide_zero`, `VariableOp.apply_modulo_zero` — a zero operand changes nothing.
-/
import EventLayer.Command
import EventLayer.Json.Arithmetic

set_option autoImplicit false
set_option relaxedAutoImplicit false

namespace EventLayer

namespace VariableOp

/-- The new value of a variable. -/
def apply (op : VariableOp) (old operand : Json) : Except Fault Json :=
  match op with
  | .set => .ok operand
  | .add => old.plus operand
  | .subtract => old.minus operand
  | .multiply => old.times operand
  | .divide => if operand.truthy then old.dividedBy operand else .ok old
  | .modulo => if operand.truthy then old.modulo operand else .ok old
  | .keep => .ok old

theorem apply_add_int (m n : Int) : apply .add (.int m) (.int n) = .ok (.int (m + n)) := rfl

theorem apply_subtract_int (m n : Int) : apply .subtract (.int m) (.int n) = .ok (.int (m - n)) :=
  rfl

theorem apply_multiply_int (m n : Int) : apply .multiply (.int m) (.int n) = .ok (.int (m * n)) :=
  rfl

theorem apply_divide_zero (old : Json) : apply .divide old (.int 0) = .ok old := rfl

theorem apply_modulo_zero (old : Json) : apply .modulo old (.int 0) = .ok old := rfl

end VariableOp

namespace Relation

/-- Whether an order of two values is one that the relation allows.  What does not compare is
unequal. -/
def allows (r : Relation) (o : Option Ordering) : Bool :=
  match r with
  | .equal => o == some .eq
  | .unequal => o != some .eq
  | .atLeast => o == some .gt || o == some .eq
  | .atMost => o == some .lt || o == some .eq
  | .above => o == some .gt
  | .below => o == some .lt

/-- Whether two values are in the relation.  Any two values can be equal or not; for the rest they
have to compare. -/
def holds (r : Relation) (a b : Json) : Except Fault Bool :=
  match r with
  | .equal => .ok (a.same b)
  | .unequal => .ok !(a.same b)
  | r => return r.allows (← a.order b)

/-- Whether two floating-point numbers are in the relation. -/
def holdsOn (r : Relation) (a b : Double) : Bool := r.allows (a.compare? b)

end Relation

end EventLayer
