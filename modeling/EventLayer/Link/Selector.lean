/-
**Selectors of a link.**

A link names an event or a map by a selector: a blank selects anything, digits select a number, any
other text selects a name.  A link may also be limited to a distance.

Main definitions:

* `Selector` — what is selected;
* `Selector.read` — a selector from the editor's data;
* `readDistance` — a distance limit from the editor's data.

Main results:

* `Selector.read_null`, `Selector.read_int` — blank and numeric selectors.
-/
import EventLayer.Reading

set_option autoImplicit false
set_option relaxedAutoImplicit false

namespace EventLayer

/-- What a selector selects. -/
inductive Selector where
  /-- Anything. -/
  | any
  /-- The bearer of a number. -/
  | number (n : Int)
  /-- The truth value `true`, which selects the number one. -/
  | truth
  /-- The bearers of a name. -/
  | name (s : String)
deriving Repr, DecidableEq

namespace Selector

/-- The selector of a number: numbers start at one. -/
def ofInt (n : Int) : Selector := if 0 < n then .number n else .any

/-- The selector that a text stands for.  A text of digits has to be readable as a number. -/
def ofText (s : String) : Except Fault Selector :=
  let word := Text.trim s
  if word = "" then .ok .any
  else if word.toList.all Text.isDigitLike then
    match Text.readInt? word with
    | some n => .ok (ofInt n)
    | none => .error .notANumber
  else .ok (.name word)

/-- A selector from the editor's data. -/
def read : Json → Except Fault Selector
  | .null => .ok .any
  | .int n => .ok (ofInt n)
  | .bool b => .ok (if b then .truth else .any)
  | v => ofText v.text

@[simp] theorem read_null : read .null = .ok .any := rfl

@[simp] theorem read_int (n : Int) : read (.int n) = .ok (ofInt n) := rfl

/-- The number that a selector selects, if it selects by number. -/
def number? : Selector → Option Int
  | .number n => some n
  | .truth => some 1
  | _ => none

end Selector

/-- A distance limit from the editor's data: none where the value is blank, negative or no number.
-/
def readDistance (raw : Json) : Reading (Option Int) :=
  match raw with
  | .null => return none
  | raw =>
    let word := Text.trim raw.text
    if word = "" then return none
    else
      match raw.decimalPart with
      | .ok n => return if 0 ≤ n then some n else none
      | .error .notANumber => do
        Reading.note (.distanceNotNumeric raw)
        return none
      | .error e => throw e

end EventLayer
