/-
**Treasures and the texts that speak of them.**

Giving loot to the party leaves a treasure behind, which later texts can speak of: `<treasure
name>`, `<treasure icon>` and `<treasure amount>` (or `quantity`) are replaced by the treasure's
name, its icon code and its amount.  The codes are recognised in any letter case, with a space, an
underscore, a hyphen or nothing between the words; names are put in first, then icons, then amounts.

Main definitions:

* `Treasure` — what was given;
* `TextCode.length?` — a code at the start of a text;
* `TextCode.occurs`, `TextCode.substitute` — occurrences of a code, and a text with them replaced;
* `Treasure.convert` — a text that speaks of the latest treasure.

Main results:

* `Treasure.convert_none` — without a treasure a text stays as it is.
-/
import EventLayer.Json
import EventLayer.Text.Scan

set_option autoImplicit false
set_option relaxedAutoImplicit false

namespace EventLayer

/-- What was given to the party last. -/
structure Treasure where
  kind : String
  id : Int := 0
  /-- The name, mostly a text; that of a currency is taken as the game has it. -/
  name : Json
  amount : Int
  success : Bool
  icon : Int := 0
  /-- The database entry of the thing, if there is one. -/
  entry : Option Json := none
deriving Repr

namespace TextCode

open Text

/-- The number of characters of a code with one of the given words at the start of a text. -/
def length? (words : List String) (cs : List Char) : Option Nat := do
  let (_, rest) ← afterCaseless? "<treasure".toList cs
  -- at most one character stands between the words
  let rest := skipOne [' ', '_', '-'] rest
  let (_, rest) ← words.findSome? fun w => afterCaseless? (w ++ ">").toList rest
  return cs.length - rest.length

/-- Whether a code occurs in a text. -/
def occursIn (words : List String) : List Char → Bool
  | [] => false
  | c :: cs => (length? words (c :: cs)).isSome || occursIn words cs

/-- Whether a code occurs in a text. -/
def occurs (words : List String) (s : String) : Bool := occursIn words s.toList

/-- A text with the occurrences of a code replaced; the first `skip` characters belong to an
occurrence already replaced. -/
def substituteFrom (words : List String) (replacement : List Char) : Nat → List Char → List Char
  | _, [] => []
  | skip + 1, _ :: cs => substituteFrom words replacement skip cs
  | 0, c :: cs =>
    match length? words (c :: cs) with
    | some n => replacement ++ substituteFrom words replacement (n - 1) cs
    | none => c :: substituteFrom words replacement 0 cs

/-- A text with the occurrences of a code replaced, from left to right. -/
def substitute (words : List String) (replacement : String) (s : String) : String :=
  String.ofList (substituteFrom words replacement.toList 0 s.toList)

end TextCode

namespace Treasure

/-- The code that shows a treasure's icon; empty for a treasure without one. -/
def iconCode (t : Treasure) : String :=
  if t.icon = 0 then "" else "\\I[" ++ toString t.icon ++ "]"

/-- A text with the name of a treasure put in.  A null name leaves nothing in its place; any other
name that is no text cannot be put in. -/
def putName (t : Treasure) (text : String) : Except Fault String :=
  let codes := ["name"]
  match t.name with
  | .str name => .ok (TextCode.substitute codes name text)
  | .null => .ok (TextCode.substitute codes "" text)
  | _ => if TextCode.occurs codes text then .error .wrongType else .ok text

/-- A text that speaks of the latest treasure, with its codes replaced. -/
def convert (treasure : Option Treasure) (text : String) : Except Fault String :=
  match treasure with
  | none => .ok text
  | some t => do
    return TextCode.substitute ["amount", "quantity"] (toString t.amount)
      (TextCode.substitute ["icon"] t.iconCode (← t.putName text))

@[simp] theorem convert_none (text : String) : convert none text = .ok text := rfl

end Treasure

end EventLayer
