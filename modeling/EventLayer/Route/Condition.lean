/-
**Conditions inside move routes.**

A branch of a move route is taken under a condition from a small closed set: a constant, a switch, a
self switch, a comparison of a variable, the player's distance, chance, or the direction faced. 
Each kind has one written form, with blanks allowed around its parts:

    true   false   s[N]   !s[N]   self[A]   !self[A]   v[N] <op> K
    near(N)   far(N)   chance(P)   facing(D)

Main definitions:

* `RouteCondition` — the conditions;
* `RouteCondition.forms` — a reader for each written form;
* `RouteCondition.parse` — the condition that a text writes.
-/
import EventLayer.Command
import EventLayer.Geometry
import EventLayer.Text.Scan

set_option autoImplicit false
set_option relaxedAutoImplicit false

namespace EventLayer

/-- A condition of a move route. -/
inductive RouteCondition where
  | const (value : Bool)
  | switchIs (id : Nat) (expected : Bool)
  | selfSwitchIs (channel : String) (expected : Bool)
  | variableIs (id : Nat) (relation : Relation) (operand : Double)
  | playerWithin (distance : Nat) (inside : Bool)
  | chance (percent : Double)
  | facing (direction : Int)
deriving Repr, DecidableEq

/-- The written forms of the relations, each before any that it begins with. -/
def Relation.signs : List (String × Relation) := [
  ("==", .equal), ("!=", .unequal), (">=", .atLeast), ("<=", .atMost), (">", .above), ("<", .below)]

/-- The written form of a relation. -/
def Relation.sign : Relation → String
  | .equal => "=="
  | .unequal => "!="
  | .atLeast => ">="
  | .atMost => "<="
  | .above => ">"
  | .below => "<"

/-- The names of the directions. -/
def Direction.names : List (String × Int) := [
  ("down", Direction.down), ("left", Direction.left), ("right", Direction.right),
  ("up", Direction.up)]

namespace RouteCondition

open Text

/-- Blanks and a closing character at the end of a text. -/
def closes (closing : Char) (cs : List Char) : Bool := trimStartChars cs == [closing]

/-- An exclamation mark that may stand at the start of a text negates: whether the condition is
expected to hold, and what follows. -/
def polarity (cs : List Char) : Bool × List Char :=
  match cs with
  | '!' :: rest => (false, trimStartChars rest)
  | cs => (true, trimStartChars cs)

/-- A number in brackets that follow a word; it is a fault if it has too many digits. -/
def bracketed? (word : String) (closing : Char) (cs : List Char) : Option (Except Fault Nat) := do
  let rest ← after? word.toList cs
  let (ds, rest) ← digits? (trimStartChars rest)
  if closes closing rest then some (digitsValue ds) else none

/-- One of the words for the constants. -/
def const? (cs : List Char) : Option RouteCondition :=
  let fits (word : String) : Bool := (afterCaseless? word.toList cs).any fun r => r.2.isEmpty
  if fits "true" then some (.const true)
  else if fits "false" then some (.const false)
  else none

/-- A switch, perhaps negated. -/
def switch? (cs : List Char) : Option (Except Fault RouteCondition) :=
  let (expected, rest) := polarity cs
  (bracketed? "s[" ']' rest).map fun found => found.map fun n => .switchIs n expected

/-- A self switch, perhaps negated; its letter may be in quotes. -/
def selfSwitch? (cs : List Char) : Option RouteCondition := do
  let (expected, rest) := polarity cs
  let rest ← after? "self[".toList rest
  match skipOne ['\'', '"'] (trimStartChars rest) with
  | c :: rest =>
    if c.toUpper ∈ ['A', 'B', 'C', 'D'] ∧ closes ']' (skipOne ['\'', '"'] rest) then
      some (.selfSwitchIs c.toUpper.toString expected)
    else none
  | [] => none

/-- A relation sign at the start of a text, and the rest. -/
def relation? (cs : List Char) : Option (Relation × List Char) :=
  Relation.signs.findSome? fun s => (after? s.1.toList cs).map fun rest => (s.2, rest)

/-- A comparison of a variable with a decimal number. -/
def comparison? (cs : List Char) : Option (Except Fault RouteCondition) := do
  let rest ← after? "v[".toList cs
  let (ds, rest) ← digits? (trimStartChars rest)
  let rest ← after? [']'] (trimStartChars rest)
  let (relation, rest) ← relation? (trimStartChars rest)
  let rest := trimStartChars rest
  let (negative, rest) := match rest with
    | '-' :: more => (true, more)
    | rest => (false, rest)
  let (operand, rest) ← plainDecimal? negative rest
  if rest.isEmpty then some ((digitsValue ds).map fun n => .variableIs n relation operand) else none

/-- The player within a distance. -/
def near? (cs : List Char) : Option (Except Fault RouteCondition) :=
  (bracketed? "near(" ')' cs).map fun found => found.map fun n => .playerWithin n true

/-- The player beyond a distance. -/
def far? (cs : List Char) : Option (Except Fault RouteCondition) :=
  (bracketed? "far(" ')' cs).map fun found => found.map fun n => .playerWithin n false

/-- A chance in percent. -/
def chance? (cs : List Char) : Option RouteCondition := do
  let rest ← after? "chance(".toList cs
  let (percent, rest) ← plainDecimal? false (trimStartChars rest)
  if closes ')' rest then some (.chance percent) else none

/-- A direction faced, by its code. -/
def facingCode? (cs : List Char) : Option RouteCondition := do
  let rest ← after? "facing(".toList cs
  match trimStartChars rest with
  | c :: rest =>
    if c ∈ ['2', '4', '6', '8'] ∧ closes ')' rest then some (.facing (c.toNat - 48)) else none
  | [] => none

/-- A direction faced, by its name in any letter case, perhaps in quotes: the name as written. -/
def facingName? (cs : List Char) : Option String := do
  let (_, rest) ← afterCaseless? "facing(".toList cs
  let rest := skipOne ['\'', '"'] (trimStartChars rest)
  Direction.names.findSome? fun name => do
    let (written, rest) ← afterCaseless? name.1.toList rest
    if closes ')' (skipOne ['\'', '"'] rest) then some (String.ofList written) else none

/-- A direction faced, by its name.  A name written with a letter that only counts as one of the
name's letters is in no table. -/
def facingNamed? (cs : List Char) : Option (Except Fault RouteCondition) :=
  (facingName? cs).map fun written =>
    match Direction.names.lookup (lowerAscii written) with
    | some d => .ok (.facing d)
    | none => .error .missingKey

/-- A reader for each written form. -/
def forms : List (List Char → Option (Except Fault RouteCondition)) := [
  fun cs => (const? cs).map .ok, switch?, fun cs => (selfSwitch? cs).map .ok, comparison?,
  near?, far?, fun cs => (chance? cs).map .ok, fun cs => (facingCode? cs).map .ok, facingNamed?]

/-- The condition that a text writes, without regard to blanks at its ends. -/
def parse (text : Option String) : Except Fault RouteCondition :=
  let cs := trimChars (text.getD "").toList
  match forms.findSome? fun form => form cs with
  | some r => r
  | none => .error (.invalidScript (.unrecognizedCondition text))

end RouteCondition

end EventLayer
