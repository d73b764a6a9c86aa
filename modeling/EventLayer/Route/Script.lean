/-
**Script lines of move routes.**

A script line of a move route is a call of one of eight names, perhaps with `this.` in front and a
semicolon behind.  Any other line belongs to someone else and is left alone.

Main definitions:

* `RouteInstruction` — what a script line of this layer does;
* `ScriptCall` — a call of one of the eight names with the text of its arguments;
* `RouteInstruction.parse` — the instruction that a text writes;
* `RouteInstruction.neverTaken?` — what a branch with a broken condition becomes.
-/
import EventLayer.Route.Condition
import EventLayer.Text.Split

set_option autoImplicit false
set_option relaxedAutoImplicit false

namespace EventLayer

/-- What a script line of a move route does. -/
inductive RouteInstruction where
  | openIf (condition : RouteCondition)
  /-- An alternative of the innermost chain, perhaps under a condition of its own. -/
  | orElse (condition : Option RouteCondition)
  | endIf
  | setSound (name : String) (volume pitch : Int)
  | unsetSound
  | setBalloon (id : Int)
  | unsetBalloon
  | showBalloon (id : Int)
deriving Repr, DecidableEq

/-- The names that a script line of this layer may call. -/
inductive ScriptName where
  | openIf
  | orElse
  | endIf
  | setSound
  | unsetSound
  | setBalloon
  | unsetBalloon
  | showBalloon
deriving Repr, DecidableEq

/-- The names as they are written. -/
def ScriptName.written : List (String × ScriptName) := [
  ("rbIf", .openIf), ("rbElse", .orElse), ("rbEnd", .endIf),
  ("setSe", .setSound), ("unsetSe", .unsetSound),
  ("setBln", .setBalloon), ("unsetBln", .unsetBalloon), ("showBln", .showBalloon)]

/-- How a name is written. -/
def ScriptName.word : ScriptName → String
  | .openIf => "rbIf"
  | .orElse => "rbElse"
  | .endIf => "rbEnd"
  | .setSound => "setSe"
  | .unsetSound => "unsetSe"
  | .setBalloon => "setBln"
  | .unsetBalloon => "unsetBln"
  | .showBalloon => "showBln"

/-- A call in a script line. -/
structure ScriptCall where
  name : ScriptName
  /-- The text between the outermost parentheses, without blanks at its ends. -/
  args : String
deriving Repr, DecidableEq

namespace ScriptCall

open Text

/-- What stands before the closing parenthesis at the end of a text, behind which blanks and a
semicolon may follow. -/
def beforeClosing? (cs : List Char) : Option (List Char) :=
  let core := match cs.reverse with
    | ';' :: rest => trimStartChars rest
    | rest => rest
  match core with
  | ')' :: rest => some rest.reverse
  | _ => none

/-- The call that a text writes, without regard to blanks at its ends. -/
def parse? (text : String) : Option ScriptCall := do
  let cs := trimChars text.toList
  -- the owner of the call may be written in front of it
  let cs := (after? "this.".toList cs).getD cs
  ScriptName.written.findSome? fun w => do
    let rest ← after? w.1.toList cs
    match trimStartChars rest with
    | '(' :: rest =>
      let args ← beforeClosing? rest
      return ⟨w.2, String.ofList (trimChars args)⟩
    | _ => none

/-- The arguments of a call: what stands between the commas, without blanks and without empty
pieces. -/
def arguments (c : ScriptCall) : List String :=
  ((pieces ',' c.args).map trim).filter (· != "")

end ScriptCall

namespace RouteInstruction

/-- A text without the pair of equal quotes around it. -/
def unquote (s : String) : String :=
  match s.toList with
  | q :: rest =>
    if (q = '\'' ∨ q = '"') ∧ rest.getLast? = some q then String.ofList rest.dropLast else s
  | [] => s

/-- An argument as a whole number, or a default where the call has fewer. -/
def intArg (call : ScriptName) (args : List String) (i : Nat) (d : Int) :
    Except ScriptError Int :=
  match args[i]? with
  | none => .ok d
  | some s =>
    match Text.readInt? s with
    | some n => .ok n
    | none => .error (.argumentNotNumber call.word (i + 1) s)

/-- The instruction that a call stands for. -/
def ofCall (c : ScriptCall) : Except Fault RouteInstruction :=
  let args := c.arguments
  let int (i : Nat) (d : Int) : Except Fault Int :=
    (intArg c.name args i d).mapError .invalidScript
  match c.name with
  | .openIf =>
    if c.args = "" then .error (.invalidScript .missingCondition)
    else return .openIf (← RouteCondition.parse (some c.args))
  | .orElse =>
    if c.args = "" then .ok (.orElse none)
    else return .orElse (some (← RouteCondition.parse (some c.args)))
  | .endIf => .ok .endIf
  | .setSound =>
    match args with
    | [] => .error (.invalidScript .missingSoundName)
    | name :: _ => return .setSound (unquote name) (← int 1 90) (← int 2 100)
  | .unsetSound => .ok .unsetSound
  | .setBalloon => return .setBalloon (← int 0 0)
  | .unsetBalloon => .ok .unsetBalloon
  | .showBalloon => return .showBalloon (← int 0 0)

/-- The instruction that a text writes; none where the text is not this layer's. -/
def parse (text : Option String) : Except Fault (Option RouteInstruction) :=
  match ScriptCall.parse? (text.getD "") with
  | none => .ok none
  | some c => return some (← ofCall c)

/-- What a line becomes whose arguments cannot be read: a branch marker still opens or continues its
chain, but its branch is never taken. -/
def neverTaken? (text : String) : Option RouteInstruction :=
  match (ScriptCall.parse? text).map ScriptCall.name with
  | some .openIf => some (.openIf (.const false))
  | some .orElse => some (.orElse (some (.const false)))
  | _ => none

end RouteInstruction

end EventLayer
