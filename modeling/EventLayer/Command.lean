/-
**Event commands.**

An event is a list of commands, each with an indentation, a code and parameters.  This module reads
a command of the editor into the instruction that it stands for.  A parameter that is missing has
its default.  A command whose parameters have the wrong shape is read as well: its fault arises when
the command is carried out, since an author may keep such a command where it is never reached.

Main definitions:

* `Operand`, `Relation`, `BranchCondition` — the parts of commands;
* `Instruction` — what a command does;
* `EventCommand` — an instruction with its indentation and its part in random branches;
* `EventCommand.read`, `EventCommand.readList` — commands from the editor's data.
-/
import EventLayer.Weight

set_option autoImplicit false
set_option relaxedAutoImplicit false

namespace EventLayer

/-- The kinds of things that a party can hold. -/
inductive ItemKind where
  | item
  | weapon
  | armor
deriving Repr, DecidableEq

/-- The word for a kind of thing. -/
def ItemKind.word : ItemKind → String
  | .item => "item"
  | .weapon => "weapon"
  | .armor => "armor"

/-- The number of a switch or variable; a value that is no whole number names none, and what is read
there is blank. -/
abbrev SlotRef := Option Int

/-- The slot that a value names; a list or object can name none. -/
def SlotRef.ofJson (v : Json) : Except Fault SlotRef := return (← v.asKey).whole?

/-- A value that a command works with: written in the command, or held by a variable. -/
inductive Operand where
  | constant (value : Json)
  | variable (slot : SlotRef)

/-- How two values are compared. -/
inductive Relation where
  | equal
  | atLeast
  | atMost
  | above
  | below
  | unequal
deriving Repr, DecidableEq

/-- The relation with a given code. -/
def Relation.ofCode (code : Json) : Relation :=
  match code.whole? with
  | some 0 => .equal
  | some 1 => .atLeast
  | some 2 => .atMost
  | some 3 => .above
  | some 4 => .below
  | _ => .unequal

/-- What a conditional branch tests. -/
inductive BranchCondition where
  /-- A switch is on or off. -/
  | switch (slot : SlotRef) (on : Bool)
  /-- A variable compares to a value. -/
  | variable (slot : SlotRef) (relation : Relation) (operand : Operand)
  /-- A self switch of the addressed event is on or off. -/
  | selfSwitch (channel : Json) (on : Bool)
  /-- The party's gold compares to a value. -/
  | gold (relation : Relation) (bound : Json)
  /-- The party holds a thing. -/
  | holds (kind : ItemKind) (id : Json)
  /-- A test of another kind, which never holds. -/
  | unsupported
  /-- A test whose parameters have the wrong shape. -/
  | faulty (reason : Fault)

/-- What a variable command does with the old value and its operand. -/
inductive VariableOp where
  | set
  | add
  | subtract
  | multiply
  | divide
  | modulo
  | keep
deriving Repr, DecidableEq

/-- The operation with a given code. -/
def VariableOp.ofCode (code : Json) : VariableOp :=
  match code.whole? with
  | some 0 => .set
  | some 1 => .add
  | some 2 => .subtract
  | some 3 => .multiply
  | some 4 => .divide
  | some 5 => .modulo
  | _ => .keep

/-- Where a variable command takes its operand from. -/
inductive VariableSource where
  | operand (operand : Operand)
  /-- A number drawn between two bounds. -/
  | random (low high : Json)

/-- What a command does. -/
inductive Instruction where
  | showText
  /-- A line of a text; it does nothing by itself. -/
  | textLine (text : Except Fault String)
  | branch (condition : BranchCondition)
  | otherwise
  | exitEvent
  | callCommon (id : Json)
  | setSwitches (first last : Int) (on : Bool)
  /-- The bounds are looked at only after the value has been found. -/
  | changeVariables (first last : Json) (op : VariableOp) (source : VariableSource)
  /-- The channel and its new state are looked at only where there is an event to set it for. -/
  | setSelfSwitch (given : Except Fault (Json × Bool))
  | changeGold (lose : Bool) (amount : Operand)
  | changeItems (kind : ItemKind) (id : Json) (lose : Bool) (amount : Operand)
  | forceRoute (target : Int) (route : Json)
  | eraseEvent
  | wait (frames : Int)
  | playSound (sound : Json)
  | plugin (call : PluginCall)
  /-- A command that does nothing. -/
  | idle
  /-- Null in place of a command: a list ends there. -/
  | blank
  /-- A command whose parameters have the wrong shape. -/
  | faulty (reason : Fault)

/-- The part that a command has in random branches. -/
inductive WeightMark where
  | weight (value : Double)
  | close
  | plain
deriving Repr, DecidableEq

/-- A command of an event. -/
structure EventCommand where
  indent : Int := 0
  instruction : Instruction
  mark : WeightMark := .plain

/-! ### Reading parameters -/

/-- A parameter, or its default where the command has fewer. -/
def param (params : Json) (i : Nat) (d : Json := .int 0) : Except Fault Json := params.itemD i d

/-- A whole number that bounds a range; other numbers cannot. -/
def rangeBound : Json → Except Fault Int
  | .int n => .ok n
  | .bool b => .ok b.toInt
  | _ => .error .wrongType

/-- The operand of a given type: `0` for a value written in the command. -/
def Operand.read (type value : Json) : Except Fault Operand :=
  if type.isInt 0 then .ok (.constant value) else return .variable (← SlotRef.ofJson value)

/-- The test with given parameters. -/
def BranchCondition.read (params : Json) : Except Fault BranchCondition := do
  let kind ← (← param params 0).asKey
  match kind.whole? with
  | some 0 =>
    return .switch (← SlotRef.ofJson (← param params 1)) ((← param params 2).isInt 0)
  | some 1 =>
    let slot ← SlotRef.ofJson (← param params 1)
    let operand ← Operand.read (← param params 2) (← param params 3)
    return .variable slot (Relation.ofCode (← param params 4)) operand
  | some 2 => return .selfSwitch (← param params 1 (.str "A")) ((← param params 2).isInt 0)
  | some 7 =>
    let relation : Relation := match (← param params 2).whole? with
      | some 0 => .atLeast
      | some 1 => .atMost
      | _ => .below
    return .gold relation (← param params 1)
  | some 8 => return .holds .item (← param params 1)
  | some 9 => return .holds .weapon (← param params 1)
  | some 10 => return .holds .armor (← param params 1)
  | _ => return .unsupported

/-- The test with given parameters, its fault put off until it is made. -/
def BranchCondition.ofParams (params : Json) : BranchCondition :=
  match BranchCondition.read params with
  | .ok c => c
  | .error e => .faulty e

namespace Instruction

/-- A command that changes variables. -/
def readVariables (params : Json) : Except Fault Instruction := do
  let first ← param params 0
  let last ← param params 1
  let op ← param params 2
  let type ← param params 3
  let change := Instruction.changeVariables first last (VariableOp.ofCode op)
  match type.whole? with
  | some 0 => return change (.operand (.constant (← param params 4)))
  | some 1 => return change (.operand (.variable (← SlotRef.ofJson (← param params 4))))
  | some 2 => return change (.random (← param params 4) (← param params 5))
  | _ => return .idle

/-- A command that gives or takes things of a kind. -/
def readItems (kind : ItemKind) (params : Json) : Except Fault Instruction := do
  let amount ← Operand.read (← param params 2) (← param params 3)
  return .changeItems kind (← param params 0) (← param params 1).truthy amount

/-- A self switch and its new state. -/
def readSelfSwitch (params : Json) : Except Fault (Json × Bool) :=
  return (← param params 0 (.str "A"), (← param params 1).isInt 0)

/-- The instruction with a given code and parameters. -/
def read (code : Option Int) (params : Json) : Except Fault Instruction := do
  match code with
  | some 101 => return .showText
  | some 401 => return .textLine ((param params 0 (.str "")).map Json.text)
  | some 111 => return .branch (BranchCondition.ofParams params)
  | some 411 => return .otherwise
  | some 115 => return .exitEvent
  | some 117 => return .callCommon (← param params 0)
  | some 121 =>
    let first ← rangeBound (← param params 0)
    let last ← rangeBound (← param params 1)
    return .setSwitches first last ((← param params 2).isInt 0)
  | some 122 => readVariables params
  | some 123 => return .setSelfSwitch (readSelfSwitch params)
  | some 125 =>
    let amount ← Operand.read (← param params 1) (← param params 2)
    return .changeGold (← param params 0).truthy amount
  | some 126 => readItems .item params
  | some 127 => readItems .weapon params
  | some 128 => readItems .armor params
  | some 205 => return .forceRoute (← (← param params 0).toInt) (← param params 1 .null)
  | some 214 => return .eraseEvent
  | some 230 => return .wait (← (← param params 0).toInt)
  | some 250 => return .playSound (← param params 0 .null)
  | some 357 => return .plugin (← PluginCall.ofParams params)
  | _ => return .idle

/-- The instruction that the fields of a command describe, its fault put off until it is carried
out. -/
def ofFields (fields : List (String × Json)) : Instruction :=
  let code := ((OrderedMap.find "code" fields).getD (.int 0)).asKey
  match code.bind fun c => read c.whole? (PluginCall.paramsOf fields) with
  | .ok i => i
  | .error e => .faulty e

theorem ofFields_of_ok {fields : List (String × Json)} {i : Instruction}
    (h : (((OrderedMap.find "code" fields).getD (.int 0)).asKey.bind fun c =>
      read c.whole? (PluginCall.paramsOf fields)) = .ok i) : ofFields fields = i := by
  rw [ofFields, h]

end Instruction

/-! ### Reading commands -/

/-- The command that gives a branch its weight. -/
def weightCommand : String := "weight"

/-- The command that closes a set of branches. -/
def endCommand : String := "end_weight_branches"

namespace WeightMark

/-- The part in random branches of a command that makes a call of this layer. -/
def read (call : Option PluginCall) : Reading WeightMark :=
  match call with
  | some call =>
    if call.command = weightCommand then return .weight (← Weight.read (.obj call.args.entries))
    else if call.command = endCommand then return .close
    else return .plain
  | none => return .plain

end WeightMark

namespace EventCommand

/-- A command from the editor's data.  Its indentation has to be a number; what is no command at all
is read as one that fails when it is reached. -/
def read (command : Json) : Reading EventCommand :=
  match command with
  | .obj fields => do
    let indent ← ((OrderedMap.find "indent" fields).getD (.int 0)).toInt
    let mark ← WeightMark.read (← PluginCall.ofCommand? layerName command)
    return { indent, instruction := Instruction.ofFields fields, mark }
  | .null => return { instruction := .blank }
  | _ => return { instruction := .faulty .notAnObject }

/-- The indentation of a command; what is no command has none. -/
def indent? (c : EventCommand) : Except Fault Int :=
  match c.instruction with
  | .blank | .faulty .notAnObject => .error .notAnObject
  | _ => .ok c.indent

/-- The commands of a list, in order. -/
def readItems : List Json → Reading (List EventCommand)
  | [] => return []
  | c :: rest => do
    let c ← read c
    return c :: (← readItems rest)

/-- The commands of a list from the editor's data; a blank value is an empty list. -/
def readList (list : Json) : Reading (List EventCommand) := do
  readItems (← (list.orElse (.arr [])).elements)

end EventCommand

end EventLayer
