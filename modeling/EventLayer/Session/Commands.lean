/-
**Carrying out commands.**

A command is carried out by the command list that it stands in: it changes the session and says at
which position its list goes on.  Most commands go on at the next position; a text takes its lines
with it, a branch that is not taken is passed over up to the next command of its own indentation,
and a weight command jumps to the next branch of its set.

Main definitions:

* `passOver` — the commands that belong to a branch;
* `BranchCondition.holds` — the test of a conditional branch;
* `Play.carryOutCall` — a call of this layer;
* `Play.carryOut` — any command.

Main results:

* `passOver_le_length` — passing over a branch stays within the list.
-/
import EventLayer.CommandRegistry
import EventLayer.Session.Linking
import EventLayer.Session.Loot
import EventLayer.Session.Walking

set_option autoImplicit false
set_option relaxedAutoImplicit false

namespace EventLayer

/-! ### Passing over commands -/

/-- How many commands at the head of a list are indented further than a branch. -/
def passOver (indent : Int) : List EventCommand → Except Fault Nat
  | [] => .ok 0
  | c :: rest => do
    if indent < (← c.indent?) then return (← passOver indent rest) + 1 else return 0

theorem passOver_le_length {indent : Int} {l : List EventCommand} {n : Nat}
    (h : passOver indent l = .ok n) : n ≤ l.length := by
  induction l generalizing n with
  | nil => simp [passOver] at h; omega
  | cons c rest ih =>
    simp only [passOver, bind, Except.bind] at h
    split at h
    · simp at h
    · split at h
      · split at h
        · simp at h
        · rename_i m hm
          have := ih hm
          simp only [pure, Except.pure, Except.ok.injEq] at h
          simp only [List.length_cons]
          omega
      · simp only [pure, Except.pure, Except.ok.injEq] at h
        omega

/-- The lines of text at the head of a list, up to the first other command. -/
def textLines : List EventCommand → Except Fault (List String)
  | [] => .ok []
  | c :: rest =>
    match c.instruction with
    | .textLine text => do
      let line ← text
      return line :: (← textLines rest)
    | .blank | .faulty .notAnObject => .error .notAnObject
    | _ => .ok []

namespace Play

open Session

/-! ### Conditional branches -/

/-- The value of an operand. -/
def operand : Operand → Play Json
  | .constant v => pure v
  | .variable slot => return (← get).variableValue slot

/-- Whether the test of a conditional branch holds for the command list at a depth. -/
def test (d : Nat) (c : BranchCondition) : Play Bool := do
  let s ← get
  match c with
  | .switch slot on => return s.switchValue slot == on
  | .variable slot relation value =>
    let v := s.variableValue slot
    relation.holds v (← operand value)
  | .selfSwitch channel on =>
    let scope := s.resolve d
    if scope.entity ≤ 0 then return false
    return s.stores.selfSwitches.isOn (← (scope.key channel).checked) == on
  | .gold relation bound => relation.holds s.stores.party.gold.toJson bound
  | .holds kind id =>
    match s.game.database.item? kind id with
    | some entry => return (Json.Number.int 0).below (← s.stores.party.countOf entry)
    | none => return false
  | .unsupported => return false
  | .faulty e => throw e

/-! ### Switches, variables, things -/

/-- The whole numbers from one bound to another. -/
def numbers (first last : Int) : List Int :=
  (List.range (last - first + 1).toNat).map fun (i : Nat) => first + i

/-- Change the variables of several numbers. -/
def changeEach (op : VariableOp) (value : Json) : List Int → Play Unit
  | [] => pure ()
  | id :: rest => do
    -- each variable is read after the ones before it were written
    let old := ((← get).variableValue (some id)).orElse (.int 0)
    let new ← op.apply old value
    modify (setVariable id new)
    changeEach op value rest

/-- A number between two bounds: the lower one and the remainder of a draw. -/
def drawBetween (low high : Json) : Play Json := do
  let span ← (← (← high.minus low).plus (.int 1)).number
  if span.atMost (.int 0) then throw .notANumber
  let s ← get
  let (n, draws) := s.draws.whole
  set { s with draws }
  low.plus (← (Json.int n).modulo span.toJson)

/-- The draw is looked at first, and then taken off in a write. -/
theorem drawBetween_eq_modify (low high : Json) : drawBetween low high = (do
    let span ← (← (← high.minus low).plus (.int 1)).number
    if span.atMost (.int 0) then throw .notANumber
    let s ← get
    modify fun s => { s with draws := s.draws.whole.2 }
    low.plus (← (Json.int s.draws.whole.1).modulo span.toJson)) := rfl

/-- The value that a variable command works with. -/
def sourceValue : VariableSource → Play Json
  | .operand o => operand o
  | .random low high => drawBetween low high

/-- An amount, turned round where it is lost. -/
def signed (lose : Bool) (amount : Json) : Except Fault Json :=
  if lose then amount.negated else .ok amount

/-- Give or take things of a kind. -/
def changeItems (kind : ItemKind) (id : Json) (lose : Bool) (amount : Operand) : Play Unit := do
  gainItem kind id (← signed lose (← operand amount))

/-! ### Events and routes -/

/-- Erase the event that a command list acts for. -/
def eraseAddressed (d : Nat) : Play Unit := do
  let s ← get
  let f := s.frame d
  if f.link.isSet then
    if !s.isLocal f.link then
      note (.eraseElsewhere f.link.event f.link.map)
      return
    eraseEvent f.link.event
    unlink d
  else if 0 < f.event ∧ f.map = s.map.id then
    eraseEvent f.event

/-- Make a character go through a route, and wait for its end where the route says so. -/
def forceNamed (d : Nat) (target : Int) (route : Json) : Play Unit := do
  match (← get).characterNamed d target, route with
  | some who, .obj fields =>
    let route ← Route.ofFields fields
    onCharacter who (·.forceRoute (some route))
    if route.awaited then
      modify (updateFrame d fun f => { f with awaited := some who })
  | _, _ => pure ()

/-! ### Random branches -/

/-- A branch of a set, drawn by the weights; the first where none has a positive one. -/
def drawBranch (set : BranchSet) : Play Nat := do
  let first := set.branches.headD 0
  if set.total.atMost (.finite 0) then
    note (.noPositiveWeight set.depth)
    return first
  let s ← get
  let (x, draws) := s.draws.fraction
  modify fun s => { s with draws }
  return (set.select? (x * set.total)).getD first

theorem drawBranch_eq_modify (set : BranchSet) : drawBranch set = (do
    if set.total.atMost (.finite 0) then
      note (.noPositiveWeight set.depth)
      return set.branches.headD 0
    let s ← get
    modify fun s => { s with draws := s.draws.fraction.2 }
    return (set.select? (s.draws.fraction.1 * set.total)).getD (set.branches.headD 0)) := rfl

/-- The set that a marker belongs to. -/
def setOf? (t : WeightTable) (m : Marker) : Option BranchSet := m.set.bind fun i => t.sets[i]?

/-- A weight command: where to go on when its branch is not the one chosen. -/
def weigh (d : Nat) : Play (Option Nat) := do
  let f := (← get).frame d
  match f.table.marker? f.index with
  | none =>
    note (.strayWeight f.index)
    return none
  | some m =>
    match setOf? f.table m with
    | none =>
      note (.strayWeight f.index)
      return none
    | some set =>
      -- a choice made for another set at this indentation does not count
      let kept := (f.selections.get? f.indent).filter set.branches.contains
      let chosen ← match kept with
        | some chosen => pure chosen
        | none => do
          let chosen ← drawBranch set
          modify (updateFrame d fun f =>
            { f with selections := f.selections.insert f.indent chosen })
          pure chosen
      return if (chosen : Int) = f.index then none else some m.nextStop

/-- Forget the choices made at an indentation and beyond. -/
def forgetFrom (indent : Int) (m : OrderedMap Int Nat) : OrderedMap Int Nat :=
  ⟨m.entries.filter fun e => e.1 < indent⟩

/-- The end of a set of branches. -/
def endWeights (d : Nat) : Play Unit := do
  let f := (← get).frame d
  if f.selections.keys.any fun i => f.indent ≤ i then
    modify (updateFrame d fun f => { f with selections := forgetFrom f.indent f.selections })
  else
    note (.strayEnd f.indent)

/-! ### Calls of this layer -/

/-- The query that the arguments of a call make. -/
def queryOf (args : OrderedMap String Json) : LinkQuery where
  event := PluginCall.argD args ["event", "event_id"] (.str "")
  map := PluginCall.argD args ["map", "map_id"] (.str "")
  note := PluginCall.argD args ["note"] (.str "")
  location := (PluginCall.argD args ["location"] .null).orElse .null
  distance := PluginCall.argD args ["max_distance", "maxDistance"] .null

/-- The location that the arguments of a call give for a new origin; where it cannot be read, a
notice is left. -/
def originGiven (args : OrderedMap String Json) : Reading (Option Location) := do
  let given := (PluginCall.argD args ["location"] .null).orElse (.obj args.entries)
  let found ← Location.read given
  if found.isNone then Reading.note .originUnusable
  return found

/-- Record a new origin at the location that the arguments of a call give. -/
def setNewOrigin (d : Nat) (args : OrderedMap String Json) : Play Unit := do
  if let some spec ← originGiven args then setOrigin d spec

/-- Set the behaviour of move routes; an unknown one leaves it as it is. -/
def setBehavior (args : OrderedMap String Json) : Play Unit := do
  let raw := PluginCall.argD args ["behavior", "move_route_behavior"] (.str "normal")
  let word := Text.lowerAscii (Text.trim raw.text)
  match RouteBehavior.known? word with
  | some b => modify fun s => { s with stores.behavior := b }
  | none => note (.behaviorKept word)

/-- The amount that the arguments of a call give. -/
def amountOf (args : OrderedMap String Json) (d : Json) : Json :=
  PluginCall.argD args ["amount", "quantity"] d

/-- Give the treasure with the name that the arguments of a call give; a name that nothing carries
leaves a notice. -/
def giveNamedOrNote (args : OrderedMap String Json) : Play Unit := do
  let name := Text.trim (PluginCall.argD args ["name"] (.str "")).text
  try
    discard (giveNamed (some name) (amountOf args (.int 1)))
  catch e =>
    match e with
    | .noSuchItem _ => note (.treasureNameUnknown name)
    | e => throw e

/-- Carry out a command of this layer for the command list at a depth: where to jump to, if it
jumps. -/
def carryOutOwn (d : Nat) (c : LayerCommand) (args : OrderedMap String Json) :
    Play (Option Nat) := do
  match c with
  | .triggerMarker => pure ()
  | .treasure kind =>
    let id := PluginCall.argD args ["id", "item_id"] (.str "")
    discard (giveItem kind id (amountOf args (.int 1)))
  | .treasureGold => discard (giveGold (amountOf args (.int 0)))
  | .treasureByName => giveNamedOrNote args
  | .linkEvent => discard (link d (queryOf args))
  | .unlinkEvent => unlink d
  | .weight => return ← weigh d
  | .endWeights => endWeights d
  | .setNewOrigin => setNewOrigin d args
  | .routeBehavior => setBehavior args
  return none

/-- Answer a call of a plugin; a command that nobody registered does nothing. -/
def carryOutCall (d : Nat) (call : PluginCall) : Play (Option Nat) :=
  match LayerCommand.registry.lookup? call with
  | some c => carryOutOwn d c call.args
  | none => pure none

/-- Answer a call that does not stand in the list itself: after a jump the list stands right before
the place that the call jumps to. -/
def dispatch (d : Nat) (params : Json) : Play Unit := do
  let call ← PluginCall.ofParams params
  if let some stop ← carryOutCall d call then
    modify (updateFrame d fun f => { f with index := (stop : Int) - 1 })

/-! ### Commands -/

/-- Carry out an instruction that is followed by the next command. -/
def carryOutPlain (d : Nat) (i : Instruction) : Play Unit := do
  match i with
  | .callCommon id => callCommon d id
  | .setSwitches first last on =>
    modify fun s => (numbers first last).foldl (fun s id => s.setSwitch id on) s
    modify requestRefresh
  | .changeVariables first last op source =>
    let value ← sourceValue source
    changeEach op value (numbers (← rangeBound first) (← rangeBound last))
    modify requestRefresh
  | .setSelfSwitch given =>
    let s ← get
    let scope := s.resolve d
    if 0 < scope.entity then
      let (channel, on) ← given
      let key ← (scope.key channel).checked
      modify (Session.setSelfSwitch key on)
      modify requestRefresh
  | .changeGold lose amount =>
    gainGold (← (← signed lose (← operand amount)).number)
  | .changeItems kind id lose amount => changeItems kind id lose amount
  | .forceRoute target route => forceNamed d target route
  | .eraseEvent => eraseAddressed d
  | .wait frames => modify (updateFrame d fun f => { f with waitCount := frames })
  | .playSound v =>
    if v.isObject then playSound v
  | .faulty e => throw e
  | _ => pure ()

/-- Carry out an instruction for the command list at a depth: the position at which the list goes
on. -/
def carryOut (d : Nat) (i : Instruction) : Play Int := do
  let f := (← get).frame d
  let rest := f.following
  match i with
  | .showText =>
    -- the lines belong to the text and are passed over with it
    let lines ← textLines rest
    showText ("\n".intercalate lines)
    return f.index + 1 + lines.length
  | .branch c =>
    let holds ← test d c
    modify (updateFrame d fun f => { f with outcomes := f.outcomes.insert f.indent holds })
    if holds then return f.index + 1
    return f.index + 1 + (← passOver f.indent rest)
  | .otherwise =>
    -- an alternative without a branch before it is passed over
    if f.outcomes.get? f.indent = some false then return f.index + 1
    return f.index + 1 + (← passOver f.indent rest)
  | .exitEvent => return f.list.length
  | .plugin call =>
    match ← carryOutCall d call with
    | some stop => return stop
    | none => return f.index + 1
  | i =>
    carryOutPlain d i
    return f.index + 1

end Play

end EventLayer
