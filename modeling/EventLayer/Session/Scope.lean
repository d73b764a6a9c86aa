/-
**Who is addressed.**

Commands speak of characters and of switches and variables that may belong to an entity.  Which
entity that is follows from the innermost scope pushed by hand, or else from the command list that
is carrying out a command: the event that it is linked to, as long as that event exists, or its own.

Main definitions:

* `Session.character?`, `Session.updateCharacter` — characters;
* `Session.linkHolds`, `Session.resolve` — the entity that a command list acts for;
* `Session.currentScope` — the entity for which switches and variables are read;
* `Stores.switchFor`, `Stores.variableFor`, `Session.setSwitch`, `Session.setVariable` — switches
  and variables.

Main results:

* `Session.resolve_of_not_isSet` — without a link a command list acts for its own event;
* `Session.currentScope_cons` — a scope pushed by hand comes first.
-/
import EventLayer.Session.State

set_option autoImplicit false
set_option relaxedAutoImplicit false

namespace EventLayer

/-! ### Reading for an entity -/

namespace Stores

/-- What stands at a switch for an entity. -/
def switchFor (s : Stores) (scope : Scope) (slot : SlotRef) : Bool :=
  (s.switchTable.value s.selfSwitches scope slot (.bool false)).truthy

/-- What stands at a variable for an entity. -/
def variableFor (s : Stores) (scope : Scope) (slot : SlotRef) : Json :=
  s.variableTable.value s.selfVariables scope slot (.int 0)

/-- Write a switch for an entity. -/
def setSwitch (s : Stores) (scope : Scope) (id : Int) (on : Bool) : Stores :=
  let (switchTable, selfSwitches) := s.switchTable.put s.selfSwitches scope id (.bool on)
  { s with switchTable, selfSwitches }

/-- Write a variable for an entity. -/
def setVariable (s : Stores) (scope : Scope) (id : Int) (v : Json) : Stores :=
  let (variableTable, selfVariables) := s.variableTable.put s.selfVariables scope id v
  { s with variableTable, selfVariables }

end Stores

namespace Session

/-! ### Characters -/

/-- The event with a given number on the current map. -/
def event? (s : Session) (id : Int) : Option MapEvent := s.map.event? id

/-- Change an event on the current map. -/
def updateEvent (id : Int) (f : MapEvent → MapEvent) (s : Session) : Session :=
  { s with map := s.map.update id f }

/-- The character that is meant, if there is one. -/
def character? (s : Session) : CharacterId → Option Character
  | .player => some s.player.body
  | .event id => (s.event? id).map MapEvent.body
  | .follower place => s.player.followers[place - 1]?

/-- The character that is meant, or one that nobody sees. -/
def character (s : Session) (who : CharacterId) : Character := (s.character? who).getD {}

/-- Change a character. -/
def updateCharacter (who : CharacterId) (f : Character → Character) (s : Session) : Session :=
  match who with
  | .player => { s with player.body := f s.player.body }
  | .event id => s.updateEvent id fun e => { e with body := f e.body }
  | .follower place =>
    { s with player.followers := s.player.followers.modify (place - 1) f }

/-- The number of a character among the entities of its map; only events have one. -/
def entityOf : CharacterId → Int
  | .event id => id
  | _ => 0

/-- The map that a character belongs to. -/
def mapOf (s : Session) : CharacterId → Int
  | .event id => ((s.event? id).map MapEvent.map).getD s.map.id
  | _ => s.map.id

/-- The scope of a character's own self switches and variables. -/
def scopeOf (s : Session) (who : CharacterId) : Scope := ⟨s.mapOf who, entityOf who⟩

/-- Whether a follower is seen: the party has a member for it, and followers are shown. -/
def followerVisible (s : Session) (place : Nat) : Bool :=
  s.followersVisible && decide (place < s.stores.party.members.length)

/-- The followers that are seen, with their places in the party. -/
def visibleFollowers (s : Session) : List (Nat × Character) :=
  (s.player.followers.zipIdx.map fun e => (e.2 + 1, e.1)).filter fun e => s.followerVisible e.1

/-- The player and the followers that are seen. -/
def partyCharacters (s : Session) : List (CharacterId × Character) :=
  (.player, s.player.body) :: s.visibleFollowers.map fun e => (.follower e.1, e.2)

/-! ### Links and scopes -/

/-- The command list at a depth. -/
def frame (s : Session) (d : Nat) : Frame := s.interpreter.frame d

/-- Change the command list at a depth. -/
def updateFrame (d : Nat) (f : Frame → Frame) (s : Session) : Session :=
  { s with interpreter := s.interpreter.modify f d }

/-- Change the stack of command lists. -/
def updateInterpreter (f : Interpreter → Interpreter) (s : Session) : Session :=
  { s with interpreter := f s.interpreter }

/-- Whether a link points to an event of the current map. -/
def isLocal (s : Session) (l : EventLink) : Bool := l.isSet && l.map.isInt s.map.id

/-- The event of the current map that a link points to. -/
def linkedEvent? (s : Session) (l : EventLink) : Option MapEvent :=
  if s.isLocal l then s.event? l.event else none

/-- Whether a link can be followed: an event of the current map has to exist still. -/
def linkHolds (s : Session) (l : EventLink) : Bool :=
  l.isSet && (!s.isLocal l || (s.event? l.event).any fun e => !e.erased)

/-- The entity whose self switches and variables a command list addresses. -/
def resolveFrame (s : Session) (f : Frame) : Scope :=
  if s.linkHolds f.link then ⟨f.link.map, f.link.event⟩ else ⟨f.map, f.event⟩

/-- The entity that the command list at a depth addresses. -/
def resolve (s : Session) (d : Nat) : Scope := s.resolveFrame (s.frame d)

/-- The entity for which switches and variables are read and written. -/
def currentScope (s : Session) : Scope :=
  match s.scopes, s.active with
  | scope :: _, _ => scope
  | [], some d => s.resolve d
  | [], none => ⟨s.map.id, 0⟩

theorem resolve_of_not_isSet {s : Session} {d : Nat} (h : (s.frame d).link.isSet = false) :
    s.resolve d = ⟨(s.frame d).map, (s.frame d).event⟩ := by
  simp [resolve, resolveFrame, linkHolds, h]

@[simp] theorem currentScope_cons (s : Session) (scope : Scope) (rest : List Scope) :
    { s with scopes := scope :: rest }.currentScope = scope := rfl

/-- The character that a command names: a negative number is the player, zero the event of the
command list, any other an event of its map. -/
def characterNamed (s : Session) (d : Nat) (n : Int) : Option CharacterId :=
  let f := s.frame d
  if n < 0 then some .player
  else if s.map.id ≠ f.map then none
  else
    let id := if n = 0 then f.event else n
    if 0 < id ∧ (s.event? id).isSome then some (.event id) else none

/-- The event that the map's own command list runs for. -/
def activeEvent? (s : Session) : Option Int :=
  if s.interpreter.isRunning then
    (s.event? s.interpreter.root.event).map fun _ => s.interpreter.root.event
  else none

/-! ### Switches and variables in the current scope -/

/-- What stands at a switch. -/
def switchValue (s : Session) (slot : SlotRef) : Bool := s.stores.switchFor s.currentScope slot

/-- What stands at a variable. -/
def variableValue (s : Session) (slot : SlotRef) : Json := s.stores.variableFor s.currentScope slot

/-- Write a switch. -/
def setSwitch (id : Int) (on : Bool) (s : Session) : Session :=
  { s with stores := s.stores.setSwitch s.currentScope id on }

/-- Write a variable. -/
def setVariable (id : Int) (v : Json) (s : Session) : Session :=
  { s with stores := s.stores.setVariable s.currentScope id v }

/-- Write a self switch. -/
def setSelfSwitch (key : SelfKey) (on : Bool) (s : Session) : Session :=
  { s with stores.selfSwitches := s.stores.selfSwitches.put key (.bool on) }

/-- Write a self variable. -/
def setSelfVariable (key : SelfKey) (v : Json) (s : Session) : Session :=
  { s with stores.selfVariables := s.stores.selfVariables.put key v }

/-- Record where the event with a given number spawns from now on. -/
def recordOrigin (map event : Int) (p : Point) (s : Session) : Session :=
  { s with stores.origins := s.stores.origins.record map event p }

/-- Ask for the pages of the events to be chosen anew. -/
def requestRefresh (s : Session) : Session := { s with map.needsRefresh := true }

end Session

namespace Play

/-- Carry an operation out with switches and variables read for an entity. -/
def inScope {α : Type} (scope : Scope) (act : Play α) : Play α :=
  between (fun s => { s with scopes := scope :: s.scopes })
    (fun s t => { t with scopes := s.scopes }) act

/-- Carry an operation out as the command list at a depth. -/
def asActive {α : Type} (d : Nat) (act : Play α) : Play α :=
  between (fun s => { s with active := some d }) (fun s t => { t with active := s.active }) act

end Play

end EventLayer
