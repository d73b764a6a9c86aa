/-
**Saving and loading.**

A save holds the stores and where the player stands.  Loading one replaces the stores, forgets what
is not saved, and sets up the map anew, so that events spawn at their saved origins and show the
pages that the saved stores call for.  A block that a save lacks starts empty.

Main definitions:

* `Session.save` — a session as saved;
* `Session.contents` — the same, where it can be written;
* `Play.load` — a session from a save.

Main results:

* `Session.save_behavior` — the behaviour of move routes is saved by its word.
-/
import EventLayer.Session.Setup

set_option autoImplicit false
set_option relaxedAutoImplicit false

namespace EventLayer

namespace Session

/-- The keys of the blocks of a save. -/
def behaviorKey : String := "moveRouteBehavior"

/-- Where the player stands, as saved. -/
def savePosition (s : Session) : Json :=
  .obj [("mapId", .int s.map.id), ("x", .int s.player.body.x), ("y", .int s.player.body.y),
    ("direction", .int s.player.body.direction)]

/-- A session as saved. -/
def save (s : Session) : Json :=
  .obj [
    ("switches", s.stores.switchTable.toJson),
    ("variables", s.stores.variableTable.toJson),
    ("selfSwitches", s.stores.selfSwitches.toJson),
    ("selfVariables", s.stores.selfVariables.toJson),
    ("eventOrigins", s.stores.origins.toJson),
    ("party", s.stores.party.toJson),
    (behaviorKey, .str s.stores.behavior.word),
    ("map", s.savePosition)]

/-- The contents of a save.  A switch or variable whose number is too long for a text cannot be
saved. -/
def contents (s : Session) : Except Fault Json :=
  if s.stores.switchTable.isWritable && s.stores.variableTable.isWritable then .ok s.save
  else .error .notANumber

theorem save_behavior (s : Session) :
    s.save.field? behaviorKey = some (.str s.stores.behavior.word) := by
  simp [save, Json.field?, OrderedMap.find, behaviorKey]

end Session

/-- The behaviour of move routes in a save; an unknown one leaves a notice and is normal. -/
def RouteBehavior.ofSave (v : Json) : Reading RouteBehavior :=
  let known := match v with
    | .str w => RouteBehavior.known? w
    | _ => none
  match known with
  | some b => return b
  | none => do
    Reading.note .savedBehaviorUnknown
    return .normal

/-- The stores of a save, with the self-scoped numbers of the tables they replace. -/
def Stores.ofSave (save : Json) (config : Config) (old : Stores) : Reading Stores := do
  let switchTable ← old.switchTable.read (← save.fieldD "switches" .null)
  let variableTable ← old.variableTable.read (← save.fieldD "variables" .null)
  let selfSwitches ← SelfStore.read (← save.fieldD "selfSwitches" .null)
  let selfVariables ← SelfStore.read (← save.fieldD "selfVariables" .null)
  let origins ← Origins.read (← save.fieldD "eventOrigins" .null)
  let party ← Party.read (← save.fieldD "party" .null)
  let behavior ← RouteBehavior.ofSave
    (← save.fieldD Session.behaviorKey (.str config.behavior.word))
  return { switchTable, variableTable, selfSwitches, selfVariables, origins, party, behavior }

namespace Play

open Session

/-- A coordinate of a saved position. -/
def savedNumber (position : Json) (key : String) (d : Int) : Except Fault Int := do
  (← position.fieldD key (.int d)).toInt

/-- Put the party where a save says; without a map it stays where it is. -/
def loadPosition (position : Json) : Play Unit := do
  if !position.truthy then return
  let map ← position.fieldD "mapId" .null
  if !map.truthy then return
  setupMap (← map.toInt)
  let x ← savedNumber position "x" 0
  let y ← savedNumber position "y" 0
  let d ← savedNumber position "direction" Direction.down
  transfer (← map.toInt) ⟨x, y⟩ d

/-- Restore a session from a save; a blank one is an empty save. -/
def load (save : Json) : Play Unit := do
  let save := save.orElse (.obj [])
  let s ← get
  let stores ← Stores.ofSave save s.game.config s.stores
  modify fun s => { s with stores, scratch := {} }
  modify refreshFollowers
  loadPosition (← save.fieldD "map" .null)

end Play

end EventLayer
