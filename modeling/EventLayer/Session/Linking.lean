/-
**Linking to another event.**

A command list can be linked to another event, on the current map or on another one, and then acts
on that event's self switches and variables.  The event is looked for by selector, note and
distance.  Where nothing matches, the link stays as it was.  A link also says for which event a new
origin is recorded.

Main definitions:

* `LinkQuery` — what a link asks for;
* `Session.localCandidates`, `Play.remoteCandidates` — what it looks at;
* `Play.link`, `Play.unlink` — setting and dropping a link;
* `Play.setOrigin` — a new origin for the addressed event.

Main results:

* `Session.localCandidates_nil` — a map without events offers no candidate.
-/
import EventLayer.Link.Candidate
import EventLayer.Location
import EventLayer.Session.Scope

set_option autoImplicit false
set_option relaxedAutoImplicit false

namespace EventLayer

/-- What a link asks for, as the editor wrote it. -/
structure LinkQuery where
  event : Json := .null
  map : Json := .null
  note : Json := .str ""
  location : Json := .null
  distance : Json := .null

namespace Session

/-- What a link looks at in the events of the current map, erased ones left out. -/
def localCandidates (s : Session) : List Candidate :=
  (s.map.eventList.filter fun e => !e.erased).map fun e =>
    ⟨e.id, e.name, e.note, .int e.body.x, .int e.body.y⟩

theorem localCandidates_nil {s : Session} (h : s.map.events = ∅) : s.localCandidates = [] := by
  simp [localCandidates, MapState.eventList, OrderedMap.values, h]

/-- Where a character stands and what it faces. -/
def poseOf (s : Session) (who : CharacterId) : Option Pose := (s.character? who).map Character.pose

end Session

namespace Candidate

/-- What a link looks at in an event of a map file: the event stands at its recorded origin, or else
at its place in the file. -/
def ofFields (map : Int) (origins : Origins) (fields : List (String × Json)) :
    Except Fault Candidate := do
  let valueOr (key : String) (d : Json) : Json := (OrderedMap.find key fields).getD d
  let id ← (valueOr "id" (.int 0)).toInt
  let (x, y) : Json × Json := match origins.origin? map id with
    | some p => (.int p.x, .int p.y)
    | none => (valueOr "x" (.int 0), valueOr "y" (.int 0))
  let textOf (key : String) : String := (valueOr key (.str "")).text
  return { id, name := textOf "name", note := textOf "note", x, y }

/-- What a link looks at in the events of a map file. -/
def ofEvents (map : Int) (origins : Origins) : List Json → Except Fault (List Candidate)
  | [] => .ok []
  | .obj [] :: rest => ofEvents map origins rest
  | .obj fields :: rest => do
    let c ← ofFields map origins fields
    return c :: (← ofEvents map origins rest)
  | _ :: rest => ofEvents map origins rest

end Candidate

namespace Play

open Session

/-- The number of the map that a link asks for: the current one where it asks for none. -/
def linkMap (selector : Selector) : Play (Option Json) := do
  match selector with
  | .any => return some (.int (← get).map.id)
  | .number n => return some (.int n)
  | .truth => return some (.bool true)
  | .name word =>
    let found := (← get).game.database.mapNamed? word
    if found.isNone then note (.mapNameUnknown word)
    return found

/-- What a link to another map looks at; none where the map cannot be loaded. -/
def remoteCandidates (map : Json) : Play (Option (List Candidate)) := do
  let s ← get
  match ← s.game.mapFile map with
  | none =>
    note (.mapNotLoaded map)
    return none
  | some data =>
    let events ← ((← data.fieldD "events" .null).orElse (.arr [])).elements
    return some (← Candidate.ofEvents (← map.toInt) s.stores.origins events)

/-- What a link looks at. -/
def candidates (map : Json) : Play (Option (List Candidate)) := do
  let s ← get
  if map.isInt s.map.id then return some s.localCandidates
  remoteCandidates map

/-- The point from which a link measures: that of its location, or else the player's. -/
def linkReference (d : Nat) (location : Option Location) : Play (Option Point) := do
  let s ← get
  match location with
  | none => return some s.player.body.point
  | some spec =>
    let event := (s.characterNamed d 0).bind s.poseOf
    spec.resolve event (s.poseOf .player)

/-- Link the command list at a depth to an event; the map of an event has to have a number. -/
def linkTo (d : Nat) (event : Int) (map : Json) : Play Unit := do
  if 0 < event then
    discard map.number
  modify (updateFrame d fun f => { f with link := { event, map } })

/-- Link a command list to the nearest event that a query asks for; whether there is one. -/
def linkOn (d : Nat) (map : Json) (q : LinkQuery) : Play Bool := do
  let selector ← Selector.read q.event
  let wanted := if q.note.truthy then q.note.text else ""
  let limit ← readDistance q.distance
  let location ← Location.read q.location
  -- a location without a distance asks for the very tile
  let limit := if location.isSome && limit.isNone then some 0 else limit
  let reference ← linkReference d location
  if location.isSome && reference.isNone then
    note .linkLocationUnresolved
    return false
  match ← candidates map with
  | none => return false
  | some pool =>
    let pool ← Candidate.kept pool selector wanted reference limit
    match ← Candidate.nearest? pool reference with
    | none =>
      note (.linkUnmatched map)
      return false
    | some chosen =>
      linkTo d chosen.id map
      return true

/-- Link the command list at a depth to the event that a query asks for; whether there is one. -/
def link (d : Nat) (q : LinkQuery) : Play Bool := do
  match ← linkMap (← Selector.read q.map) with
  | none => return false
  | some map => linkOn d map q

/-- Drop the link of the command list at a depth. -/
def unlink (d : Nat) : Play Unit := modify (updateFrame d fun f => { f with link := {} })

/-- Record where the event that a command list acts for spawns from now on. -/
def setOrigin (d : Nat) (spec : Location) : Play Unit := do
  let s ← get
  let scope := s.resolve d
  if scope.entity ≤ 0 then
    note .originWithoutEvent
    return
  -- an event of another map stands nowhere here: the list's own event is measured from instead
  let own := if scope.map.isInt s.map.id then s.poseOf (.event scope.entity) else none
  let reference := own.or ((s.characterNamed d 0).bind s.poseOf)
  if let some p ← spec.resolve reference (s.poseOf .player) then
    modify (recordOrigin (← scope.map.toInt) scope.entity p)

end Play

end EventLayer
