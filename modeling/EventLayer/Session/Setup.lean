/-
**Setting up maps.**

Setting up a map puts its events on their tiles, shows the page of each that counts, and queues the
command lists that are run when a map is set up, ahead of anything else.  A transfer moves the party
to a map and a tile, which does not count as entering the region there.  A new game and a loaded one
begin with fresh stores and set up their map.

Main definitions:

* `Play.refreshMap` — choose the pages of all events anew;
* `Play.commonEvents` — the common events, read once;
* `Play.setupMap`, `Play.transfer` — maps and transfers;
* `Play.enterRegion` — what starts when a region is entered;
* `Play.newGame` — a game that begins.

Main results:

* `Session.refreshFollowers_length` — the party has a follower for each member behind the leader.
-/
import EventLayer.Map.Paging
import EventLayer.Session.Movement

set_option autoImplicit false
set_option relaxedAutoImplicit false

namespace EventLayer

namespace Session

/-- The followers of a party, all standing with the leader. -/
def refreshFollowers (s : Session) : Session :=
  let body := s.player.body
  let follower : Character :=
    (({ through := true } : Character).locate body.point).face body.direction
  { s with
    player.followers := List.replicate (s.stores.party.members.length - 1) follower }

@[simp] theorem refreshFollowers_length (s : Session) :
    s.refreshFollowers.player.followers.length = s.stores.party.members.length - 1 := by
  simp [refreshFollowers]

/-- Put the party on a tile, facing a direction. -/
def placeParty (p : Point) (d : Int) (s : Session) : Session :=
  let body := (s.player.body.locate p).face d
  { s with
    player.body := body
    player.followers := s.player.followers.map fun c => (c.locate p).face body.direction }

/-- Let a common event wait to be run. -/
def reserve (id : Int) (s : Session) : Session :=
  { s with scratch.reserved := s.scratch.reserved ++ [id] }

end Session

namespace Play

open Session

/-! ### Pages -/

/-- The events with the pages that count. -/
def refreshEvents (db : Database) (stores : Stores) :
    List (Int × MapEvent) → Reading (List (Int × MapEvent))
  | [] => return []
  | (id, e) :: rest => do
    let e ← e.refresh db stores
    return (id, e) :: (← refreshEvents db stores rest)

/-- Choose the pages of all events anew. -/
def refreshMap : Play Unit := do
  let s ← get
  let events ← refreshEvents s.game.database s.stores s.map.events.entries
  modify fun s => { s with map.events := ⟨events⟩, map.needsRefresh := false }

/-- Choose the page of one event anew. -/
def refreshEvent (id : Int) : Play Unit := do
  let s ← get
  if let some e := s.event? id then
    let e ← e.refresh s.game.database s.stores
    modify (updateEvent id fun _ => e)

/-- Erase an event: it shows no page any more. -/
def eraseEvent (id : Int) : Play Unit := do
  modify (updateEvent id fun e => { e with erased := true })
  refreshEvent id

/-! ### Common events -/

/-- The database entry of a common event; an empty one where there is none. -/
def commonEntry (db : Database) (id : Json) : Json := (db.commonEvent? id).getD (.obj [])

/-- Read the trigger of a common event. -/
def readCommon (db : Database) (id : Json) : Reading CommonEvent := do
  let entry := commonEntry db id
  let start ← StartRule.read (CommonEvent.listOf entry) ((entry.field? "trigger").getD (.int 0))
  return { id, start }

/-- The triggers of several common events. -/
def readCommons (db : Database) : List Json → Reading (List CommonEvent)
  | [] => return []
  | id :: rest => do
    let c ← readCommon db id
    return c :: (← readCommons db rest)

/-- The common events of the database; their triggers are read at the first call. -/
def commonEvents : Play (List CommonEvent) := do
  let s ← get
  match s.map.commons with
  | some found => return found
  | none =>
    let found ← readCommons s.game.database s.game.database.commonEventIds
    modify fun s => { s with map.commons := some found }
    return found

/-- Whether a common event runs by itself: its trigger says so and its switch is on. -/
def isAutorun (c : CommonEvent) : Play Bool := do
  let s ← get
  if !c.start.code.isInt 1 then return false
  let switch := ((commonEntry s.game.database c.id).field? "switchId").getD .null
  if !switch.truthy then return false
  return s.switchValue (some (← switch.toInt))

/-! ### Maps -/

/-- The events of a map file, in order. -/
def readEvents (map : Int) (db : Database) (stores : Stores) :
    OrderedMap Int MapEvent → List Json → Reading (OrderedMap Int MapEvent)
  | events, [] => return events
  | events, .obj [] :: rest => readEvents map db stores events rest
  | events, .obj fields :: rest => do
    let e ← MapEvent.ofFields map fields db stores
    readEvents map db stores (events.insert e.id e) rest
  | events, _ :: rest => readEvents map db stores events rest

/-- Queue the lists that are run when a map is set up: those of its events, then the common ones. -/
def queueSetup : Play Unit := do
  let own := (← get).map.eventList.filter (·.start.isKind .mapSetup)
  modify fun s =>
    { s with map.pending := s.map.pending ++ own.map fun e => ⟨e.list, e.id⟩ }
  -- the lists of events are queued before the common events are read, which may fail
  let commons := (← commonEvents).filter (·.start.isKind .mapSetup)
  let db := (← get).game.database
  modify fun s =>
    { s with
      map.pending := s.map.pending ++
        commons.map fun c => ⟨CommonEvent.listOf (commonEntry db c.id), 0⟩ }

/-- The map to be set up: a map that has no data is an empty one. -/
def mapData (id : Int) (data : Option Json) : Play Json := do
  if let some data := data then return data
  match ← (← get).game.mapFile (.int id) with
  | some data => return data
  | none =>
    note (.mapWithoutData id)
    return .obj []

/-- Set up a map from its data, or else from its file. -/
def setupMap (id : Int) (given : Option Json := none) : Play Unit := do
  let data ← mapData id given
  let width ← ((← data.fieldD "width" (.int 0)).orElse (.int 0)).toInt
  let height ← ((← data.fieldD "height" (.int 0)).orElse (.int 0)).toInt
  let tiles := (← data.fieldD "data" .null).orElse (.arr [])
  -- what an earlier map has queued stays queued, and so does a request for a refresh
  modify fun s =>
    { s with
      interpreter := s.interpreter.clear
      map := { s.map with id, width, height, tiles, events := ∅, blocked := [] } }
  let s ← get
  let raw ← ((← data.fieldD "events" .null).orElse (.arr [])).elements
  let events ← readEvents id s.game.database s.stores ∅ raw
  modify fun s => { s with map.events := events }
  queueSetup

/-- The region that the player is in. -/
def playerRegion : Play Int := do
  let s ← get
  s.map.region s.player.body.point

/-- Move the party to a tile of a map; this does not count as entering the region there. -/
def transfer (map : Int) (p : Point) (d : Int := 0) : Play Unit := do
  if (← get).map.id ≠ map then setupMap map
  modify (placeParty p d)
  -- the region counts as seen, so that arriving in it is no change
  let region ← playerRegion
  modify fun s => { s with player.lastRegion := region }

/-! ### Regions -/

/-- The events and common events that entering a region starts, any region where none is given. -/
def regionEntries (region : Option Int) : Play (List Int × List CommonEvent) := do
  let events := (← get).map.eventList.filter fun e => e.start.isRegionEntry region
  let commons := (← commonEvents).filter fun c => c.start.isRegionEntry region
  return (events.map (·.id), commons)

/-- Let several common events wait to be run. -/
def reserveAll : List CommonEvent → Play Unit
  | [] => pure ()
  | c :: rest => do
    let id ← c.id.toInt
    modify (reserve id)
    reserveAll rest

/-- The player has entered a region, any region where none is given. -/
def enterRegion (region : Option Int) : Play Unit := do
  if (← get).isEventRunning then return
  let (events, commons) ← regionEntries region
  modify (startWhere fun e => events.contains e.id)
  reserveAll commons

/-! ### New games -/

/-- Begin a game with given members of the party on a tile of a map. -/
def newGame (map : Int) (p : Point) (members : List Json) : Play Unit := do
  modify fun s =>
    { s with
      stores := { Stores.fresh s.game with
        party := { members := if members.isEmpty then [.int 1] else members } }
      scratch := {} }
  modify refreshFollowers
  -- the current map is set up as well, although a transfer within it would keep its events
  setupMap map
  transfer map p

end Play

end EventLayer
