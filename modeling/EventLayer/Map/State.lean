/-
**The current map.**

A map is a grid of tiles in layers, the sixth of which holds region numbers, with the events that
stand on it.  Beside them stand the queue of map-setup lists that wait to be run and the common
events of the database, whose triggers are read once.

Main definitions:

* `MapState` — a map with its events;
* `MapState.isValid`, `MapState.isPassable` — where characters can go;
* `MapState.tile`, `MapState.region` — what the layers hold;
* `MapState.event?`, `MapState.eventsAt`, `MapState.update` — its events.

Main results:

* `MapState.event?_update_of_ne` — changing one event leaves the others.
-/
import EventLayer.Map.Event

set_option autoImplicit false
set_option relaxedAutoImplicit false

namespace EventLayer

/-- A command list that waits to be run, with the event that it belongs to. -/
structure PendingRun where
  list : Json
  event : Int

/-- The current map. -/
structure MapState where
  id : Int := 0
  width : Int := 0
  height : Int := 0
  /-- The layers of tiles, one after the other, as the editor wrote them. -/
  tiles : Json := .arr []
  events : OrderedMap Int MapEvent := ∅
  /-- Tiles that nobody can step on. -/
  blocked : List Point := []
  /-- Whether the pages of the events have to be chosen anew. -/
  needsRefresh : Bool := false
  /-- The map-setup lists that have not been run. -/
  pending : List PendingRun := []
  /-- The common events, once they have been looked at. -/
  commons : Option (List CommonEvent) := none

namespace MapState

instance : Inhabited MapState := ⟨{}⟩

/-- The layer that holds region numbers. -/
def regionLayer : Int := 5

/-- Whether a tile lies on the map. -/
def isValid (m : MapState) (p : Point) : Bool :=
  decide (0 ≤ p.x ∧ p.x < m.width ∧ 0 ≤ p.y ∧ p.y < m.height)

/-- Whether a tile can be stepped on. -/
def isPassable (m : MapState) (p : Point) : Bool := !m.blocked.contains p

/-- What a layer holds at a tile: `0` off the map and beyond the end of the layers.  A position
before the first layer counts from the end. -/
def tile (m : MapState) (p : Point) (layer : Int) : Except Fault Int := do
  if !m.isValid p then return 0
  let count ← m.tiles.count
  let i := (layer * m.height + p.y) * m.width + p.x
  if (count : Int) ≤ i then return 0
  let i := if i < 0 then i + count else i
  if i < 0 then throw .missingPosition
  ((← m.tiles.item i.toNat).orElse (.int 0)).toInt

/-- The region of a tile. -/
def region (m : MapState) (p : Point) : Except Fault Int :=
  if m.isValid p then m.tile p regionLayer else .ok 0

/-! ### Events -/

/-- The event with a given number. -/
def event? (m : MapState) (id : Int) : Option MapEvent := m.events.get? id

/-- The events in the order of the map. -/
def eventList (m : MapState) : List MapEvent := m.events.values

/-- Change the event with a given number, if there is one. -/
def update (m : MapState) (id : Int) (f : MapEvent → MapEvent) : MapState :=
  { m with events := m.events.modify id f }

/-- The events on a tile, erased ones left out. -/
def eventsAt (m : MapState) (p : Point) : List MapEvent :=
  m.eventList.filter fun e => !e.erased && e.body.isAt p

/-- Whether some event is about to run. -/
def anyStarting (m : MapState) : Bool := m.eventList.any (·.starting)

theorem event?_update_of_ne {id id' : Int} (h : id ≠ id') (m : MapState) (f : MapEvent → MapEvent) :
    (m.update id f).event? id' = m.event? id' := by
  simp only [update, event?, OrderedMap.modify]
  split
  · rfl
  · simp [OrderedMap.get?_insert, h]

end MapState

end EventLayer
