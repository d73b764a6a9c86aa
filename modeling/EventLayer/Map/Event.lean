/-
**Events and common events.**

An event stands on a map and shows one of its pages.  A common event belongs to the database and has
no place.  Both are started by a trigger, which their commands may declare.

Main definitions:

* `MapEvent` — an event on the map;
* `MapEvent.page?`, `MapEvent.list` — its current page and the commands of it;
* `MapEvent.hasTrigger`, `MapEvent.entersRegion` — how it is started;
* `CommonEvent` — a common event of the database.
-/
import EventLayer.Map.Page
import EventLayer.Trigger

set_option autoImplicit false
set_option relaxedAutoImplicit false

namespace EventLayer

/-- How a page or a common event is started: the code of a trigger, null for none, and the region of
a region entry. -/
structure StartRule where
  code : Json := .null
  region : Option Int := none

namespace StartRule

/-- Whether the trigger is of a given kind. -/
def isKind (r : StartRule) (kind : TriggerKind) : Bool := r.code.isInt kind.code

/-- Whether entering a region is the trigger, any region where none is given. -/
def isRegionEntry (r : StartRule) (region : Option Int) : Bool :=
  r.isKind .regionEntry && (region.isNone || r.region == region)

/-- The rule that a command list declares, or else the given trigger. -/
def read (list host : Json) : Reading StartRule := do
  match ← TriggerDescriptor.find list with
  | some d => return { code := .int d.kind.code, region := d.region }
  | none => return { code := host }

end StartRule

/-- An event on the map. -/
structure MapEvent where
  id : Int
  map : Int
  name : String := ""
  note : String := ""
  pages : List Page := []
  /-- The number of the current page; `-1` for none. -/
  pageIndex : Int := -2
  erased : Bool := false
  starting : Bool := false
  moveType : Int := 0
  frequency : Int := 3
  stopCount : Nat := 0
  start : StartRule := {}
  body : Character := {}

namespace MapEvent

/-- The current page. -/
def page? (e : MapEvent) : Option Page :=
  if e.pageIndex < 0 then none else e.pages[e.pageIndex.toNat]?

/-- The commands of the current page, as the editor wrote them. -/
def list (e : MapEvent) : Json := (e.page?.map Page.list).getD (.arr [])

/-- Start the event, if its page has commands. -/
def startIfAny (e : MapEvent) : MapEvent := if e.list.truthy then { e with starting := true } else e

/-- Take back the mark of being about to run. -/
def clearStarting (e : MapEvent) : MapEvent := { e with starting := false }

/-- Whether the event is started in one of several ways. -/
def isStartedBy (e : MapEvent) (kinds : List TriggerKind) : Bool := kinds.any e.start.isKind

/-- How many frames an event rests between steps of its own. -/
def restLimit (e : MapEvent) : Nat := Nat.pow 2 (5 - e.frequency).toNat

/-- The ways in which touching an event starts it. -/
def touchKinds : List TriggerKind := [.playerTouch, .eventTouch, .partyTouch]

@[simp] theorem body_startIfAny (e : MapEvent) : e.startIfAny.body = e.body := by
  unfold startIfAny
  split <;> rfl

end MapEvent

/-- A common event, its trigger read once. -/
structure CommonEvent where
  id : Json
  start : StartRule := {}

/-- The commands of a common event's database entry, as the editor wrote them. -/
def CommonEvent.listOf (entry : Json) : Json :=
  ((entry.field? "list").getD .null).orElse (.arr [])

end EventLayer
