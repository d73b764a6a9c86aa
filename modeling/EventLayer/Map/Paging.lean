/-
**Choosing pages.**

The page that counts is the last one whose conditions all hold for the event itself.  When another
page comes to count, the event takes on its look, its way of moving and its trigger; an event
without a page, or an erased one, keeps its place and facing and loses the rest.

Main definitions:

* `PageCondition.holds`, `Page.counts` — the conditions, for an entity;
* `MapEvent.properPage` — the number of the page that counts;
* `MapEvent.showPage`, `MapEvent.refresh` — taking on a page.

Main results:

* `MapEvent.properPage_nil` — an event without pages has none that counts.
-/
import EventLayer.Session.Scope
import EventLayer.Variable

set_option autoImplicit false
set_option relaxedAutoImplicit false

namespace EventLayer

/-! ### Conditions -/

namespace PageCondition

/-- Whether a variable's value reaches a bound; what is no number reaches none. -/
def reaches (value bound : Json) : Except Fault Bool :=
  let below : Except Fault Bool := do
    let v ← value.toDouble
    let b ← bound.toDouble
    return v.less b
  -- an undefined number is not below its bound, and so reaches it
  match below with
  | .ok isBelow => .ok !isBelow
  | .error .wrongType | .error .notANumber => .ok false
  | .error e => .error e

/-- Whether a condition holds for an entity. -/
def holds (c : PageCondition) (db : Database) (s : Stores) (scope : Scope) : Except Fault Bool :=
  match c with
  | .switchOn id => .ok (s.switchFor scope (some id))
  | .variableAtLeast id bound => reaches (s.variableFor scope (some id)) bound
  | .selfSwitchOn channel => return s.selfSwitches.isOn (← (scope.key channel).checked)
  | .holdsItem id => do
    match db.item? .item (.int id) with
    | some entry => return (← s.party.countOf entry).toJson.truthy
    | none => return false
  | .hasMember id => .ok (s.party.members.any fun m => m.isInt id)
  | .faulty e => .error e

/-- Whether several conditions hold; the first that does not decides. -/
def allHold (db : Database) (s : Stores) (scope : Scope) : List PageCondition → Except Fault Bool
  | [] => .ok true
  | c :: rest => do
    if ← c.holds db s scope then allHold db s scope rest else return false

end PageCondition

/-- Whether the conditions of a page hold. -/
def Page.counts (p : Page) (db : Database) (s : Stores) (scope : Scope) : Except Fault Bool :=
  PageCondition.allHold db s scope p.conditions

namespace MapEvent

/-- The entity that an event is. -/
def scope (e : MapEvent) : Scope := ⟨e.map, e.id⟩

/-- The number of the first page of a list that counts; `-1` where none does. -/
def firstCounting (db : Database) (s : Stores) (scope : Scope) :
    List (Page × Nat) → Except Fault Int
  | [] => .ok (-1)
  | (p, i) :: rest => do
    if ← p.counts db s scope then return i else firstCounting db s scope rest

/-- The number of the last page that counts; `-1` where none does. -/
def properPage (e : MapEvent) (db : Database) (s : Stores) : Except Fault Int :=
  firstCounting db s e.scope e.pages.zipIdx.reverse

theorem properPage_nil {e : MapEvent} (h : e.pages = []) (db : Database) (s : Stores) :
    e.properPage db s = .ok (-1) := by simp [properPage, h, firstCounting]

/-! ### Taking on a page -/

/-- The look and movement that a page asks for. -/
def applySettings (e : MapEvent) (p : PageSettings) : MapEvent :=
  { e with
    moveType := p.moveType
    frequency := p.frequency
    body := { e.body with
      image := p.image
      direction := p.direction.getD e.body.direction
      priority := p.priority
      through := p.through } }

/-- The code of a movement along a route of the page. -/
def routeMoveType : Int := 3

/-- An event that shows a page. -/
def wearPage (e : MapEvent) (p : Page) : Reading MapEvent := do
  let settings ← p.settings
  let route ← if settings.moveType = routeMoveType then Route.read p.route else pure none
  let start ← StartRule.read p.list p.trigger
  let e := e.applySettings settings
  return { e with body := e.body.setRoute route, start, starting := false }

/-- An event that shows no page: it has no trigger, image or route, and nothing collides with it. -/
def wearNone (e : MapEvent) : MapEvent :=
  let body := ((e.body.showImage (.str "") (.int 0)).setRoute none)
  { e with body := { body with through := true }, start := {}, starting := false }

/-- An event that shows the page with its current number. -/
def showPage (e : MapEvent) : Reading MapEvent :=
  match e.page? with
  | some p => e.wearPage p
  | none => return e.wearNone

/-- The number of the page that an event has to show; an erased one shows none. -/
def duePage (e : MapEvent) (db : Database) (s : Stores) : Except Fault Int :=
  if e.erased then .ok (-1) else e.properPage db s

/-- An event that shows the page that counts. -/
def refresh (e : MapEvent) (db : Database) (s : Stores) : Reading MapEvent := do
  let due ← e.duePage db s
  if due = e.pageIndex then return e else showPage { e with pageIndex := due }

/-! ### Events from a map file -/

/-- An event from the fields of an object: it spawns at its recorded origin, or else at its place in
the file, and shows the page that counts. -/
def ofFields (map : Int) (fields : List (String × Json)) (db : Database) (s : Stores) :
    Reading MapEvent := do
  let valueOr (key : String) (d : Json) : Json := (OrderedMap.find key fields).getD d
  let id ← (valueOr "id" (.int 0)).toInt
  let name := ((valueOr "name" (.str "")).orElse (.str "")).text
  let note := ((valueOr "note" (.str "")).orElse (.str "")).text
  let pages ← Page.readAll (valueOr "pages" .null)
  let point ← match s.origins.origin? map id with
    | some p => pure p
    | none => do
      let x ← (valueOr "x" (.int 0)).toInt
      let y ← (valueOr "y" (.int 0)).toInt
      pure (⟨x, y⟩ : Point)
  let body : Character := Character.locate {} point
  refresh { id, map, name, note, pages, body } db s

end MapEvent

end EventLayer
