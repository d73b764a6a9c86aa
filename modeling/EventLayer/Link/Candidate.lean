/-
**Candidates of a link.**

The events of a map that a link could point to are narrowed down by selector, note and distance; of
those that are left the nearest is chosen, and of equally near ones the one with the least number.
Coordinates are taken as the map has them: a distance can only be told where they are numbers.

Main definitions:

* `Candidate` — what a link looks at in an event;
* `Candidate.distance` — how far it is from a tile;
* `Candidate.kept` — the candidates that pass all filters;
* `Candidate.nearest?` — the choice among them.

Main results:

* `Candidate.distance_of_point` — on tiles the distance is the one between tiles;
* `Candidate.nearest?_eq_none_iff` — there is a choice exactly when there is a candidate.
-/
import EventLayer.Geometry
import EventLayer.Json.Number
import EventLayer.Link.Selector

set_option autoImplicit false
set_option relaxedAutoImplicit false

namespace EventLayer

/-- What a link looks at in an event. -/
structure Candidate where
  id : Int
  name : String
  note : String
  x : Json
  y : Json
deriving Repr

namespace Candidate

open Json (Number)

/-- How far a candidate is from a tile. -/
def distance (c : Candidate) (p : Point) : Except Fault Number := do
  let dx ← (← c.x.number).minus (.int p.x)
  let dy ← (← c.y.number).minus (.int p.y)
  return dx.magnitude.larger dy.magnitude

theorem distance_of_point (id : Int) (name note : String) (q p : Point) :
    distance ⟨id, name, note, .int q.x, .int q.y⟩ p = .ok (.int (q.boxDistance p)) := by
  have h : max ((q.x - p.x).natAbs : Int) (q.y - p.y).natAbs = (q.boxDistance p : Nat) := by
    unfold Point.boxDistance
    omega
  rw [← h, ← Number.larger_int]
  rfl

/-- Whether a selector selects a candidate. -/
def selected (selector : Selector) (c : Candidate) : Bool :=
  match selector with
  | .any => true
  | .number n => c.id == n
  | .truth => c.id == 1
  | .name s => c.name == s

/-- Whether a candidate bears the note that is asked for, if one is. -/
def noted (note : String) (c : Candidate) : Bool := note == "" || c.note == note

/-- Whether a candidate is within a distance of a reference point, where both are given. -/
def within (ref : Option Point) (limit : Option Int) (c : Candidate) : Except Fault Bool := do
  match ref, limit with
  | some p, some d => return (← c.distance p).atMost (.int d)
  | _, _ => return true

/-- The candidates that pass all filters, in their order; distances are told last. -/
def kept (pool : List Candidate) (selector : Selector) (note : String) (ref : Option Point)
    (limit : Option Int) : Except Fault (List Candidate) :=
  (pool.filter fun c => c.selected selector && c.noted note).filterM (within ref limit)

/-- How far a candidate is from the reference point; nothing is far where none is given. -/
def reach (ref : Option Point) (c : Candidate) : Except Fault Number :=
  match ref with
  | some p => c.distance p
  | none => .ok (.int 0)

/-- Whether a candidate ranks strictly before another: by distance, then by number. -/
def before (a b : Number × Candidate) : Bool :=
  if a.1.compare? b.1 = some .eq then a.2.id < b.2.id else a.1.below b.1

/-- The one of two candidates that ranks first, given the distance of one of them. -/
def nearer (ref : Option Point) (best : Number × Candidate) (c : Candidate) :
    Except Fault (Number × Candidate) := do
  let d ← c.reach ref
  return if before (d, c) best then (d, c) else best

/-- The first of the candidates that rank lowest. -/
def nearest? (pool : List Candidate) (ref : Option Point) : Except Fault (Option Candidate) := do
  match pool with
  | [] => return none
  | c :: rest =>
    let best ← rest.foldlM (nearer ref) (← c.reach ref, c)
    return some best.2

theorem nearest?_eq_none_iff (pool : List Candidate) (ref : Option Point) :
    nearest? pool ref = .ok none ↔ pool = [] := by
  cases pool with
  | nil => exact ⟨fun _ => rfl, fun _ => rfl⟩
  | cons c rest =>
    refine ⟨fun h => ?_, fun h => by cases h⟩
    simp only [nearest?] at h
    cases hd : c.reach ref with
    | error e => simp [hd, bind, Except.bind] at h
    | ok d =>
      cases hb : rest.foldlM (nearer ref) (d, c) with
      | error e => simp [hd, hb, bind, Except.bind] at h
      | ok best => simp [hd, hb, bind, Except.bind, pure, Except.pure] at h

end Candidate

end EventLayer
