/-
**Where events spawn.**

An event spawns at its place in the map file unless the game has recorded another origin for it.
Origins are kept under the numbers of the map and the event, written side by side, and survive in
saves.

Main definitions:

* `Origins.key` — what an origin is kept under;
* `Origins.origin?`, `Origins.record`, `Origins.recordGiven` — reading and recording;
* `Origins.toJson`, `Origins.read` — origins as saved.

Main results:

* `Origins.origin?_record_self` — what was recorded last is read.
-/
import EventLayer.Geometry
import EventLayer.Json

set_option autoImplicit false
set_option relaxedAutoImplicit false

namespace EventLayer

/-- The recorded origins of events. -/
structure Origins where
  points : OrderedMap String Point := ∅
deriving Inhabited

namespace Origins

/-- What the origin of an event on a map is kept under. -/
def key (map event : Int) : String := toString map ++ " " ++ toString event

/-- The recorded origin of an event on a map. -/
def origin? (o : Origins) (map event : Int) : Option Point := o.points.get? (key map event)

/-- Record the origin of an event on a map. -/
def record (o : Origins) (map event : Int) (p : Point) : Origins :=
  ⟨o.points.insert (key map event) p⟩

/-- Record an origin that is given by values, each of which has to stand for a whole number. -/
def recordGiven (o : Origins) (map event x y : Json) : Except Fault Origins := do
  let p : Point := ⟨← x.toInt, ← y.toInt⟩
  return o.record (← map.toInt) (← event.toInt) p

@[simp] theorem origin?_record_self (o : Origins) (map event : Int) (p : Point) :
    (o.record map event p).origin? map event = some p := by
  simp [origin?, record]

/-- The number of recorded origins. -/
def size (o : Origins) : Nat := o.points.size

/-- Origins as saved. -/
def toJson (o : Origins) : Json :=
  .obj (o.points.entries.map fun e => (e.1, .obj [("x", .int e.2.x), ("y", .int e.2.y)]))

/-- The origin that an entry of a save records; an entry without both coordinates records none. -/
def readEntry (o : Origins) (entry : String × Json) : Except Fault Origins :=
  match entry.2.field? "x", entry.2.field? "y" with
  | some x, some y => return ⟨o.points.insert entry.1 ⟨← x.toInt, ← y.toInt⟩⟩
  | _, _ => .ok o

/-- Origins from a save. -/
def read (data : Json) : Except Fault Origins :=
  match data.orElse (.obj []) with
  | .obj fields => fields.foldlM readEntry {}
  | _ => .error .notAnObject

end Origins

end EventLayer
