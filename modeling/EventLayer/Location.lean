/-
**Locations in the editor's data.**

A location names a tile: absolutely, or relative to an event or to the player, and then moved ahead
and to the right of that character's facing.  The editor stores it as an object, often as the text
of one; the names of its fields are read without regard to blanks and letter case.

Main definitions:

* `Relativity`, `Location` — what a location says;
* `Location.read` — a location from the editor's data;
* `Location.resolve` — the tile that a location names.

Main results:

* `Location.resolve_absolute` — an absolute location needs no reference.
-/
import EventLayer.Geometry
import EventLayer.Json.Reader
import EventLayer.Reading
import EventLayer.Text.Case

set_option autoImplicit false
set_option relaxedAutoImplicit false

namespace EventLayer

/-- What a location is measured from. -/
inductive Relativity where
  | absolute
  | event
  | player
deriving Repr, DecidableEq

/-- The words for what a location is measured from. -/
def Relativity.aliases : List (String × Relativity) := [
  ("absolute", .absolute), ("abs", .absolute), ("map", .absolute),
  ("event", .event), ("this event", .event), ("relative to event", .event),
  ("relative_to_event", .event),
  ("player", .player), ("relative to player", .player), ("relative_to_player", .player)]

/-- A tile named absolutely or relative to a character. -/
structure Location where
  x : Int := 0
  y : Int := 0
  relativity : Relativity := .absolute
  forward : Int := 0
  rightward : Int := 0
deriving Repr, DecidableEq

namespace Location

/-- The fields of an object under their names without blanks and letter case. -/
def normalFields (fields : List (String × Json)) : OrderedMap String Json :=
  OrderedMap.ofList (fields.map fun e => (Text.lowerAscii (Text.trim e.1), e.2))

/-- The first of several fields that is given, as a whole number; `0` when none is. -/
def intField (fields : OrderedMap String Json) : List String → Except Fault Int
  | [] => .ok 0
  | name :: names =>
    match fields.get? name with
    | none => intField fields names
    | some v =>
      if v matches .null ∨ v matches .str "" then intField fields names
      else do (← v.toDouble).truncate

/-- What the fields of a location say it is measured from. -/
def readRelativity (fields : OrderedMap String Json) : Reading Relativity := do
  let raw := fields.getD "relativity" (fields.getD "relative_to" (.str ""))
  let word := Text.lowerAscii (Text.trim (raw.orElse (.str "")).text)
  match Relativity.aliases.lookup (if word = "" then "absolute" else word) with
  | some r => return r
  | none =>
    Reading.note (.relativityUnknown word)
    return .absolute

/-- The numbers of a location. -/
def readNumbers (fields : OrderedMap String Json) (relativity : Relativity) :
    Except Fault Location := do
  let x ← intField fields ["x"]
  let y ← intField fields ["y"]
  let forward ← intField fields ["forward", "shift_forward"]
  let rightward ← intField fields ["rightward", "right", "shift_right"]
  return { x, y, relativity, forward, rightward }

/-- A location from the fields of an object; one whose numbers cannot be read is none. -/
def ofFields (raw : List (String × Json)) : Reading (Option Location) := do
  let fields := normalFields raw
  let relativity ← readRelativity fields
  match readNumbers fields relativity with
  | .ok spec => return some spec
  | .error .wrongType | .error .notANumber =>
    Reading.note .locationNotNumeric
    return none
  | .error e => throw e

/-- A location from the editor's data: an object, or the text of one.  What cannot be read is no
location, but a number with too many digits in the text is a fault. -/
def read (payload : Json) : Reading (Option Location) :=
  match payload with
  | .null => return none
  | .str "" => return none
  | .str s =>
    match Json.read s with
    | .error .malformed => do
      Reading.note (.locationMalformed s)
      return none
    | .error .tooManyDigits => throw .notANumber
    | .ok (.obj fields) => ofFields fields
    | .ok _ => do
      Reading.note .locationNotObject
      return none
  | .obj fields => ofFields fields
  | _ => do
    Reading.note .locationNotObject
    return none

/-- The tile that a location names, seen from an event and from the player; there is none where the
character is missing that it is measured from. -/
def resolve (spec : Location) (event player : Option Pose) : Reading (Option Point) :=
  match spec.relativity with
  | .absolute => return some ⟨spec.x, spec.y⟩
  | r =>
    match if r = .event then event else player with
    | none => do
      Reading.note .referenceMissing
      return none
    | some ref =>
      return some (Point.shift ⟨ref.x + spec.x, ref.y + spec.y⟩ ref.direction spec.forward
        spec.rightward)

theorem resolve_absolute {spec : Location} (h : spec.relativity = .absolute)
    (event player : Option Pose) :
    spec.resolve event player = pure (some ⟨spec.x, spec.y⟩) := by
  simp [resolve, h]

end Location

end EventLayer
