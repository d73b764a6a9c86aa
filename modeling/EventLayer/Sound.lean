/-
**Sound effects.**

Main definitions:

* `Sound` — a sound effect as the editor describes it;
* `Sound.read` — a sound from the editor's data.
-/
import EventLayer.Json

set_option autoImplicit false
set_option relaxedAutoImplicit false

namespace EventLayer

/-- A sound effect: an object with the fields that the editor gives it. -/
abbrev Sound := List (String × Json)

namespace Sound

/-- A sound from the editor's data.  A blank value and an object without a name are no sound. -/
def read (v : Json) : Except Fault (Option Sound) :=
  if !v.truthy then .ok none
  else
    match v with
    | .obj fields =>
      .ok (if ((OrderedMap.find "name" fields).getD .null).truthy then some fields else none)
    | _ => .error .notAnObject

/-- The sound of a given name, volume and pitch, from the centre. -/
def ofNumbers (name : String) (volume pitch : Int) : Sound :=
  [("name", .str name), ("volume", .int volume), ("pitch", .int pitch), ("pan", .int 0)]

end Sound

end EventLayer
