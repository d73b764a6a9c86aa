/-
**The sprite of the running event.**

A game can read and set the image of the event that the map's command list runs for.  Where none
runs, reading gives a blank image and setting leaves a notice.

Main definitions:

* `Session.spriteOf` — the image of a character, blank without one;
* `Play.setSprite`, `Play.setSpriteField`, `Play.copySprite` — setting the image.

Main results:

* `Session.spriteOf_none` — without a character the image is blank.
-/
import EventLayer.Session.Scope

set_option autoImplicit false
set_option relaxedAutoImplicit false

namespace EventLayer

namespace Session

/-- The image of a character; a blank one where there is none. -/
def spriteOf (s : Session) (who : Option CharacterId) : Image :=
  ((who.bind s.character?).map Character.image).getD {}

@[simp] theorem spriteOf_none (s : Session) : s.spriteOf none = {} := rfl

/-- The image of the running event. -/
def sprite (s : Session) : Image := s.spriteOf (s.activeEvent?.map .event)

end Session

/-- The parts of an image that can be set. -/
inductive ImageField where
  | name
  | index
  | tile
deriving Repr, DecidableEq

namespace Play

open Session

/-- Change the running event; where none runs a notice is left. -/
def onActiveEvent (missing : Notice) (f : Character → Play Character) : Play Unit := do
  match (← get).activeEvent? with
  | none => note missing
  | some id =>
    let c ← f ((← get).character (.event id))
    modify (updateCharacter (.event id) fun _ => c)

/-- A number in a sprite value; a blank one is zero. -/
def spriteNumber (v : Json) (key : String) : Except Fault Int := do
  ((← v.fieldD key (.int 0)).orElse (.int 0)).toInt

/-- A character with the image that a value describes, if it describes one. -/
def dress (v : Json) (c : Character) : Except Fault (Option Character) := do
  if !v.truthy then return some (c.showImage (.str "") (.int 0))
  let name := (← v.field "name").getD .null
  if name.truthy then return some (c.showImage name (.int (← spriteNumber v "index")))
  let tile := (← v.field "tileId").getD .null
  if tile.truthy then return some (c.showTile (.int (← tile.toInt)))
  let name := (← v.field "characterName").getD .null
  if name.truthy then return some (c.showImage name (.int (← spriteNumber v "characterIndex")))
  return none

/-- Set the image of the running event to what a value describes; a blank value clears it. -/
def setSprite (v : Json) : Play Unit :=
  onActiveEvent .spriteWithoutEvent fun c => do
    match ← dress v c with
    | some c => return c
    | none =>
      note .spriteUnusable
      return c

/-- Set the image of the running event to that of a character. -/
def copySprite (who : Option CharacterId) : Play Unit := do
  let image := (← get).spriteOf who
  onActiveEvent .spriteWithoutEvent fun c =>
    return if image.tile.truthy then c.showTile image.tile else c.showImage image.name image.index

/-- Set one part of the running event's image. -/
def setSpriteField (field : ImageField) (v : Json) : Play Unit :=
  onActiveEvent .noEventForImage fun c =>
    return match field with
      | .name => c.showImage v c.image.index
      | .index => c.showImage c.image.name v
      | .tile => c.showTile v

end Play

end EventLayer
