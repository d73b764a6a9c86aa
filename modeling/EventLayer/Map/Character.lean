/-
**Characters.**

The player, the followers and the events of a map are characters: they stand on a tile, face a
direction, show an image and go through move routes.  A forced route interrupts a character's own
one, which is put aside and taken up again when the forced route ends; a character without a route
of its own has nothing to put aside.

Main definitions:

* `CharacterId` — how characters are told apart;
* `Image`, `Character` — what a character is;
* `Character.setRoute`, `Character.forceRoute`, `Character.restoreRoute` — its routes.

Main results:

* `Character.route_setRoute`, `Character.route_forceRoute` — which route is current;
* `Character.route_restoreRoute_forceRoute` — a forced route put on and taken off again leaves the
  character's own route.
-/
import EventLayer.Geometry
import EventLayer.Route

set_option autoImplicit false
set_option relaxedAutoImplicit false

namespace EventLayer

/-- How the characters on a map are told apart. -/
inductive CharacterId where
  | player
  | event (id : Int)
  /-- A follower, by its place in the party behind the leader. -/
  | follower (place : Nat)
deriving Repr, DecidableEq

/-- What a character looks like: an image from a sheet, or a tile. -/
structure Image where
  name : Json := .str ""
  index : Json := .int 0
  tile : Json := .int 0

/-- The priority of a character that stands in the way of others. -/
def normalPriority : Int := 1

/-- A character on a map. -/
structure Character where
  x : Int := 0
  y : Int := 0
  direction : Int := Direction.down
  through : Bool := false
  priority : Int := normalPriority
  image : Image := {}
  balloon : Int := 0
  /-- Frames to wait before the next step of the route. -/
  waitCount : Nat := 0
  moveSucceeded : Bool := true
  forcing : Bool := false
  /-- Whether the character has moved since this was last asked. -/
  moved : Bool := false
  route : Option Route := none
  routeIndex : Nat := 0
  savedRoute : Option Route := none
  savedIndex : Nat := 0
  /-- Whether a branch of each open chain has been taken, the innermost first; the last entry stands
  for the route itself. -/
  branches : List Bool := [true]
  lastSound : Option String := none
  lastBalloon : Option Int := none

namespace Character

instance : Inhabited Character := ⟨{}⟩

/-- The tile a character stands on. -/
def point (c : Character) : Point := ⟨c.x, c.y⟩

/-- The tile and facing of a character. -/
def pose (c : Character) : Pose := ⟨c.x, c.y, c.direction⟩

/-- Whether a character stands on a tile. -/
def isAt (c : Character) (p : Point) : Bool := c.point == p

/-- Put a character on a tile. -/
def locate (c : Character) (p : Point) : Character := { c with x := p.x, y := p.y }

/-- Turn a character; the code `0` leaves it as it is. -/
def face (c : Character) (d : Int) : Character := if d = 0 then c else { c with direction := d }

/-- Show an image from a sheet. -/
def showImage (c : Character) (name index : Json) : Character :=
  { c with image := { name, index, tile := .int 0 } }

/-- Show a tile. -/
def showTile (c : Character) (tile : Json) : Character := { c with image := { tile } }

/-- Whether a character has normal priority. -/
def isNormal (c : Character) : Bool := c.priority == normalPriority

/-- Take back the mark of having moved. -/
def clearMoved (c : Character) : Character := { c with moved := false }

/-! ### Routes -/

/-- The steps that the character goes through; none where it has no route. -/
def activeRoute (c : Character) : Route := c.route.getD {}

/-- Forget which branches were taken. -/
def resetBranches (c : Character) : Character := { c with branches := [true] }

/-- Give a character a route of its own, from its start. -/
def setRoute (c : Character) (route : Option Route) : Character :=
  { c with route, routeIndex := 0, forcing := false, branches := [true] }

/-- Make a character go through a route.  Its own route is put aside, unless one has been already.
-/
def forceRoute (c : Character) (route : Option Route) : Character :=
  let c := if c.savedRoute.isNone then
      { c with savedRoute := c.route, savedIndex := c.routeIndex }
    else c
  { c with route, routeIndex := 0, forcing := true, waitCount := 0, branches := [true] }

/-- Take up the route that was put aside. -/
def restoreRoute (c : Character) : Character :=
  { c with
    route := c.savedRoute, routeIndex := c.savedIndex, savedRoute := none, forcing := false
    branches := [true] }

@[simp] theorem route_setRoute (c : Character) (route : Option Route) :
    (c.setRoute route).route = route := rfl

@[simp] theorem route_forceRoute (c : Character) (route : Option Route) :
    (c.forceRoute route).route = route := rfl

theorem route_restoreRoute_forceRoute {c : Character} (h : c.savedRoute = none)
    (route : Option Route) :
    ((c.forceRoute route).restoreRoute).route = c.route := by
  simp [forceRoute, restoreRoute, h]

end Character

end EventLayer
