/-
**Tiles, directions and distances.**

A map is a grid of tiles; `x` grows to the right and `y` downward.  A direction is one of the codes
`2` (down), `4` (left), `6` (right) and `8` (up); any other code stands for staying in place.

Main definitions:

* `Point`, `Pose` — a tile, and a tile with a facing;
* `Direction.offset`, `Direction.reverse`, `Direction.rightOf`, `Direction.toward` — directions;
* `Point.boxDistance`, `Point.taxiDistance` — distances;
* `Point.shift` — a tile moved ahead and to the right of a facing.

Main results:

* `Direction.reverse_reverse` — turning round twice;
* `Direction.offset_reverse` — stepping back undoes a step;
* `Point.boxDistance_eq_zero_iff` — the distance vanishes exactly on the tile itself.
-/

set_option autoImplicit false
set_option relaxedAutoImplicit false

namespace EventLayer

/-- A tile of a map. -/
structure Point where
  x : Int
  y : Int
deriving Repr, DecidableEq, Inhabited

/-- A tile together with the direction that someone on it faces. -/
structure Pose where
  x : Int
  y : Int
  direction : Int
deriving Repr, DecidableEq

/-- The tile of a pose. -/
def Pose.point (p : Pose) : Point := ⟨p.x, p.y⟩

namespace Direction

/-- Toward greater `y`. -/
def down : Int := 2

/-- Toward smaller `x`. -/
def left : Int := 4

/-- Toward greater `x`. -/
def right : Int := 6

/-- Toward smaller `y`. -/
def up : Int := 8

/-- Whether a code is one of the four directions. -/
def isFourWay (d : Int) : Bool := d == down || d == left || d == right || d == up

/-- The step that a direction stands for. -/
def offset (d : Int) : Point :=
  if d = down then ⟨0, 1⟩
  else if d = left then ⟨-1, 0⟩
  else if d = right then ⟨1, 0⟩
  else if d = up then ⟨0, -1⟩
  else ⟨0, 0⟩

/-- The opposite direction. -/
def reverse (d : Int) : Int := if isFourWay d then 10 - d else d

/-- The direction to the right of someone who faces `d`. -/
def rightOf (d : Int) : Int :=
  if d = down then left
  else if d = left then up
  else if d = up then right
  else if d = right then down
  else d

/-- The direction that best closes the gap from one tile to another: along the longer side, along
the column when both are equal, and `0` when there is no gap. -/
def toward (a b : Point) : Int :=
  let dx := b.x - a.x
  let dy := b.y - a.y
  if dx = 0 ∧ dy = 0 then 0
  else if dy.natAbs < dx.natAbs then (if 0 < dx then right else left)
  else if 0 < dy then down else up

theorem reverse_reverse (d : Int) : reverse (reverse d) = d := by
  unfold reverse isFourWay down left right up
  grind

theorem offset_reverse (d : Int) :
    offset (reverse d) = ⟨-(offset d).x, -(offset d).y⟩ := by
  unfold reverse isFourWay offset down left right up
  grind

end Direction

namespace Point

/-- The side of the smallest square around both tiles, less one. -/
def boxDistance (a b : Point) : Nat := max (a.x - b.x).natAbs (a.y - b.y).natAbs

/-- The number of steps between two tiles. -/
def taxiDistance (a b : Point) : Nat := (a.x - b.x).natAbs + (a.y - b.y).natAbs

/-- The tile `forward` steps ahead and `rightward` steps to the right of someone who faces `d`. -/
def shift (p : Point) (d forward rightward : Int) : Point :=
  let f := Direction.offset d
  let r := Direction.offset (Direction.rightOf d)
  ⟨p.x + f.x * forward + r.x * rightward, p.y + f.y * forward + r.y * rightward⟩

/-- The neighbouring tile in a direction. -/
def step (p : Point) (d : Int) : Point :=
  let o := Direction.offset d
  ⟨p.x + o.x, p.y + o.y⟩

@[simp] theorem boxDistance_self (a : Point) : boxDistance a a = 0 := by simp [boxDistance]

theorem boxDistance_comm (a b : Point) : boxDistance a b = boxDistance b a := by
  unfold boxDistance
  omega

theorem boxDistance_eq_zero_iff (a b : Point) : boxDistance a b = 0 ↔ a = b := by
  obtain ⟨ax, ay⟩ := a
  obtain ⟨bx, «by»⟩ := b
  simp only [boxDistance, Point.mk.injEq]
  omega

/-- Moving nowhere stays on the tile. -/
@[simp] theorem shift_zero (p : Point) (d : Int) : p.shift d 0 0 = p := by
  simp [shift]

end Point

end EventLayer
