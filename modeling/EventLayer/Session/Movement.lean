/-
**Movement.**

A character steps onto a neighbouring tile if that lies on the map and, unless the character goes
through everything, is not blocked and nobody stands in the way.  Events stand in each other's way
and in the party's; the party does not stand in its own.  A step of the player makes each follower
take the tile that the one ahead has left.  A step that fails touches what stands on the tile, which
may start an event.

Main definitions:

* `Session.canPass`, `Session.isBlockedBy` — whether a step is possible;
* `Session.touch` — the events that a failed step starts;
* `Act.moveStraight`, `Act.moveRandom`, `Act.moveToward`, `Act.moveAway` — steps.

Main results:

* `Session.canPass_isValid` — a possible step stays on the map;
* `followTrail_length` — followers are neither lost nor gained.
-/
import EventLayer.Session.Scope

set_option autoImplicit false
set_option relaxedAutoImplicit false

namespace EventLayer

/-! ### Obstacles -/

/-- Whether an event stands in the way of others. -/
def MapEvent.isSolid (e : MapEvent) : Bool := !e.body.through && e.body.isNormal

namespace Session


/-- Whether an event other than the given one stands in the way on a tile. -/
def eventBlocks (s : Session) (who : CharacterId) (p : Point) : Bool :=
  (s.map.eventsAt p).any fun e => decide (who ≠ .event e.id) && e.isSolid

/-- Whether a member of the party stands on a tile. -/
def partyAt (s : Session) (p : Point) : Bool := s.partyCharacters.any fun c => c.2.isAt p

/-- Whether somebody stands in the way of a character on a tile. -/
def isBlockedBy (s : Session) (who : CharacterId) (p : Point) : Bool :=
  match who with
  | .event _ => s.eventBlocks who p || ((s.character who).isNormal && s.partyAt p)
  | _ => s.eventBlocks who p

/-- Whether a character could step from a tile in a direction. -/
def canPass (s : Session) (who : CharacterId) (p : Point) (d : Int) : Bool :=
  let target := p.step d
  s.map.isValid target &&
    ((s.character who).through || (s.map.isPassable target && !s.isBlockedBy who target))

theorem canPass_isValid {s : Session} {who : CharacterId} {p : Point} {d : Int}
    (h : s.canPass who p d = true) : s.map.isValid (p.step d) = true := by
  simp only [canPass, Bool.and_eq_true] at h
  exact h.1

/-! ### Touching -/

/-- Whether an event is being run or about to be. -/
def isEventRunning (s : Session) : Bool :=
  s.interpreter.isRunning || !s.map.pending.isEmpty || s.map.anyStarting

/-- Whether a character moves without regard to the player. -/
def ignoresPlayer (s : Session) : CharacterId → Bool
  | .event _ => s.stores.behavior == .ignorePlayer
  | _ => false

/-- Start events, in the order of the map, where a test says so and the event has commands. -/
def startWhere (test : MapEvent → Bool) (s : Session) : Session :=
  { s with map.events := s.map.events.mapValues fun e => if test e then e.startIfAny else e }

/-- Whether an event is on a tile, unless it is erased. -/
def standsOn (e : MapEvent) (p : Point) : Bool := !e.erased && e.body.isAt p

/-- What starts when the player bumps into a tile. -/
def playerTouch (p : Point) (s : Session) : Session :=
  if s.isEventRunning then s
  else s.startWhere fun e =>
    standsOn e p && e.body.isNormal && e.isStartedBy MapEvent.touchKinds

/-- Whether an event that tries to step onto a tile is started by what stands there. -/
def touches (s : Session) (e : MapEvent) (p : Point) : Bool :=
  (e.start.isKind .eventTouch && s.player.body.isAt p)
    || (e.start.isKind .partyTouch && s.partyAt p)

/-- What starts when an event bumps into a tile. -/
def eventTouch (id : Int) (p : Point) (s : Session) : Session :=
  if s.isEventRunning || s.ignoresPlayer (.event id) then s
  else
    match s.event? id with
    | some e => if s.touches e p then s.updateEvent id MapEvent.startIfAny else s
    | none => s

/-- What starts when a character bumps into a tile. -/
def touch (who : CharacterId) (p : Point) (s : Session) : Session :=
  match who with
  | .player => s.playerTouch p
  | .event id => s.eventTouch id p
  | .follower _ => s

end Session

/-! ### Followers -/

/-- Each follower takes the tile that the one ahead has left, the first the given one; whoever is
there already stays. -/
def followTrail (trail : Point) : List Character → List Character
  | [] => []
  | c :: rest =>
    let here := c.point
    let c := if here = trail then c
      else { (c.face (Direction.toward here trail)).locate trail with moved := true }
    c :: followTrail here rest

@[simp] theorem followTrail_length (trail : Point) (l : List Character) :
    (followTrail trail l).length = l.length := by
  induction l generalizing trail with
  | nil => rfl
  | cons c rest ih => simp [followTrail, ih]

namespace Session

/-- The followers after a step of the player. -/
def followPlayer (s : Session) : Session :=
  let body := s.player.body
  -- the tile that the player has left lies behind its back
  let o := Direction.offset body.direction
  { s with player.followers := followTrail ⟨body.x - o.x, body.y - o.y⟩ s.player.followers }

/-- What a character's step brings about. -/
def afterStep (who : CharacterId) (s : Session) : Session :=
  match who with
  | .player => s.followPlayer
  | _ => s

end Session

/-! ### Steps -/

namespace Session

/-- A character that has stepped in a direction. -/
def stepped (c : Character) (d : Int) : Character :=
  { (c.face d).locate (c.point.step d) with moved := true, moveSucceeded := true }

/-- A character that has failed to step in a direction. -/
def stuck (c : Character) (d : Int) : Character := { c.face d with moveSucceeded := false }

end Session

namespace Act

open Session

/-- A step in a direction; whether it succeeded. -/
def moveStraight (who : CharacterId) (d : Int) : Act Bool := fun s =>
  let c := s.character who
  if s.canPass who c.point d then
    (true, (s.updateCharacter who fun c => stepped c d).afterStep who)
  else
    (false, (s.updateCharacter who fun c => stuck c d).touch who (c.point.step d))

/-- A step in a direction that is drawn at random; a direction without way is not tried. -/
def moveRandom (who : CharacterId) : Act Bool := fun s =>
  let (n, draws) := s.draws.below 4
  let s := { s with draws }
  -- the four directions are the even codes from two to eight
  let d := 2 + 2 * n
  if s.canPass who (s.character who).point d then moveStraight who d s
  else (false, s.updateCharacter who fun c => { c with moveSucceeded := false })

/-- A step in the direction a character faces. -/
def moveForward (who : CharacterId) : Act Bool := fun s =>
  moveStraight who (s.character who).direction s

/-- A step toward a tile; none where the character is on it. -/
def moveTowardPoint (who : CharacterId) (p : Point) : Act Bool := fun s =>
  let d := Direction.toward (s.character who).point p
  if d = 0 then (false, s) else moveStraight who d s

/-- A step away from a tile; none where the character is on it. -/
def moveAwayFromPoint (who : CharacterId) (p : Point) : Act Bool := fun s =>
  let d := Direction.toward (s.character who).point p
  if d = 0 then (false, s) else moveStraight who (Direction.reverse d) s

/-- A step toward another character. -/
def moveToward (who other : CharacterId) : Act Bool := fun s =>
  moveTowardPoint who (s.character other).point s

/-- A step away from another character. -/
def moveAway (who other : CharacterId) : Act Bool := fun s =>
  moveAwayFromPoint who (s.character other).point s

/-- A step toward the player, or a random one where the player is ignored. -/
def moveTowardPlayer (who : CharacterId) : Act Bool := fun s =>
  if s.ignoresPlayer who then moveRandom who s else moveToward who .player s

/-- A step away from the player, or a random one where the player is ignored. -/
def moveAwayFromPlayer (who : CharacterId) : Act Bool := fun s =>
  if s.ignoresPlayer who then moveRandom who s else moveAway who .player s

/-- Whether a character has moved since this was last asked. -/
def takeMoved (who : CharacterId) : Act Bool := fun s =>
  ((s.character who).moved, s.updateCharacter who Character.clearMoved)

end Act

end EventLayer
