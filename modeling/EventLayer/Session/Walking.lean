/-
**Going through a route.**

In one frame a character takes the next step of its route.  Script lines take no frame: after a
branch marker or an effect the character goes on at the line that follows or that the marker jumps
to.  At its end a route starts over, or, if it was forced, gives way to the route that it
interrupted.  The lines passed in one frame are bounded by the length of the route, so that a route
of markers alone comes to rest.

Main definitions:

* `RouteCondition.holds` — the conditions of branches;
* `Play.runLine` — a script line, and where it leads;
* `Play.takeStep` — a step that takes a frame;
* `Play.walk` — one frame of a route.

Main results:

* `Play.walkLines_zero` — without lines left a frame is over.
-/
import EventLayer.Session.Movement
import EventLayer.Variable

set_option autoImplicit false
set_option relaxedAutoImplicit false

namespace EventLayer

/-! ### Sounds and balloons -/

/-- Play a sound as the editor describes it; a blank one is silent. -/
def Play.playSound (v : Json) : Play Unit := do
  if let some sound ← Sound.read v then
    modify fun s => { s with audio := s.audio ++ [sound] }

namespace Session

/-- Show a balloon over a character. -/
def requestBalloon (who : CharacterId) (id : Int) (s : Session) : Session :=
  let s := s.updateCharacter who fun c => { c with balloon := id }
  { s with scratch.balloons := s.scratch.balloons ++ [(who, id)] }

end Session

/-! ### Conditions -/

/-- A fault that says that a value is no number means that the comparison fails; any other stays. -/
def orFalse (r : Except Fault Bool) : Except Fault Bool :=
  match r with
  | .error .wrongType | .error .notANumber => .ok false
  | r => r

namespace RouteCondition

/-- A fraction in percent. -/
def percent (x : Double) : Double := x * Double.finite 100

/-- Whether a condition holds for a character.  Switches and variables are read as the character's
own; chance takes a draw. -/
def holds (c : RouteCondition) (who : CharacterId) : Play Bool := do
  let s ← get
  let scope := s.scopeOf who
  match c with
  | .const v => return v
  | .switchIs id expected => return s.stores.switchFor scope (some id) == expected
  | .selfSwitchIs channel expected =>
    return s.stores.selfSwitches.isOn (scope.key (.str channel)) == expected
  | .variableIs id relation operand =>
    orFalse do
      let v ← (s.stores.variableFor scope (some id)).toDouble
      return relation.holdsOn v operand
  | .playerWithin distance inside =>
    let near := decide ((s.character who).point.boxDistance s.player.body.point ≤ distance)
    return near == inside
  | .chance p =>
    let (x, draws) := s.draws.fraction
    set { s with draws }
    return (percent x).less p
  | .facing d => return (s.character who).direction == d

end RouteCondition

namespace Play

open Session

/-- Change a character. -/
def onCharacter (who : CharacterId) (f : Character → Character) : Play Unit :=
  modify (updateCharacter who f)

/-! ### Script lines -/

/-- Open a chain of branches, of which none has been taken, and enter it under a condition. -/
def openBranch (who : CharacterId) (route : Route) (i : Nat) (c : RouteCondition) : Play Nat := do
  onCharacter who fun h => { h with branches := false :: h.branches }
  if ← c.holds who then
    onCharacter who fun h => { h with branches := true :: h.branches.tail }
    return i + 1
  return route.failTarget i

/-- An alternative: passed over once a branch of its chain has been taken. -/
def nextBranch (who : CharacterId) (route : Route) (i : Nat) (c : Option RouteCondition) :
    Play Nat := do
  let h := (← get).character who
  -- a marker outside every chain counts as decided
  if h.branches.headD true then return route.leaveTarget i
  let taken ← match c with
    | none => pure true
    | some c => c.holds who
  if taken then
    onCharacter who fun h => { h with branches := true :: h.branches.tail }
    return i + 1
  return route.failTarget i

/-- The end of a chain of branches. -/
def closeBranch (who : CharacterId) (i : Nat) : Play Nat := do
  let h := (← get).character who
  -- the entry of the route itself is never closed
  if 1 < h.branches.length then
    onCharacter who fun h => { h with branches := h.branches.tail }
  else
    note (.endClosesNothing i)
  return i + 1

/-- Play a sound, unless it was the latest one. -/
def changeSound (who : CharacterId) (name : String) (volume pitch : Int) : Play Unit := do
  let h := (← get).character who
  if h.lastSound ≠ some name then
    playSound (.obj (Sound.ofNumbers name volume pitch))
    onCharacter who fun h => { h with lastSound := some name }

/-- Show a balloon and remember it. -/
def showBalloon (who : CharacterId) (id : Int) : Play Unit := do
  modify (requestBalloon who id)
  onCharacter who fun h => { h with lastBalloon := some id }

/-- Show a balloon, unless it was the latest one. -/
def changeBalloon (who : CharacterId) (id : Int) : Play Unit := do
  if ((← get).character who).lastBalloon ≠ some id then showBalloon who id

/-- Carry out the script line at a position: the position to go on at. -/
def runLine (who : CharacterId) (route : Route) (i : Nat) (line : RouteInstruction) : Play Nat := do
  match line with
  | .openIf c => openBranch who route i c
  | .orElse c => nextBranch who route i c
  | .endIf => closeBranch who i
  | .setSound name volume pitch =>
    changeSound who name volume pitch
    return i + 1
  | .unsetSound =>
    onCharacter who fun h => { h with lastSound := none }
    return i + 1
  | .setBalloon id =>
    changeBalloon who id
    return i + 1
  | .unsetBalloon =>
    onCharacter who fun h => { h with lastBalloon := none }
    return i + 1
  | .showBalloon id =>
    showBalloon who id
    return i + 1

/-! ### Steps that take a frame -/

/-- Take a step of a route. -/
def takeStep (who : CharacterId) (m : Move) : Play Unit := do
  onCharacter who fun c => { c with moveSucceeded := true }
  match m with
  | .step d => discard (Act.moveStraight who d)
  | .random => discard (Act.moveRandom who)
  | .towardPlayer => discard (Act.moveTowardPlayer who)
  | .awayFromPlayer => discard (Act.moveAwayFromPlayer who)
  | .forward => discard (Act.moveForward who)
  | .wait frames => onCharacter who fun c => { c with waitCount := frames }
  | .turn d => onCharacter who (·.face d)
  | .playSound sound => playSound (.obj sound)
  | .idle => pure ()
  | .faulty e => throw e

/-! ### Routes -/

/-- Give a character a route of its own. -/
def setRoute (who : CharacterId) (route : Json) : Play Unit := do
  let route ← Route.read route
  onCharacter who (·.setRoute route)

/-- Make a character go through a route. -/
def forceRoute (who : CharacterId) (route : Json) : Play Unit := do
  let route ← Route.read route
  onCharacter who (·.forceRoute route)

/-- Take up the route that was put aside; what is wrong with it is noticed again. -/
def restoreRoute (who : CharacterId) : Play Unit := do
  let saved := ((← get).character who).savedRoute
  modify fun s => { s with notices := s.notices ++ (saved.getD {}).notices }
  onCharacter who Character.restoreRoute

/-- The end of a route: whether the frame is over. -/
def finishRoute (who : CharacterId) : Play Bool := do
  let c := (← get).character who
  if c.activeRoute.repeats then
    onCharacter who fun c => { c with routeIndex := 0, branches := [true] }
    return false
  if c.forcing then restoreRoute who
  return true

/-- Go on along a route past at most a number of lines. -/
def walkLines (who : CharacterId) (route : Route) : Nat → Play Unit
  | 0 => pure ()
  | budget + 1 => do
    let i := ((← get).character who).routeIndex
    match route.steps[i]? with
    | none =>
      if ← finishRoute who then return
      walkLines who route budget
    | some .finish =>
      -- what stands behind the end is never reached
      onCharacter who fun c => { c with routeIndex := route.length }
      if ← finishRoute who then return
      walkLines who route budget
    | some (.script line) =>
      let next ← runLine who route i line
      onCharacter who fun c => { c with routeIndex := next }
      walkLines who route budget
    | some (.move m) =>
      takeStep who m
      -- a blocked step is tried again in the next frame, unless it may be passed over
      if ((← get).character who).moveSucceeded || route.skippable then
        onCharacter who fun c => { c with routeIndex := c.routeIndex + 1 }

@[simp] theorem walkLines_zero (who : CharacterId) (route : Route) :
    walkLines who route 0 = pure () := rfl

/-- One frame of a character's route. -/
def walk (who : CharacterId) : Play Unit := do
  let c := (← get).character who
  if 0 < c.waitCount then
    onCharacter who fun c => { c with waitCount := c.waitCount - 1 }
  else
    walkLines who c.activeRoute (c.activeRoute.length + 1)

end Play

end EventLayer
