/-
**Running a game, frame by frame.**

In every frame the map goes first: pages are chosen anew if need be, the command lists run until
they wait, and then the events move in the order of the map.  The player comes last, and what its
arrival on a tile starts.

A command list runs until it waits for frames, for a route, or for a common event that it has
called.  When the map's own list has ended, the next one begins: what map setup queued, then
reserved common events, then events that were started, then those that run by themselves.  In one
frame a hundred lists can begin.

Main definitions:

* `Play.step` — the next command of a list;
* `Play.runFrame`, `Play.runInterpreter` — running lists until they wait;
* `Play.startNext` — the list that begins next;
* `Play.advanceMap`, `Play.advancePlayer`, `Play.advance` — a frame.

Main results:

* `Play.runFrame_zero` — beyond the limit of nesting nothing runs.
-/
import EventLayer.Session.Commands

set_option autoImplicit false
set_option relaxedAutoImplicit false

namespace EventLayer

namespace Play

open Session

/-! ### Commands -/

/-- Forget the choices made at a greater indentation. -/
def forgetDeeper (indent : Int) (m : OrderedMap Int Nat) : OrderedMap Int Nat :=
  ⟨m.entries.filter fun e => e.1 ≤ indent⟩

/-- Begin a command: its indentation is that of the list, and deeper random choices are over. -/
def beginCommand (c : EventCommand) (f : Frame) : Frame :=
  { f with indent := c.indent, selections := forgetDeeper c.indent f.selections }

/-- Carry out the next command of the list at a depth; a list without a next command ends. -/
def step (d : Nat) : Play Unit := do
  match ((← get).frame d).current? with
  | none => modify fun s => (s.updateFrame d Frame.terminate).updateInterpreter fun i => i.cut d
  | some c =>
    -- what is no command has no indentation to begin with
    if c.instruction matches .faulty .notAnObject then throw .notAnObject
    modify (updateFrame d (beginCommand c))
    let next ← carryOut d c.instruction
    modify (updateFrame d fun f => { f with index := next })

/-! ### Waiting -/

/-- Whether the list at a depth waits in this frame. -/
def waits (d : Nat) : Play Bool := do
  let s ← get
  let f := s.frame d
  -- frames are counted down before the forced route is looked at
  if 0 < f.waitCount then
    modify (updateFrame d fun f => { f with waitCount := f.waitCount - 1 })
    return true
  match f.awaited with
  | none => return false
  | some who =>
    if (s.character who).forcing then return true
    modify (updateFrame d fun f => { f with awaited := none })
    return false

/-! ### Command lists -/

/-- Whether the list at a depth has called a common event that has not ended: that is run first. -/
def runCallee (runNested : Play Unit) (d : Nat) : Play Bool := do
  if (← get).interpreter.nested.length ≤ d then return false
  runNested
  if ((← get).frame (d + 1)).isRunning then return true
  modify (updateInterpreter fun i => i.cut d)
  return false

/-- Run the list at a depth for at most a number of commands, given how a list that it calls is
run. -/
def runCommands (runNested : Play Unit) (d : Nat) : Nat → Play Unit
  | 0 => throw .endless
  | budget + 1 => do
    if !((← get).frame d).isRunning then return
    -- the list that was called goes first, and waiting starts only after it has ended
    if ← runCallee runNested d then return
    if ← waits d then return
    step d
    runCommands runNested d budget

/-- The number of commands after which a list is taken never to end: far more than a list has, since
a list without negative indentation carries out none of its commands twice. -/
def patience (length : Nat) : Nat := 1000000 * (length + 2)

/-- Run the list at a depth until it waits or ends, with at most a number of lists nested in each
other. -/
def runFrame : Nat → Nat → Play Unit
  | 0, _ => throw .nestedTooDeeply
  | levels + 1, d => asActive d do
    runCommands (runFrame levels (d + 1)) d (patience ((← get).frame d).list.length)

@[simp] theorem runFrame_zero (d : Nat) : runFrame 0 d = throw .nestedTooDeeply := rfl

/-- How many lists can be nested in each other: far more than there are, with one more for each common
event. -/
def nestingLimit (s : Session) : Nat :=
  500 + s.interpreter.nested.length + s.game.database.commonEntries.length

/-- Run the map's command list, and those called from it, until they wait or end. -/
def runInterpreter : Play Unit := do
  runFrame (nestingLimit (← get)) 0

/-! ### What runs next -/

/-- Begin a command list for an event. -/
def setupInterpreter (list : Json) (event : Int) : Play Unit := do
  modify (updateInterpreter Interpreter.clear)
  let frame ← openFrame list event
  modify (updateInterpreter fun _ => { root := frame })

/-- Begin the first list that map setup queued; whether there is one. -/
def startPending : Play Bool := do
  match (← get).map.pending with
  | [] => return false
  | run :: rest =>
    modify fun s => { s with map.pending := rest }
    setupInterpreter run.list run.event
    return true

/-- Take the first reserved common event, and begin it if it exists; whether it does. -/
def startReserved : Play Bool := do
  match (← get).scratch.reserved with
  | [] => return false
  | id :: rest =>
    modify fun s => { s with scratch.reserved := rest }
    let db := (← get).game.database
    -- a common event that does not exist is dropped, and other kinds get their turn
    match if id = 0 then none else db.commonEvent? (.int id) with
    | none => return false
    | some entry =>
      setupInterpreter (CommonEvent.listOf entry) 0
      return true

/-- Begin the first event that was started; whether there is one. -/
def startEvent : Play Bool := do
  match (← get).map.eventList.find? (·.starting) with
  | none => return false
  | some e =>
    modify (updateEvent e.id MapEvent.clearStarting)
    setupInterpreter e.list e.id
    return true

/-- Begin the first event that runs by itself; whether there is one. -/
def startAutorun : Play Bool := do
  match (← get).map.eventList.find? fun e => e.start.isKind .autorun && e.list.truthy with
  | none => return false
  | some e =>
    setupInterpreter e.list e.id
    return true

/-- Begin the first of several common events that runs by itself; whether there is one. -/
def startCommon : List CommonEvent → Play Bool
  | [] => return false
  | c :: rest => do
    if ← isAutorun c then
      let db := (← get).game.database
      setupInterpreter (CommonEvent.listOf (commonEntry db c.id)) 0
      return true
    startCommon rest

/-- Begin the command list that comes next; whether there is one. -/
def startNext : Play Bool := do
  if (← get).map.needsRefresh then refreshMap
  -- each kind of list is begun only when none of the kinds before it is left
  if ← startPending then return true
  if ← startReserved then return true
  if ← startEvent then return true
  if ← startAutorun then return true
  startCommon (← commonEvents)

/-- Run command lists until one waits or none is left, beginning at most a number of them. -/
def runLists : Nat → Play Unit
  | 0 => pure ()
  | rounds + 1 => do
    runInterpreter
    if (← get).interpreter.isRunning then return
    if ← startNext then runLists rounds

/-- How many lists can begin in one frame. -/
def maxRounds : Nat := 100

/-- Run command lists for one frame. -/
def advanceLists : Play Unit := runLists maxRounds

/-! ### Frames -/

/-- A movement of an event's own: at random, toward the player, or along its route. -/
def moveOnItsOwn (e : MapEvent) : Play Unit := do
  let who := CharacterId.event e.id
  if e.moveType = 1 then discard (Act.moveRandom who)
  else if e.moveType = 2 then discard (Act.moveTowardPlayer who)
  else if e.moveType = MapEvent.routeMoveType then walk who

/-- The movement of an event's own; it rests between two of them. -/
def updateOwnMovement (e : MapEvent) : Play Unit := do
  if e.moveType = 0 then return
  -- the rest counts frames, and the frame of the movement itself is one of them
  let rested := e.stopCount + 1
  if rested < e.restLimit then
    modify (updateEvent e.id fun e => { e with stopCount := rested })
  else
    modify (updateEvent e.id fun e => { e with stopCount := 0 })
    moveOnItsOwn e

/-- A frame of an event: a forced route goes before its own movement, which can be held. -/
def advanceEvent (id : Int) : Play Unit := do
  let s ← get
  match s.event? id with
  | none => return
  | some e =>
    if e.erased then return
    if e.body.forcing then walk (.event id)
    else if s.stores.behavior = .freeze then return
    else updateOwnMovement e

/-- A frame of several events, in order. -/
def advanceEvents : List Int → Play Unit
  | [] => pure ()
  | id :: rest => do
    advanceEvent id
    advanceEvents rest

/-- A frame of the map. -/
def advanceMap : Play Unit := do
  if (← get).map.needsRefresh then refreshMap
  advanceLists
  -- the lists may have set up another map: the events that move are those of the new one
  advanceEvents ((← get).map.eventList.map (·.id))

/-- What starts under the player: events that do not stand in the way and are started by touch. -/
def touchHere : Play Unit :=
  modify fun s =>
    if s.isEventRunning then s
    else s.startWhere fun e =>
      standsOn e s.player.body.point && !e.body.isNormal && e.isStartedBy MapEvent.touchKinds

/-- Whether a follower has moved since this was last asked, and the follower with this forgotten. -/
def takeMoved (visible : Nat → Bool) (l : List Character) : List (Bool × Character) :=
  l.zipIdx.map fun e =>
    if visible (e.2 + 1) then (e.1.moved, e.1.clearMoved) else (false, e.1)

/-- What starts under the followers that are seen and have moved. -/
def touchFollowers : Play Unit :=
  modify fun s =>
    if s.isEventRunning then s
    else
      -- asking takes the marks back, so that one step of a follower starts nothing twice
      let asked := takeMoved s.followerVisible s.player.followers
      let tiles := (asked.filter (·.1)).map fun e => e.2.point
      let s := { s with player.followers := asked.map Prod.snd }
      s.startWhere fun e =>
        tiles.any (standsOn e) && e.start.isKind .partyTouch

/-- Whether the player's region differs from the one it was last seen in, which it replaces. -/
def regionChanged : Play Bool := do
  let region ← playerRegion
  let last := (← get).player.lastRegion
  modify fun s => { s with player.lastRegion := region }
  return region != last

/-- The player has arrived on a tile. -/
def arrive : Play Unit := do
  if (← get).isEventRunning then return
  touchHere
  touchFollowers
  -- the region is noted even where what was touched keeps its events from starting
  if ← regionChanged then enterRegion (some (← get).player.lastRegion)

/-- A frame of the player. -/
def advancePlayer : Play Unit := do
  if (← get).player.body.forcing then walk .player
  -- the mark of the step is taken back whether or not anything starts
  if ← Act.takeMoved .player then arrive

/-- A frame of a game. -/
def advance : Play Unit := do
  advanceMap
  advancePlayer

/-- Several frames of a game. -/
def advanceBy : Nat → Play Unit
  | 0 => pure ()
  | n + 1 => do
    advance
    advanceBy n

end Play

end EventLayer
