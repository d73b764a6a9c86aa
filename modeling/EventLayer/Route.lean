/-
**Move routes.**

A move route is a list of steps that a character goes through: movements, turns, waits, sounds, and
script lines.  The branch markers among the script lines are paired once per route, as brackets are,
so that a branch that is not taken is left in one jump to the next marker of its chain.

Main definitions:

* `Move` — a step that takes a frame;
* `RouteStep` — a step, a script line, or the end of the route;
* `MarkerKind`, `Pairing` — the pairing of branch markers;
* `Route`, `Route.read` — a route from the editor's data;
* `Route.failTarget`, `Route.leaveTarget` — where a marker jumps to.

Main results:

* `Pairing.ofKinds_nil` — a route without markers has no jumps.
-/
import EventLayer.Route.Script
import EventLayer.Sound

set_option autoImplicit false
set_option relaxedAutoImplicit false

namespace EventLayer

/-! ### Steps -/

/-- A step of a move route that takes a frame. -/
inductive Move where
  | step (direction : Int)
  | random
  | towardPlayer
  | awayFromPlayer
  | forward
  /-- Stay for a number of frames more. -/
  | wait (frames : Nat)
  | turn (direction : Int)
  | playSound (sound : Sound)
  /-- A step that does nothing. -/
  | idle
  /-- A step whose parameters have the wrong shape. -/
  | faulty (reason : Fault)

namespace Move

/-- The first parameter of a step, if it has any. -/
def firstParam? (params : Json) : Except Fault (Option Json) :=
  if params.truthy then return some (← params.item 0) else return none

/-- The step with a given code and parameters. -/
def read (code : Option Int) (params : Json) : Except Fault Move :=
  match code with
  | some 1 => .ok (.step Direction.down)
  | some 2 => .ok (.step Direction.left)
  | some 3 => .ok (.step Direction.right)
  | some 4 => .ok (.step Direction.up)
  | some 9 => .ok .random
  | some 10 => .ok .towardPlayer
  | some 11 => .ok .awayFromPlayer
  | some 12 => .ok .forward
  | some 15 => return .wait ((← ((← firstParam? params).getD (.int 0)).toInt) - 1).toNat
  | some 16 => .ok (.turn Direction.down)
  | some 17 => .ok (.turn Direction.left)
  | some 18 => .ok (.turn Direction.right)
  | some 19 => .ok (.turn Direction.up)
  | some 44 => do
    match ← firstParam? params with
    | none => return .idle
    | some v =>
      match ← Sound.read v with
      | none => return .idle
      | some sound => return .playSound sound
  | some 45 => do
    -- a script line that nobody reads does nothing, but its text is looked at
    let _ ← firstParam? params
    return .idle
  | _ => .ok .idle

/-- The step that the fields of a command describe, its fault put off until it is taken. -/
def ofFields (fields : List (String × Json)) : Move :=
  let code := ((OrderedMap.find "code" fields).getD .null).asKey
  match code.bind fun c => read c.whole? (PluginCall.paramsOf fields) with
  | .ok m => m
  | .error e => .faulty e

end Move

/-- A step of a route. -/
inductive RouteStep where
  | move (m : Move)
  | script (i : RouteInstruction)
  /-- The end of the route. -/
  | finish

/-! ### Branch markers -/

/-- The parts of a chain of branches. -/
inductive MarkerKind where
  | opening
  | alternative
  | closing
deriving Repr, DecidableEq

/-- The part that an instruction plays in a chain of branches. -/
def RouteInstruction.marker? : RouteInstruction → Option MarkerKind
  | .openIf _ => some .opening
  | .orElse _ => some .alternative
  | .endIf => some .closing
  | _ => none

/-- The part that a step plays in a chain of branches. -/
def RouteStep.marker? : RouteStep → Option MarkerKind
  | .script i => i.marker?
  | _ => none

/-- The jumps between branch markers, by position. -/
structure Pairing where
  /-- From a marker to the next one of its chain. -/
  next : List (Nat × Nat) := []
  /-- From a marker to the end of its chain. -/
  ends : List (Nat × Nat) := []
deriving Repr, DecidableEq

namespace Pairing

/-- The jumps of one chain, given by the positions of its markers, that ends at `stop`. -/
def link (chain : List Nat) (stop : Nat) (p : Pairing) : Pairing :=
  { next := p.next ++ chain.zip chain.tail
    ends := p.ends ++ chain.map fun i => (i, stop) }

/-- What a pass over the markers of a route has found so far: the chains still open, the innermost
first, the jumps, and what was wrong. -/
structure Pass where
  chains : List (List Nat) := []
  found : Pairing := {}
  notices : List Notice := []

/-- The next marker of the route. -/
def Pass.step (p : Pass) (marker : Nat × MarkerKind) : Pass :=
  let (i, kind) := marker
  match kind, p.chains with
  | .opening, chains => { p with chains := [i] :: chains }
  | .alternative, chain :: rest => { p with chains := (chain ++ [i]) :: rest }
  | .alternative, [] => { p with notices := p.notices ++ [.elseWithoutIf i] }
  | .closing, chain :: rest => { p with chains := rest, found := p.found.link (chain ++ [i]) i }
  | .closing, [] => { p with notices := p.notices ++ [.endWithoutIf i] }

/-- The end of a route of a given length: chains still open end there. -/
def Pass.finish (p : Pass) (length : Nat) : Pass :=
  p.chains.reverse.foldl (fun p chain =>
    { p with
      found := p.found.link chain length
      notices := p.notices ++ (chain.head?.map Notice.ifNeverClosed).toList }) p

/-- The positions of the markers in a sequence of steps, in order. -/
def positions (kinds : List (Option MarkerKind)) : List (Nat × MarkerKind) :=
  kinds.zipIdx.filterMap fun e => e.1.map fun k => (e.2, k)

/-- The pairing of a sequence of steps, of which some are markers. -/
def ofKinds (kinds : List (Option MarkerKind)) : Pass :=
  ((positions kinds).foldl Pass.step {}).finish kinds.length

@[simp] theorem ofKinds_nil : (ofKinds []).found = {} := rfl

end Pairing

/-! ### Routes -/

/-- A move route with its markers paired. -/
structure Route where
  steps : List RouteStep := []
  pairing : Pairing := {}
  /-- Whether the route starts over at its end. -/
  repeats : Bool := false
  /-- Whether a blocked step is passed over. -/
  skippable : Bool := false
  /-- Whether the event that forces the route waits for its end. -/
  awaited : Bool := false
  /-- What was wrong with the route's script lines. -/
  notices : List Notice := []

namespace Route

/-- The number of steps. -/
def length (r : Route) : Nat := r.steps.length

/-- The script line at a position. -/
def instruction? (r : Route) (i : Nat) : Option RouteInstruction :=
  match r.steps[i]? with
  | some (.script s) => some s
  | _ => none

/-- Where a marker jumps whose chain has been decided: to the end of the chain. -/
def leaveTarget (r : Route) (i : Nat) : Nat := (r.pairing.ends.lookup i).getD r.length

/-- Where a marker jumps whose condition fails: to the next marker of its chain, if there is one. -/
def failTarget (r : Route) (i : Nat) : Nat := (r.pairing.next.lookup i).getD (r.leaveTarget i)

/-- The code of a script line. -/
def scriptCode : Int := 45

/-- The code of the end of a route. -/
def endCode : Int := 0

/-- The script line at position `i` with a given text: none where it is not this layer's or cannot
be read. -/
def readScript (i : Nat) (text : String) : Reading (Option RouteInstruction) :=
  match RouteInstruction.parse (some text) with
  | .ok found => return found
  | .error (.invalidScript reason) =>
    match RouteInstruction.neverTaken? text with
    | some marker => do
      Reading.note (.routeBranchNeverTaken i reason)
      return some marker
    | none => do
      Reading.note (.routeLineIgnored i reason)
      return none
  | .error e => throw e

/-- The step at position `i`. -/
def readStep (i : Nat) (command : Json) : Reading RouteStep :=
  match command with
  | .obj fields => do
    let code := (OrderedMap.find "code" fields).getD .null
    if code.isInt scriptCode then
      let given := (OrderedMap.find "parameters" fields).getD .null
      let text := (← (given.orElse (.arr [.str ""])).item 0).text
      match ← readScript i text with
      | some found => return .script found
      | none => return .move (Move.ofFields fields)
    else if code.isInt endCode then return .finish
    else return .move (Move.ofFields fields)
  | _ => throw .notAnObject

/-- The steps from position `i` on. -/
def readSteps (i : Nat) : List Json → Reading (List RouteStep)
  | [] => return []
  | c :: rest => do
    let s ← readStep i c
    return s :: (← readSteps (i + 1) rest)

/-- The route with given steps, its markers paired. -/
def ofSteps (steps : List RouteStep) (repeats skippable awaited : Bool) (notices : List Notice) :
    Route :=
  let paired := Pairing.ofKinds (steps.map RouteStep.marker?)
  { steps, pairing := paired.found, repeats, skippable, awaited,
    notices := notices ++ paired.notices }

/-- A route from the fields of an object.  What is wrong with its script lines is kept with it. -/
def ofFields (fields : List (String × Json)) : Reading Route :=
  let flag (name : String) : Bool := ((OrderedMap.find name fields).getD .null).truthy
  let list := ((OrderedMap.find "list" fields).getD .null).orElse (.arr [])
  let steps : Reading (List RouteStep) := do readSteps 0 (← list.elements)
  match steps.result with
  | .error e => ⟨steps.notices, .error e⟩
  | .ok found =>
    let route := ofSteps found (flag "repeat") (flag "skippable") (flag "wait") steps.notices
    ⟨route.notices, .ok route⟩

/-- A route from the editor's data.  Null is no route; any other blank value is an empty one. -/
def read (v : Json) : Reading (Option Route) :=
  match v with
  | .null => return none
  | .obj fields => return some (← ofFields fields)
  | v => if v.truthy then throw .notAnObject else return some {}

end Route

end EventLayer
