/-
**The state of a running game.**

A session is everything that changes while a game runs, beside the game itself, which does not. 
What a save keeps stands apart from what is only remembered until the next one, and the map
interpreter stands apart from both: it runs one command list, and a common event called from it runs
above it, so that the lists being run form a stack.

Main definitions:

* `Game` — the parts that do not change;
* `Stores`, `Scratch`, `Player` — what is saved, what is not, and the party on the map;
* `Frame`, `Interpreter` — a command list being run, and the stack of them;
* `Session` — the whole state;
* `Play` — an operation on a session that may fail.

Main results:

* `Interpreter.frame_top`, `Interpreter.nested_push` — the innermost list.
-/
import EventLayer.Database
import EventLayer.Draws
import EventLayer.Map.State
import EventLayer.Store.Origins
import EventLayer.Store.Party
import EventLayer.Store.ScopedTable
import EventLayer.Treasure
import EventLayer.WeightTable

set_option autoImplicit false
set_option relaxedAutoImplicit false

namespace EventLayer

/-- The parts of a game that do not change while it runs. -/
structure Game where
  database : Database := {}
  config : Config := {}
  /-- The map file that a value names by its number, if it holds a map. -/
  mapFile : Json → Except Fault (Option Json) := fun _ => .ok none

/-! ### What is saved and what is not -/

/-- What a save keeps. -/
structure Stores where
  switchTable : ScopedTable := {}
  variableTable : ScopedTable := {}
  selfSwitches : SelfStore := {}
  selfVariables : SelfStore := {}
  origins : Origins := {}
  party : Party := {}
  behavior : RouteBehavior := .normal

/-- The stores of a game that begins. -/
def Stores.fresh (g : Game) : Stores where
  switchTable := { selfIds := g.database.selfSwitches }
  variableTable := { selfIds := g.database.selfVariables }
  behavior := g.config.behavior

/-- What is remembered only until the next start or load. -/
structure Scratch where
  /-- The common events that wait to be run. -/
  reserved : List Int := []
  treasure : Option Treasure := none
  messages : List String := []
  balloons : List (CharacterId × Int) := []

/-- The party on the map: its leader, whom the player moves, and those behind. -/
structure Player where
  body : Character := {}
  followers : List Character := []
  /-- The region that the leader was last seen in. -/
  lastRegion : Int := 0

/-! ### Command lists being run -/

/-- The event that a command list acts for; zeros stand for none. -/
structure EventLink where
  event : Int := 0
  /-- The number of the map, as the link has found it in the data. -/
  map : Json := .int 0
deriving Repr

/-- Whether a link points to an event. -/
def EventLink.isSet (l : EventLink) : Bool := decide (0 < l.event) && l.map.isPositive

/-- A command list being run. -/
structure Frame where
  map : Int := 0
  event : Int := 0
  /-- The commands; none when nothing is run. -/
  commands : Option (List EventCommand) := none
  /-- The position of the next command; one before the first counts from the end of the list. -/
  index : Int := 0
  /-- The indentation of the latest command. -/
  indent : Int := 0
  /-- Frames to wait before going on. -/
  waitCount : Int := 0
  /-- The character whose forced route has to end first. -/
  awaited : Option CharacterId := none
  /-- The latest outcome of a conditional branch at each indentation. -/
  outcomes : OrderedMap Int Bool := ∅
  link : EventLink := {}
  table : WeightTable := {}
  /-- The branch chosen in the open random choice at each indentation. -/
  selections : OrderedMap Int Nat := ∅

namespace Frame

instance : Inhabited Frame := ⟨{}⟩

/-- Whether a command list is being run. -/
def isRunning (f : Frame) : Bool := f.commands.isSome

/-- The commands, none when nothing is run. -/
def list (f : Frame) : List EventCommand := f.commands.getD []

/-- The place of the next command, counted from the start of the list. -/
def place (f : Frame) : Nat := (if f.index < 0 then f.index + f.list.length else f.index).toNat

/-- The command to be carried out next; a list ends at a blank. -/
def current? (f : Frame) : Option EventCommand :=
  f.list[f.place]?.filter fun c => !c.instruction matches .blank

/-- The commands that follow the position of the next one. -/
def following (f : Frame) : List EventCommand := f.list.drop (f.index + 1).toNat

/-- Nothing being run and nothing remembered; the table of the latest list stays. -/
def clear (f : Frame) : Frame := { table := f.table }

/-- The list has come to its end.  Where it stood stays known, what it acted for is forgotten. -/
def terminate (f : Frame) : Frame := { f with commands := none, link := {}, selections := ∅ }

theorem place_of_nonneg {f : Frame} {i : Nat} (h : f.index = i) : f.place = i := by
  have hi : ¬(i : Int) < 0 := by omega
  simp [place, h, hi]

@[simp] theorem isRunning_clear (f : Frame) : f.clear.isRunning = false := rfl

@[simp] theorem isRunning_terminate (f : Frame) : f.terminate.isRunning = false := rfl

end Frame

/-- The stack of command lists being run: the map's own, and the common events called from it, the
outermost first. -/
structure Interpreter where
  root : Frame := {}
  nested : List Frame := []

namespace Interpreter

instance : Inhabited Interpreter := ⟨{}⟩

/-- Whether a command list is being run. -/
def isRunning (i : Interpreter) : Bool := i.root.isRunning

/-- The list at a depth; the map's own is at depth zero. -/
def frame (i : Interpreter) : Nat → Frame
  | 0 => i.root
  | d + 1 => i.nested.getD d {}

/-- Change the list at a depth. -/
def modify (i : Interpreter) (f : Frame → Frame) : Nat → Interpreter
  | 0 => { i with root := f i.root }
  | d + 1 => { i with nested := i.nested.modify d f }

/-- Drop the lists called from a depth. -/
def cut (i : Interpreter) (d : Nat) : Interpreter := { i with nested := i.nested.take d }

/-- Run a list above the one at a depth, in place of those called from there. -/
def push (i : Interpreter) (d : Nat) (f : Frame) : Interpreter :=
  { i with nested := i.nested.take d ++ [f] }

/-- Nothing being run. -/
def clear (i : Interpreter) : Interpreter := { root := i.root.clear }

@[simp] theorem frame_zero (i : Interpreter) : i.frame 0 = i.root := rfl

@[simp] theorem root_push (i : Interpreter) (d : Nat) (f : Frame) : (i.push d f).root = i.root :=
  rfl

theorem frame_push_self {i : Interpreter} {d : Nat} (h : d ≤ i.nested.length) (f : Frame) :
    (i.push d f).frame (d + 1) = f := by
  simp [push, frame, List.getD_eq_getElem?_getD, List.length_take,
    Nat.min_eq_left h]

end Interpreter

/-! ### The whole state -/

/-- The state of a running game. -/
structure Session where
  game : Game := {}
  draws : Draws := {}
  stores : Stores := {}
  scratch : Scratch := {}
  /-- The sounds that were played, in order. -/
  audio : List Sound := []
  followersVisible : Bool := true
  map : MapState := {}
  player : Player := {}
  interpreter : Interpreter := {}
  /-- The entities for which switches and variables are read, the innermost first. -/
  scopes : List Scope := []
  /-- The depth of the command list that is carrying out a command. -/
  active : Option Nat := none
  /-- The notices left so far, in order. -/
  notices : List Notice := []

instance : Inhabited Session := ⟨{}⟩

/-- The session of a game in which nothing has happened. -/
def Session.begin (g : Game) (draws : Draws) : Session where
  game := g
  draws := draws
  stores := Stores.fresh g

/-- An operation on a session that may fail; what it did before it failed stays done. -/
abbrev Play (α : Type) := EStateM Fault Session α

/-- An operation that cannot fail. -/
abbrev Act (α : Type) := StateM Session α

namespace Play

/-- An operation that cannot fail, among those that may. -/
def ofAct {α : Type} (a : Act α) : Play α := fun s =>
  let (x, t) := a s
  .ok x t

instance : MonadLift (StateM Session) (EStateM Fault Session) := ⟨ofAct⟩

/-- A result, or a failure that changes nothing. -/
def ofExcept {α : Type} (r : Except Fault α) : Play α := fun s =>
  match r with
  | .ok x => .ok x s
  | .error e => .error e s

instance : MonadLift (Except Fault) (EStateM Fault Session) := ⟨ofExcept⟩

/-- The outcome of reading a piece of data; its notices are left in the session. -/
def ofReading {α : Type} (r : Reading α) : Play α := fun s =>
  let t := { s with notices := s.notices ++ r.notices }
  match r.result with
  | .ok x => .ok x t
  | .error e => .error e t

instance : MonadLift Reading (EStateM Fault Session) := ⟨ofReading⟩

/-- Leave a notice. -/
def note (n : Notice) : Play Unit := modify fun s => { s with notices := s.notices ++ [n] }

/-- Carry an operation out between a change of the session and its withdrawal, which depends on the
session before. -/
def between {α : Type} (enter : Session → Session) (leave : Session → Session → Session)
    (act : Play α) : Play α := fun s =>
  match act (enter s) with
  | .ok x t => .ok x (leave s t)
  | .error e t => .error e (leave s t)

end Play

end EventLayer
