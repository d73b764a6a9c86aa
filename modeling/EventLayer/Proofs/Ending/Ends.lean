/-
**How command lists end in a frame.**

A list goes on command after command until it has stopped, until it waits, or until a command fails.  A
common event that it has called goes first: while that one waits, so does the list below it, and when it
has stopped it is dropped.  Nothing here counts commands: that a run ends in a certain way says that it
ends.

Main definitions:

* `Waiting`, `Ending` — what a list waits for, and how it ends;
* `Play.Ends` — **the run of a list that ends**, with the session that it leaves;
* `Session.Rests` — a list that waits.

Main results:

* `Play.waits_of_frames`, `Play.waits_of_route`, `Play.waits_of_nobody`, `Play.waits_of_ended` — what a
  list waits for;
* `Ending.between_outcome` — a run for a list that ends.
-/
import EventLayer.Proofs.Preserves
import EventLayer.Proofs.Stack
import EventLayer.Session.Run

set_option autoImplicit false
set_option relaxedAutoImplicit false

namespace EventLayer

/-- What a list waits for. -/
inductive Waiting where
  /-- For some frames to pass. -/
  | frames
  /-- For the end of a character's forced route. -/
  | route (who : CharacterId)
  /-- For the common event that it has called, which waits itself. -/
  | callee (why : Waiting)
deriving Repr, DecidableEq

/-- How a list ends in a frame. -/
inductive Ending where
  | stopped
  | waits (why : Waiting)
  /-- A command has failed. -/
  | fails (e : Fault)

/-- What an operation comes to that ends in some way. -/
def Ending.outcome (t : Session) : Ending → EStateM.Result Fault Session Unit
  | .fails e => .error e t
  | _ => .ok () t

/-- A run between a change of the session and its withdrawal ends as it does. -/
theorem Ending.between_outcome {enter : Session → Session} {leave : Session → Session → Session}
    {act : Play Unit} {s t : Session} {how : Ending} (h : act (enter s) = how.outcome t) :
    Play.between enter leave act s = how.outcome (leave s t) := by
  unfold Play.between
  rw [h]
  cases how <;> rfl

namespace Session

/-- The list at a depth is the one that carries out commands. -/
def acting (d : Nat) (s : Session) : Session := { s with active := some d }

/-- The list that carries out commands is again the one that did in another session. -/
def backTo (s t : Session) : Session := { t with active := s.active }

/-- The lists called from a depth are dropped. -/
def dropCallee (d : Nat) (s : Session) : Session := s.updateInterpreter fun i => i.cut d

theorem length_nested_dropCallee (s : Session) (d : Nat) :
    (s.dropCallee d).interpreter.nested.length = min d s.interpreter.nested.length :=
  List.length_take

theorem frame_dropCallee {d e : Nat} (h : e ≤ d) (s : Session) : (s.dropCallee d).frame e = s.frame e :=
  Interpreter.frame_cut h s.interpreter

/-- The list at a depth is run, and it waits. -/
def Rests (s : Session) (d : Nat) : Waiting → Prop
  | .frames => (s.frame d).isRunning = true ∧ 0 ≤ (s.frame d).waitCount
  | .route who => (s.frame d).isRunning = true ∧ (s.frame d).awaited = some who ∧
      (s.character who).forcing = true
  | .callee why => (s.frame d).isRunning = true ∧ s.Rests (d + 1) why

theorem Rests.isRunning {s : Session} {d : Nat} {why : Waiting} (h : s.Rests d why) :
    (s.frame d).isRunning = true := by
  cases why with
  | frames => exact h.1
  | route who => exact h.1
  | callee why => exact h.1

/-- Who carries out commands does not matter to a list that waits. -/
theorem Rests.backTo {s t : Session} {d : Nat} {why : Waiting} (h : t.Rests d why) :
    (s.backTo t).Rests d why := by
  induction why generalizing d with
  | frames => exact h
  | route who => exact h
  | callee why ih => exact ⟨h.1, ih h.2⟩

/-- The list at a depth has ended in some way. -/
def HasEnded (s : Session) (d : Nat) : Ending → Prop
  | .stopped => (s.frame d).isRunning = false
  | .waits why => s.Rests d why
  | .fails _ => True

end Session

namespace Play

open Session

/-- **The run of a list that ends.**  However many commands it takes: there is no bound on them. -/
inductive Ends : Nat → Session → Session → Ending → Prop
  /-- Nothing is left to be carried out. -/
  | stopped {d : Nat} {s : Session} : (s.frame d).isRunning = false → Ends d s s .stopped
  /-- The common event that was called goes first. -/
  | calleeWaits {d : Nat} {s t : Session} {why : Waiting} : (s.frame d).isRunning = true →
      d < s.interpreter.nested.length → Ends (d + 1) (s.acting (d + 1)) t (.waits why) →
      Ends d s (s.backTo t) (.waits (.callee why))
  | calleeFails {d : Nat} {s t : Session} {e : Fault} : (s.frame d).isRunning = true →
      d < s.interpreter.nested.length → Ends (d + 1) (s.acting (d + 1)) t (.fails e) →
      Ends d s (s.backTo t) (.fails e)
  | calleeStops {d : Nat} {s t u : Session} {how : Ending} : (s.frame d).isRunning = true →
      d < s.interpreter.nested.length → Ends (d + 1) (s.acting (d + 1)) t .stopped →
      Ends d ((s.backTo t).dropCallee d) u how → Ends d s u how
  /-- Frames are counted down before anything else. -/
  | frames {d : Nat} {s : Session} : (s.frame d).isRunning = true →
      s.interpreter.nested.length ≤ d → 0 < (s.frame d).waitCount →
      Ends d s (s.updateFrame d fun f => { f with waitCount := f.waitCount - 1 }) (.waits .frames)
  | route {d : Nat} {s : Session} {who : CharacterId} : (s.frame d).isRunning = true →
      s.interpreter.nested.length ≤ d → ¬0 < (s.frame d).waitCount →
      (s.frame d).awaited = some who → (s.character who).forcing = true →
      Ends d s s (.waits (.route who))
  /-- A list that does not wait carries out its next command. -/
  | fails {d : Nat} {s t u : Session} {e : Fault} : (s.frame d).isRunning = true →
      s.interpreter.nested.length ≤ d → waits d s = .ok false t → step d t = .error e u →
      Ends d s u (.fails e)
  | goesOn {d : Nat} {s t u v : Session} {how : Ending} : (s.frame d).isRunning = true →
      s.interpreter.nested.length ≤ d → waits d s = .ok false t → step d t = .ok () u →
      Ends d u v how → Ends d s v how

variable {d : Nat} {s t : Session}

/-! ### Waiting -/

theorem waits_of_frames (h : 0 < (s.frame d).waitCount) : waits d s =
    .ok true (s.updateFrame d fun f => { f with waitCount := f.waitCount - 1 }) := by
  rw [waits, get_bind_apply, if_pos h]
  rfl

theorem waits_of_route {who : CharacterId} (h : ¬0 < (s.frame d).waitCount)
    (hwho : (s.frame d).awaited = some who) (hforcing : (s.character who).forcing = true) :
    waits d s = .ok true s := by
  rw [waits, get_bind_apply, if_neg h, hwho]
  dsimp only
  rw [if_pos hforcing]
  rfl

theorem waits_of_nobody (h : ¬0 < (s.frame d).waitCount) (hnone : (s.frame d).awaited = none) :
    waits d s = .ok false s := by
  rw [waits, get_bind_apply, if_neg h, hnone]
  rfl

/-- A route that has ended is forgotten. -/
theorem waits_of_ended {who : CharacterId} (h : ¬0 < (s.frame d).waitCount)
    (hwho : (s.frame d).awaited = some who) (hforcing : (s.character who).forcing = false) :
    waits d s = .ok false (s.updateFrame d fun f => { f with awaited := none }) := by
  rw [waits, get_bind_apply, if_neg h, hwho]
  dsimp only
  rw [hforcing]
  rfl

/-- A list that waits for nothing may forget a route that has ended. -/
theorem waits_of_free (h : ¬0 < (s.frame d).waitCount)
    (hfree : ∀ who, (s.frame d).awaited = some who → (s.character who).forcing = false) :
    waits d s = .ok false s ∨
      waits d s = .ok false (s.updateFrame d fun f => { f with awaited := none }) := by
  cases hwho : (s.frame d).awaited with
  | none => exact Or.inl (waits_of_nobody h hwho)
  | some who => exact Or.inr (waits_of_ended h hwho (hfree who hwho))

/-! ### The common event that was called -/

variable {runNested : Play Unit}

theorem runCallee_of_none (h : s.interpreter.nested.length ≤ d) :
    runCallee runNested d s = .ok false s := by
  rw [runCallee, get_bind_apply, if_pos h]
  rfl

theorem runCallee_of_error {e : Fault} (h : d < s.interpreter.nested.length)
    (hrun : runNested s = .error e t) : runCallee runNested d s = .error e t := by
  rw [runCallee, get_bind_apply, if_neg (Nat.not_le.2 h)]
  exact bind_of_error hrun

theorem runCallee_of_running (h : d < s.interpreter.nested.length) (hrun : runNested s = .ok () t)
    (ht : (t.frame (d + 1)).isRunning = true) : runCallee runNested d s = .ok true t := by
  rw [runCallee, get_bind_apply, if_neg (Nat.not_le.2 h)]
  refine (bind_of_ok hrun).trans ?_
  rw [get_bind_apply, if_pos ht]
  rfl

theorem runCallee_of_stopped (h : d < s.interpreter.nested.length) (hrun : runNested s = .ok () t)
    (ht : (t.frame (d + 1)).isRunning = false) :
    runCallee runNested d s = .ok false (t.dropCallee d) := by
  rw [runCallee, get_bind_apply, if_neg (Nat.not_le.2 h)]
  refine (bind_of_ok hrun).trans ?_
  rw [get_bind_apply, ht]
  rfl

end Play

end EventLayer
