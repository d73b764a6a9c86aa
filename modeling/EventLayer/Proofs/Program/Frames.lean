/-
**Running a command list to its end.**

A command list that waits gives the frame back and goes on in the next one.  Where nothing but the
list happens between the frames, it makes no difference in which frame a command is carried out: the
run is a sequence of commands and of frames that were waited for, each of which leaves the list at a
spot further on or with less to wait for.  A list that was opened has far more commands to carry out
in one frame than there are left, so that it is never taken to run for ever.

Main definitions:

* `Play.runUntilStopped` — frames of a command list until it has ended;
* `Spot`, `Frame.at` — how far a list has come, and the list there;
* `Reaches` — commands carried out and frames waited for;
* `ComesTo` — how a run ends;
* `Session.bare` — a session apart from its command lists.

Main results:

* `Reaches.wait_out` — waiting comes to an end;
* `Reaches.comesTo` — how a run ends does not depend on the frames in which it goes on;
* `ComesTo.runUntilStopped` — **a run comes to its end**.
-/
import EventLayer.Proofs.Program.Blind
import EventLayer.Session.Run

set_option autoImplicit false
set_option relaxedAutoImplicit false

namespace EventLayer

/-- Let frames pass, at most a number of them, in which nothing happens but that the map's command
list is run, until it has ended. -/
def Play.runUntilStopped : Nat → Play Unit
  | 0 => pure ()
  | frames + 1 => do
    if !(← get).interpreter.isRunning then return
    runInterpreter
    runUntilStopped frames

/-- A session apart from its command lists. -/
def Session.bare (s : Session) : Session := { s with interpreter := {} }

/-! ### Spots -/

/-- How far a command list has come. -/
structure Spot where
  index : Nat := 0
  indent : Int := 0
  waitCount : Int := 0
  outcomes : OrderedMap Int Bool := ∅
  selections : OrderedMap Int Nat := ∅

/-- A command list at a spot. -/
def Frame.at (g : Frame) (p : Spot) : Frame :=
  { g with
    index := p.index
    indent := p.indent
    waitCount := p.waitCount
    outcomes := p.outcomes
    selections := p.selections }

theorem Frame.at_actsAs (g : Frame) (p : Spot) : (g.at p).ActsAs g := ⟨rfl, rfl, rfl⟩

/-- A spot at which a command has begun. -/
def Spot.enter (p : Spot) (c : EventCommand) : Spot :=
  { p with indent := c.indent, selections := Play.forgetDeeper c.indent p.selections }

/-- A spot at which a number of frames are left to wait for. -/
def Spot.waiting (p : Spot) (n : Int) : Spot := { p with waitCount := n }

/-- A command list comes from one spot to another, with the session before and after: it carries out
commands, and waits for frames. -/
inductive Reaches (g : Frame) : Session → Spot → Session → Spot → Prop where
  | refl (s : Session) (p : Spot) : Reaches g s p s p
  | step {s t u : Session} {p q r : Spot} (place : p.index < g.list.length) (awake : p.waitCount ≤ 0)
      (carried : Play.step 0 (s.running (g.at p)) = .ok () (t.running (g.at q)))
      (further : p.index < q.index) (rest : Reaches g t q u r) : Reaches g s p u r
  | wait {s u : Session} {p r : Spot} (place : p.index ≤ g.list.length) (waits : 0 < p.waitCount)
      (rest : Reaches g s (p.waiting (p.waitCount - 1)) u r) : Reaches g s p u r

namespace Reaches

variable {g : Frame} {s t u : Session} {p q r : Spot}

theorem trans (h : Reaches g s p t q) (h' : Reaches g t q u r) : Reaches g s p u r := by
  induction h with
  | refl s p => exact h'
  | step place awake carried further _ ih => exact .step place awake carried further (ih h')
  | wait place waits _ ih => exact .wait place waits (ih h')

/-- Waiting comes to an end. -/
theorem wait_out (g : Frame) (s : Session) {p : Spot} (hp : p.index ≤ g.list.length) :
    ∃ n ≤ 0, Reaches g s p s (p.waiting n) := by
  by_cases h : p.waitCount ≤ 0
  · exact ⟨p.waitCount, h, .refl s p⟩
  · obtain ⟨n, hn, hr⟩ := wait_out g s (p := p.waiting (p.waitCount - 1)) hp
    exact ⟨n, hn, .wait hp (by omega) hr⟩
termination_by p.waitCount.toNat
decreasing_by
  have : (p.waiting (p.waitCount - 1)).waitCount = p.waitCount - 1 := rfl
  omega

end Reaches

/-! ### Frames -/

namespace Play

variable {g : Frame}

/-- What is left of a frame in which at most a number of commands are carried out, and the frames
after it. -/
def toEnd (runNested : Play Unit) (outer : Option Nat) (frames budget : Nat) : Play Unit := do
  between id (fun _ t => { t with active := outer }) (runCommands runNested 0 budget)
  runUntilStopped frames

/-- To run a list between frames is to take it up as the active one and to leave it afterwards. -/
theorem asActive_running (act : Play Unit) (s : Session) (f : Frame) (outer : Option Nat) :
    asActive 0 act { s.running f with active := outer } =
      between id (fun _ t => { t with active := outer }) act (s.running f) := rfl

theorem between_congr {act act' : Play Unit} {s s' : Session} (h : act s = act' s')
    (leave : Session → Session) :
    between id (fun _ => leave) act s = between id (fun _ => leave) act' s' := by
  unfold between
  rw [id, id, h]

section Frames

variable {s : Session} {p : Spot} (hrun : g.isRunning = true) (hfree : g.awaited = none)
include hrun

/-- A list that waits gives the frame back. -/
theorem runCommands_of_waiting (hp : 0 < p.waitCount) (runNested : Play Unit) (budget : Nat) :
    runCommands runNested 0 (budget + 1) (s.running (g.at p)) =
      .ok () (s.running (g.at (p.waiting (p.waitCount - 1)))) := by
  have hrunning : ((s.running (g.at p)).frame 0).isRunning = true := hrun
  have hcallee : runCallee runNested 0 (s.running (g.at p)) = .ok false (s.running (g.at p)) := rfl
  have hwaits : waits 0 (s.running (g.at p)) =
      .ok true (s.running (g.at (p.waiting (p.waitCount - 1)))) := by
    rw [waits, get_bind_apply]
    rw [if_pos (show 0 < ((s.running (g.at p)).frame 0).waitCount from hp)]
    rfl
  rw [runCommands, get_bind_apply, hrunning]
  simp only [Bool.not_true, Bool.false_eq_true, if_false]
  rw [bind_of_ok hcallee]
  simp only [Bool.false_eq_true, if_false]
  rw [bind_of_ok hwaits]
  rfl

include hfree in
/-- A list that does not wait carries out its next command. -/
theorem runCommands_of_awake (hp : p.waitCount ≤ 0) (runNested : Play Unit) (budget : Nat) :
    runCommands runNested 0 (budget + 1) (s.running (g.at p)) =
      (do step 0; runCommands runNested 0 budget : Play Unit) (s.running (g.at p)) := by
  have hrunning : ((s.running (g.at p)).frame 0).isRunning = true := hrun
  have hcallee : runCallee runNested 0 (s.running (g.at p)) = .ok false (s.running (g.at p)) := rfl
  have hwaits : waits 0 (s.running (g.at p)) = .ok false (s.running (g.at p)) := by
    have hawaited : ((s.running (g.at p)).frame 0).awaited = none := hfree
    rw [waits, get_bind_apply]
    rw [if_neg (show ¬0 < ((s.running (g.at p)).frame 0).waitCount from Int.not_lt.2 hp), hawaited]
    rfl
  rw [runCommands, get_bind_apply, hrunning]
  simp only [Bool.not_true, Bool.false_eq_true, if_false]
  rw [bind_of_ok hcallee]
  simp only [Bool.false_eq_true, if_false]
  rw [bind_of_ok hwaits]
  rfl

omit hrun in
theorem le_patience (length : Nat) : length + 2 ≤ patience length := by
  have h : 1 * (length + 2) ≤ 1000000 * (length + 2) := Nat.mul_le_mul_right _ (by decide)
  rwa [Nat.one_mul] at h

omit hrun in
theorem nestingLimit_eq_succ (s : Session) : ∃ levels, nestingLimit s = levels + 1 := by
  apply Nat.exists_eq_add_one.2
  rw [nestingLimit]
  omega

/-- A frame after which the list has not ended begins a run to the end. -/
theorem runUntilStopped_succ (outer : Option Nat) (frames : Nat) :
    ∃ runNested budget, g.list.length + 2 ≤ budget ∧
      runUntilStopped (frames + 1) { s.running (g.at p) with active := outer } =
        toEnd runNested outer frames budget (s.running (g.at p)) := by
  have hrunning : ({ s.running (g.at p) with active := outer } : Session).interpreter.isRunning =
      true := hrun
  obtain ⟨levels, hlevels⟩ := nestingLimit_eq_succ { s.running (g.at p) with active := outer }
  have hlist : ((s.running (g.at p)).frame 0).list = g.list := rfl
  have hframe : runInterpreter { s.running (g.at p) with active := outer } =
      between id (fun _ t => { t with active := outer })
        (runCommands (runFrame levels 1) 0 (patience g.list.length)) (s.running (g.at p)) := by
    rw [runInterpreter, get_bind_apply, hlevels, runFrame, asActive_running]
    exact between_congr (by rw [get_bind_apply, hlist]) _
  refine ⟨runFrame levels 1, patience g.list.length, le_patience g.list.length, ?_⟩
  · rw [runUntilStopped, get_bind_apply, hrunning]
    simp only [Bool.not_true, Bool.false_eq_true, if_false]
    exact bind_apply_congr hframe _

include hfree in
/-- A command that is carried out in a frame. -/
theorem toEnd_of_step {t : Session} (hp : p.waitCount ≤ 0)
    (hstep : step 0 (s.running (g.at p)) = .ok () t) (runNested : Play Unit) (outer : Option Nat)
    (frames budget : Nat) :
    toEnd runNested outer frames (budget + 1) (s.running (g.at p)) =
      toEnd runNested outer frames budget t := by
  have hcommands : runCommands runNested 0 (budget + 1) (s.running (g.at p)) =
      runCommands runNested 0 budget t := by
    rw [runCommands_of_awake hrun hfree hp]
    exact bind_of_ok hstep
  exact bind_apply_congr (between_congr hcommands _) _

include hfree in
/-- A command that fails. -/
theorem toEnd_of_error {t : Session} {e : Fault} (hp : p.waitCount ≤ 0)
    (hstep : step 0 (s.running (g.at p)) = .error e t) (runNested : Play Unit) (outer : Option Nat)
    (frames budget : Nat) :
    toEnd runNested outer frames (budget + 1) (s.running (g.at p)) =
      .error e { t with active := outer } := by
  have hcommands : runCommands runNested 0 (budget + 1) (s.running (g.at p)) = .error e t := by
    rw [runCommands_of_awake hrun hfree hp]
    exact bind_of_error hstep
  rw [toEnd]
  apply bind_of_error
  rw [between, id, hcommands]

/-- A frame that is waited for. -/
theorem toEnd_of_waiting (hp : 0 < p.waitCount) (runNested : Play Unit) (outer : Option Nat)
    (frames budget : Nat) :
    ∃ runNested' budget', g.list.length + 2 ≤ budget' ∧
      toEnd runNested outer (frames + 1) (budget + 1) (s.running (g.at p)) =
        toEnd runNested' outer frames budget'
          (s.running (g.at (p.waiting (p.waitCount - 1)))) := by
  obtain ⟨runNested', budget', hbudget, hnext⟩ := runUntilStopped_succ (s := s)
    (p := p.waiting (p.waitCount - 1)) hrun outer frames
  refine ⟨runNested', budget', hbudget, ?_⟩
  rw [← hnext, toEnd]
  apply bind_of_ok
  rw [between, id, runCommands_of_waiting hrun hp]

/-- A list that has come to its end stops. -/
theorem toEnd_of_end (hfree : g.awaited = none) (hp : p.waitCount ≤ 0)
    (hend : p.index = g.list.length) (runNested : Play Unit) (outer : Option Nat)
    (frames budget : Nat) :
    toEnd runNested outer frames (budget + 2) (s.running (g.at p)) =
      .ok () { s.running (g.at p).terminate with active := outer } := by
  have hnone : (g.at p).current? = none := by
    have hplace : (g.at p).place = g.list.length := Frame.place_of_nonneg (by rw [← hend]; rfl)
    have hlist : (g.at p).list = g.list := rfl
    rw [Frame.current?, hplace, hlist, List.getElem?_eq_none (Nat.le_refl _)]
    rfl
  have hstep : step 0 (s.running (g.at p)) = .ok () (s.running (g.at p).terminate) := by
    have hframe : (s.running (g.at p)).frame 0 = g.at p := rfl
    rw [step, get_bind_apply, hframe, hnone]
    rfl
  have hstopped : ∀ n, runUntilStopped n { s.running (g.at p).terminate with active := outer } =
      .ok () { s.running (g.at p).terminate with active := outer } := by
    intro n
    cases n <;> rfl
  rw [toEnd_of_step hrun hfree hp hstep, toEnd]
  have hover : runCommands runNested 0 (budget + 1) (s.running (g.at p).terminate) =
      .ok () (s.running (g.at p).terminate) := rfl
  rw [← hstopped frames]
  apply bind_of_ok
  rw [between, id, hover]

end Frames

end Play

/-! ### Runs -/

/-- From a spot on, a command list comes to a certain end, if only enough frames may pass. -/
def ComesTo (g : Frame) (outer : Option Nat) (s : Session) (p : Spot)
    (r : EStateM.Result Fault Session Unit) : Prop :=
  ∃ enough, ∀ frames ≥ enough, ∀ runNested budget, g.list.length + 2 ≤ budget + p.index →
    Play.toEnd runNested outer frames budget (s.running (g.at p)) = r

section Runs

variable {g : Frame} {s t : Session} {p q : Spot} {outer : Option Nat}
  (hrun : g.isRunning = true) (hfree : g.awaited = none)
include hrun

include hfree in
theorem Reaches.comesTo {r : EStateM.Result Fault Session Unit} (h : Reaches g s p t q)
    (hr : ComesTo g outer t q r) : ComesTo g outer s p r := by
  induction h with
  | refl s p => exact hr
  | step place awake carried further _ ih =>
      obtain ⟨enough, ih⟩ := ih hr
      refine ⟨enough, fun frames hframes runNested budget hbudget => ?_⟩
      obtain ⟨budget, rfl⟩ := Nat.exists_eq_add_one.2 (show 0 < budget by omega)
      rw [Play.toEnd_of_step hrun hfree awake carried]
      exact ih frames hframes runNested budget (by omega)
  | wait place waits _ ih =>
      obtain ⟨enough, ih⟩ := ih hr
      refine ⟨enough + 1, fun frames hframes runNested budget hbudget => ?_⟩
      obtain ⟨budget, rfl⟩ := Nat.exists_eq_add_one.2 (show 0 < budget by omega)
      obtain ⟨frames, rfl⟩ := Nat.exists_eq_add_one.2 (show 0 < frames by omega)
      obtain ⟨runNested', budget', hbudget', hnext⟩ :=
        Play.toEnd_of_waiting hrun waits runNested outer frames budget
      rw [hnext]
      exact ih frames (by omega) runNested' budget' (by omega)

include hfree in
theorem comesTo_of_end (hp : p.waitCount ≤ 0) (hend : p.index = g.list.length) :
    ComesTo g outer s p (.ok () { s.running (g.at p).terminate with active := outer }) := by
  refine ⟨0, fun frames _ runNested budget hbudget => ?_⟩
  obtain ⟨budget, rfl⟩ := Nat.exists_eq_add_of_le' (show 2 ≤ budget by omega)
  exact Play.toEnd_of_end hrun hfree hp hend runNested outer frames budget

include hfree in
theorem comesTo_of_error {e : Fault} (hp : p.waitCount ≤ 0) (hle : p.index ≤ g.list.length)
    (hstep : Play.step 0 (s.running (g.at p)) = .error e t) :
    ComesTo g outer s p (.error e { t with active := outer }) := by
  refine ⟨0, fun frames _ runNested budget hbudget => ?_⟩
  obtain ⟨budget, rfl⟩ := Nat.exists_eq_add_one.2 (show 0 < budget by omega)
  exact Play.toEnd_of_error hrun hfree hp hstep runNested outer frames budget

/-- **A run comes to the end that it comes to from its first spot on.** -/
theorem ComesTo.runUntilStopped {r : EStateM.Result Fault Session Unit}
    (h : ComesTo g outer s p r) :
    ∃ enough, ∀ frames ≥ enough,
      Play.runUntilStopped frames { s.running (g.at p) with active := outer } = r := by
  obtain ⟨enough, h⟩ := h
  refine ⟨enough + 1, fun frames hframes => ?_⟩
  obtain ⟨frames, rfl⟩ := Nat.exists_eq_add_one.2 (show 0 < frames by omega)
  obtain ⟨runNested, budget, hbudget, hnext⟩ :=
    Play.runUntilStopped_succ (s := s) (p := p) hrun outer frames
  rw [hnext]
  exact h frames (by omega) runNested budget (by omega)

end Runs

end EventLayer
