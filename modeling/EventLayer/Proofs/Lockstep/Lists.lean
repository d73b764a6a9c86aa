/-
**Command lists in lockstep.**

Four commands write the ground: those that set switches, variables and self switches, and the one
that erases an event.  A relation that these four keep is kept by every command, and from there, by
induction on the commands and on the lists that are called, by a whole run of the map's command lists.
A command that fails may leave its sessions in a weaker relation.

Main definitions:

* `Play.Commanded` — relations that every command keeps.

Main results:

* `Play.Commanded.carryOut` — **carrying out a command is in lockstep**;
* `Play.Commanded.runCommands`, `Play.Commanded.runInterpreter` — **a run of command lists is in
  lockstep**.
-/
import EventLayer.Proofs.Lockstep.Commands
import EventLayer.Session.Run

set_option autoImplicit false
set_option relaxedAutoImplicit false

namespace EventLayer.Play

open Session

/-- A relation that is privy to the command lists and is kept by the commands that write the ground;
a failure leaves the sessions in a second relation. -/
structure Commanded (R E : Session → Session → Prop) : Prop extends Privy R where
  fails : ∀ {s t : Session}, R s t → E s t
  leave : ∀ {s t : Session} (a : Option Nat), E s t → E { s with active := a } { t with active := a }
  setSwitches : ∀ (d : Nat) (first last : Int) (on : Bool),
    (carryOutPlain d (.setSwitches first last on)).Lockstep R R E
  changeVariables : ∀ (d : Nat) (first last : Json) (op : VariableOp) (source : VariableSource),
    (carryOutPlain d (.changeVariables first last op source)).Lockstep R R E
  setSelfSwitch : ∀ (d : Nat) (given : Except Fault (Json × Bool)),
    (carryOutPlain d (.setSelfSwitch given)).Lockstep R R E
  eraseEvent : ∀ id : Int, (Play.eraseEvent id).Lockstep R R E

namespace Commanded

variable {α : Type} {R E : Session → Session → Prop}

/-- What is in lockstep even where it fails. -/
theorem ofEasy (h : Commanded R E) {x : Play α} (hx : x.Lockstep R R R) : x.Lockstep R R E :=
  hx.mono (fun _ _ hst => hst) (fun _ _ hst => hst) fun _ _ hst => h.fails hst

theorem lift (h : Commanded R E) (r : Except Fault α) : (liftM r : Play α).Lockstep R R E :=
  h.ofEasy (lockstep_lift r)

theorem fault (h : Commanded R E) (e : Fault) : (throw e : Play α).Lockstep R R E :=
  h.ofEasy (lockstep_fault e)

/-! ### Commands -/

theorem eraseAddressed (h : Commanded R E) (d : Nat) : (Play.eraseAddressed d).Lockstep R R E := by
  refine h.lookIn (fun _ => rfl) fun s => ?_
  dsimp only
  split
  · split
    · exact h.ofEasy (h.note _)
    · exact (h.eraseEvent _).bind fun _ => h.ofEasy (h.unlink d)
  · split
    · exact h.eraseEvent _
    · exact lockstep_value ()

theorem carryOutPlain (h : Commanded R E) (d : Nat) (i : Instruction) :
    (Play.carryOutPlain d i).Lockstep R R E := by
  cases i with
  | setSwitches first last on => exact h.setSwitches d first last on
  | changeVariables first last op source => exact h.changeVariables d first last op source
  | setSelfSwitch given => exact h.setSelfSwitch d given
  | callCommon id => exact h.ofEasy (h.callCommon d id)
  | changeGold lose amount =>
      refine (h.ofEasy (h.operand _)).bind fun v => (h.lift _).bind fun v => ?_
      exact (h.lift _).bind fun v => h.ofEasy (h.gainGold v)
  | changeItems kind id lose amount => exact h.ofEasy (h.changeItems _ _ _ _)
  | forceRoute target route => exact h.ofEasy (h.forceNamed d _ _)
  | eraseEvent => exact h.eraseAddressed d
  | wait frames => exact h.onFrame d _
  | playSound v => exact (h.ofEasy (h.playSound _)).ite (lockstep_value ())
  | faulty e => exact h.fault e
  | _ => exact lockstep_value ()

/-- **Carrying out a command is in lockstep.** -/
theorem carryOut (h : Commanded R E) (d : Nat) (i : Instruction) :
    (Play.carryOut d i).Lockstep R R E := by
  refine h.lookIn (fun _ => rfl) fun s => ?_
  dsimp only
  split
  · refine (h.lift _).bind fun lines => ?_
    exact (h.ofEasy (h.showText _)).bind fun _ => lockstep_value _
  · refine (h.ofEasy (h.test d _)).bind fun holds => (h.onFrame d _).bind fun _ => ?_
    exact (lockstep_value _).ite ((h.lift _).bind fun _ => lockstep_value _)
  · exact (lockstep_value _).ite ((h.lift _).bind fun _ => lockstep_value _)
  · exact lockstep_value _
  · refine (h.ofEasy (h.carryOutCall d _)).bind fun stop => ?_
    split
    · exact lockstep_value _
    · exact lockstep_value _
  · exact (h.carryOutPlain d _).bind fun _ => lockstep_value _

/-! ### Command lists -/

theorem asActive (h : Commanded R E) (d : Nat) {x : Play α} (hx : x.Lockstep R R E) :
    (Play.asActive d x).Lockstep R R E := by
  have hactive : ∀ {s t : Session} (a : Option Nat), R s t →
      R { s with active := a } { t with active := a } := fun a hst =>
    h.write (g := fun s => { s with active := a }) ⟨fun _ => rfl, fun _ => ⟨rfl, rfl⟩⟩ hst
  have hsame : ∀ {s t : Session}, R s t → s.active = t.active := fun hst =>
    congrArg (fun s => s.active) (h.seen hst)
  refine hx.between (fun s t hst => hactive _ hst) ?_ ?_
  · intro s t s' t' hst hleft
    rw [hsame hst]
    exact hactive _ hleft
  · intro s t s' t' hst hleft
    rw [hsame hst]
    exact h.leave _ hleft

theorem step (h : Commanded R E) (d : Nat) : (Play.step d).Lockstep R R E := by
  refine h.lookIn (fun _ => rfl) fun s => ?_
  split
  · exact h.onLists fun i => (i.modify Frame.terminate d).cut d
  · next c _ =>
      have hrun : (do
          modify (updateFrame d (beginCommand c))
          let next ← Play.carryOut d c.instruction
          modify (updateFrame d fun f => { f with index := next }) : Play Unit).Lockstep R R E :=
        (h.onFrame d _).bind fun _ => (h.carryOut d _).bind fun _ => h.onFrame d _
      dsimp only
      split
      · exact (h.fault _).bind fun _ => hrun
      · exact hrun

theorem waits (h : Commanded R E) (d : Nat) : (Play.waits d).Lockstep R R E := by
  have hforcing : ∀ (s : Session) who, (s.inside.character who).forcing = (s.character who).forcing :=
    fun s who => by cases who <;> rfl
  have hframe : ∀ s : Session, s.inside.frame d = s.frame d := fun _ => rfl
  refine h.lookIn (fun s => ?_) fun s => ?_
  · simp only [hframe, hforcing]
  · dsimp only
    split
    · exact (h.onFrame d _).bind fun _ => lockstep_value _
    · split
      · exact lockstep_value _
      · exact (lockstep_value _).ite ((h.onFrame d _).bind fun _ => lockstep_value _)

theorem runCallee (h : Commanded R E) {runNested : Play Unit} (hn : runNested.Lockstep R R E)
    (d : Nat) : (Play.runCallee runNested d).Lockstep R R E := by
  refine h.lookIn (fun _ => rfl) fun s => (lockstep_value _).ite (hn.bind fun _ => ?_)
  refine h.lookIn (fun _ => rfl) fun s => (lockstep_value _).ite ?_
  exact (h.onLists fun i => i.cut d).bind fun _ => lockstep_value _

/-- **Running a list is in lockstep**, by induction on the commands that are left. -/
theorem runCommands (h : Commanded R E) {runNested : Play Unit} (hn : runNested.Lockstep R R E)
    (d budget : Nat) : (Play.runCommands runNested d budget).Lockstep R R E := by
  induction budget with
  | zero => exact h.fault _
  | succ budget ih =>
      refine h.lookIn (fun _ => rfl) fun s => (lockstep_value ()).ite ?_
      refine (h.runCallee hn d).bind fun called => (lockstep_value ()).ite ?_
      refine (h.waits d).bind fun waiting => (lockstep_value ()).ite ?_
      exact (h.step d).bind fun _ => ih

theorem runFrame (h : Commanded R E) (levels d : Nat) :
    (Play.runFrame levels d).Lockstep R R E := by
  induction levels generalizing d with
  | zero => exact h.fault _
  | succ levels ih =>
      exact h.asActive d (h.lookIn (fun _ => rfl) fun s => h.runCommands (ih (d + 1)) d _)

/-- **A run of the map's command lists is in lockstep.** -/
theorem runInterpreter (h : Commanded R E) : Play.runInterpreter.Lockstep R R E :=
  h.lookIn (fun _ => rfl) fun _ => h.runFrame _ 0

theorem setupInterpreter (h : Commanded R E) (list : Json) (event : Int) :
    (Play.setupInterpreter list event).Lockstep R R E := by
  refine (h.onLists Interpreter.clear).bind fun _ => ?_
  exact (h.ofEasy (h.openFrame list event)).bind fun frame => h.onLists fun _ => { root := frame }

end Commanded

end EventLayer.Play
