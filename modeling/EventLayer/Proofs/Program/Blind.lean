/-
**Operations that do not look at where a command list stands.**

The commands of a tree that have no parts of their own act for the event of their command list, but
whether the list stands at its first command or at its last is nothing to them, and they leave it
where it stands.  An operation is blind if it comes to the same, and leaves the same session apart
from the list, in whatever state a list that acts for the same event is.

Main definitions:

* `Session.running` — a session in which a command list is carrying out a command;
* `Frame.ActsAs` — two lists act for the same event;
* `Instruction.IsPlain` — the instructions of plain commands;
* `Play.Blind` — an operation does not look at where the list stands.

Main results:

* `Play.Blind.bind`, `Play.blind_getBind` — a sequence is blind when its parts are;
* `Play.blind_test` — **the tests of conditionals are blind**;
* `Play.blind_carryOutPlain` — **plain commands are blind**.
-/
import EventLayer.Proofs.Preserves
import EventLayer.Session.Commands

set_option autoImplicit false
set_option relaxedAutoImplicit false

namespace EventLayer

/-- A session in which a command list is carrying out a command, with nothing called from it. -/
def Session.running (f : Frame) (s : Session) : Session :=
  { s with interpreter := { root := f }, active := some 0 }

/-- Two command lists act for the same event. -/
structure Frame.ActsAs (f g : Frame) : Prop where
  map : f.map = g.map
  event : f.event = g.event
  link : f.link = g.link

theorem Frame.ActsAs.rfl {f : Frame} : f.ActsAs f := ⟨Eq.refl _, Eq.refl _, Eq.refl _⟩

@[simp] theorem Session.running_running (f g : Frame) (s : Session) :
    (s.running g).running f = s.running f := rfl

/-- An instruction that has no parts, leads nowhere else and acts on no character. -/
def Instruction.IsPlain : Instruction → Prop
  | .setSwitches .. | .changeVariables .. | .setSelfSwitch _ | .changeGold .. | .changeItems ..
  | .wait _ | .playSound _ | .idle => True
  | .faulty e => e ≠ .notAnObject
  | _ => False

namespace Play

variable {α β : Type} {g : Frame}

/-- The same outcome in a session that is changed. -/
def onSession (h : Session → Session) : EStateM.Result Fault Session α →
    EStateM.Result Fault Session α
  | .ok a s => .ok a (h s)
  | .error e s => .error e (h s)

/-- An operation does not look at where the command list stands. -/
def Blind (g : Frame) (act : Play α) : Prop :=
  ∀ f : Frame, f.ActsAs g → ∀ s : Session, act (s.running f) = onSession (·.running f) (act (s.running g))

/-! ### Sequences -/

/-- What a blind operation leaves still stands where it stood. -/
theorem Blind.running_of_ok {act : Play α} (h : act.Blind g) {s t : Session} {a : α}
    (ht : act (s.running g) = .ok a t) : t.running g = t := by
  have := h g .rfl s
  rw [ht] at this
  exact ((EStateM.Result.ok.injEq ..).mp this).2.symm

theorem Blind.running_of_error {act : Play α} (h : act.Blind g) {s t : Session} {e : Fault}
    (ht : act (s.running g) = .error e t) : t.running g = t := by
  have := h g .rfl s
  rw [ht] at this
  exact ((EStateM.Result.error.injEq ..).mp this).2.symm

theorem blind_pure (a : α) : (pure a : Play α).Blind g := fun _ _ _ => rfl

theorem blind_throw (e : Fault) : (throw e : Play α).Blind g := fun _ _ _ => rfl

theorem blind_except (r : Except Fault α) : (liftM r : Play α).Blind g := by
  intro f _ s
  cases r <;> rfl

theorem blind_modify {h : Session → Session}
    (hh : ∀ f : Frame, f.ActsAs g → ∀ s : Session, h (s.running f) = (h (s.running g)).running f) :
    (modify h : Play PUnit).Blind g := by
  intro f hf s
  rw [modify_apply, hh f hf s]
  rfl

theorem Blind.bind {x : Play α} {k : α → Play β} (hx : x.Blind g) (hk : ∀ a, (k a).Blind g) :
    (x >>= k).Blind g := by
  intro f hf s
  rw [bind_apply, bind_apply, hx f hf s]
  cases hr : x (s.running g) with
  | error e t => rfl
  | ok a t =>
      have ht := hx.running_of_ok hr
      have := hk a f hf t
      rw [ht] at this
      exact this

/-- A sequence that begins with a look at the session. -/
theorem blind_getBind {k : Session → Play β}
    (hk : ∀ f : Frame, f.ActsAs g → ∀ s : Session, k (s.running f) = k (s.running g))
    (h : ∀ s, (k s).Blind g) :
    (get >>= k : Play β).Blind g := by
  intro f hf s
  rw [get_bind_apply, get_bind_apply, hk f hf s]
  exact h _ f hf s

/-! ### The entity that is addressed -/

theorem resolve_running {f : Frame} (hf : f.ActsAs g) (s : Session) (d : Nat) :
    (s.running f).resolve d = (s.running g).resolve d := by
  cases d with
  | zero =>
      change (s.running f).resolveFrame f = (s.running g).resolveFrame g
      rw [Session.resolveFrame, Session.resolveFrame, hf.map, hf.event, hf.link]
      rfl
  | succ d => rfl

theorem currentScope_running {f : Frame} (hf : f.ActsAs g) (s : Session) :
    (s.running f).currentScope = (s.running g).currentScope := by
  have hscopes : ∀ f, (s.running f).scopes = s.scopes := fun _ => rfl
  have hactive : ∀ f, (s.running f).active = some 0 := fun _ => rfl
  rw [Session.currentScope, Session.currentScope, hscopes, hscopes, hactive, hactive]
  cases s.scopes with
  | cons scope rest => rfl
  | nil => exact resolve_running hf s 0

theorem switchValue_running {f : Frame} (hf : f.ActsAs g) (s : Session) (slot : SlotRef) :
    (s.running f).switchValue slot = (s.running g).switchValue slot := by
  rw [Session.switchValue, Session.switchValue, currentScope_running hf]
  rfl

theorem variableValue_running {f : Frame} (hf : f.ActsAs g) (s : Session) (slot : SlotRef) :
    (s.running f).variableValue slot = (s.running g).variableValue slot := by
  rw [Session.variableValue, Session.variableValue, currentScope_running hf]
  rfl

theorem setSwitch_running {f : Frame} (hf : f.ActsAs g) (s : Session) (id : Int) (on : Bool) :
    (s.running f).setSwitch id on = ((s.running g).setSwitch id on).running f := by
  rw [Session.setSwitch, Session.setSwitch, currentScope_running hf]
  rfl

theorem setVariable_running {f : Frame} (hf : f.ActsAs g) (s : Session) (id : Int) (v : Json) :
    (s.running f).setVariable id v = ((s.running g).setVariable id v).running f := by
  rw [Session.setVariable, Session.setVariable, currentScope_running hf]
  rfl

/-! ### Tests -/

theorem blind_operand (o : Operand) : (operand o).Blind g := by
  rcases o with v | slot
  · exact blind_pure v
  · refine blind_getBind (fun f hf s => ?_) fun s => blind_pure _
    rw [variableValue_running hf]

/-- **The tests of conditionals are blind.** -/
theorem blind_test (c : BranchCondition) : (test 0 c).Blind g := by
  rcases c with ⟨slot, on⟩ | ⟨slot, relation, value⟩ | ⟨channel, on⟩ | ⟨relation, bound⟩ |
    ⟨kind, id⟩ | _ | e
  · refine blind_getBind (fun f hf s => ?_) fun s => blind_pure _
    simp only [switchValue_running hf]
  · refine blind_getBind (fun f hf s => ?_)
      fun s => (blind_operand value).bind fun v => blind_except _
    simp only [variableValue_running hf]
  · refine blind_getBind (fun f hf s => ?_) fun s => ?_
    · simp only [resolve_running hf]
      rfl
    · dsimp only
      split
      · exact blind_pure _
      · exact (blind_except _).bind fun key => blind_pure _
  · exact blind_getBind (fun _ _ _ => rfl) fun s => blind_except _
  · refine blind_getBind (fun _ _ _ => rfl) fun s => ?_
    dsimp only
    split
    · exact (blind_except _).bind fun n => blind_pure _
    · exact blind_pure _
  · exact blind_getBind (fun _ _ _ => rfl) fun s => blind_pure _
  · exact blind_getBind (fun _ _ _ => rfl) fun s => blind_throw e

/-! ### Switches, variables, things -/

theorem blind_changeEach (op : VariableOp) (value : Json) (ids : List Int) :
    (changeEach op value ids).Blind g := by
  induction ids with
  | nil => exact blind_pure ()
  | cons id rest ih =>
      refine blind_getBind (fun f hf s => ?_) fun s => ?_
      · simp only [variableValue_running hf]
      · refine (blind_except _).bind fun new => Blind.bind (blind_modify fun f hf s => ?_) fun _ => ih
        exact setVariable_running hf s id new

theorem blind_drawBetween (low high : Json) : (drawBetween low high).Blind g := by
  have hdraw : ∀ span : Json.Number, (do
      let s ← get
      modify fun s => { s with draws := s.draws.whole.2 }
      low.plus (← (Json.int s.draws.whole.1).modulo span.toJson) : Play Json).Blind g := by
    refine fun span => blind_getBind (fun _ _ _ => rfl) fun s => ?_
    refine (blind_modify fun _ _ _ => rfl).bind fun _ => ?_
    exact (blind_except _).bind fun n => blind_except _
  rw [drawBetween_eq_modify]
  refine (blind_except _).bind fun width => (blind_except _).bind fun count =>
    (blind_except _).bind fun span => ?_
  dsimp only
  split
  · exact (blind_throw _).bind fun _ => hdraw span
  · exact hdraw span

theorem blind_sourceValue (source : VariableSource) : (sourceValue source).Blind g := by
  cases source with
  | operand o => exact blind_operand o
  | random low high => exact blind_drawBetween low high

theorem blind_setSwitches (ids : List Int) (on : Bool) :
    (modify fun s : Session => ids.foldl (fun s id => s.setSwitch id on) s : Play PUnit).Blind g := by
  refine blind_modify fun f hf s => ?_
  induction ids generalizing s with
  | nil => rfl
  | cons id rest ih =>
      rw [List.foldl_cons, List.foldl_cons, setSwitch_running hf]
      exact ih ((s.running g).setSwitch id on)

theorem blind_gainItem (kind : ItemKind) (id amount : Json) : (gainItem kind id amount).Blind g := by
  refine blind_getBind (fun _ _ _ => rfl) fun s => ?_
  dsimp only
  split
  · exact (blind_except _).bind fun party => blind_modify fun _ _ _ => rfl
  · exact blind_pure ()

theorem blind_gainGold (amount : Json.Number) : (gainGold amount).Blind g :=
  blind_getBind (fun _ _ _ => rfl) fun _ =>
    (blind_except _).bind fun _ => blind_modify fun _ _ _ => rfl

theorem blind_playSound (v : Json) : (playSound v).Blind g := by
  refine (blind_except _).bind fun found => ?_
  cases found with
  | none => exact blind_pure ()
  | some sound => exact blind_modify fun _ _ _ => rfl

theorem blind_showText (text : String) : (showText text).Blind g :=
  blind_getBind (fun _ _ _ => rfl) fun _ =>
    (blind_except _).bind fun _ => blind_modify fun _ _ _ => rfl

/-! ### Plain commands -/

/-- **Plain commands are blind**, apart from those that wait. -/
theorem blind_carryOutPlain {i : Instruction} (hi : i.IsPlain) (hw : ∀ n, i ≠ .wait n) :
    (carryOutPlain 0 i).Blind g := by
  unfold carryOutPlain
  split
  · exact hi.elim
  · exact (blind_setSwitches _ _).bind fun _ => blind_modify fun _ _ _ => rfl
  · refine (blind_sourceValue _).bind fun value => (blind_except _).bind fun first =>
      (blind_except _).bind fun last => ?_
    exact (blind_changeEach _ _ _).bind fun _ => blind_modify fun _ _ _ => rfl
  · refine blind_getBind (fun f hf s => ?_) fun s => ?_
    · simp only [resolve_running hf]
    · dsimp only
      split
      · refine (blind_except _).bind fun channel => (blind_except _).bind fun key => ?_
        exact Blind.bind (blind_modify fun _ _ _ => rfl) fun _ => blind_modify fun _ _ _ => rfl
      · exact blind_pure ()
  · exact (blind_operand _).bind fun v => (blind_except _).bind fun v => (blind_except _).bind
      fun v => blind_gainGold v
  · exact (blind_operand _).bind fun v => (blind_except _).bind fun v => blind_gainItem _ _ v
  · exact hi.elim
  · exact hi.elim
  · exact absurd rfl (hw _)
  · split
    · exact blind_playSound _
    · exact blind_pure ()
  · exact blind_throw _
  · exact blind_pure ()

end Play

end EventLayer
