/-
**Sessions that are alike.**

Two sessions are alike if they show the same and run the same command lists.  Commands keep sessions
alike.  As long as no list is being run, what the latest one has left behind may differ as well: a
list begins with nothing remembered.  Frames keep sessions alike in this weaker sense.

What commands and frames keep of a single session follows from the same account.  A property is
upheld if it depends on the ground alone and is kept by the few operations that write it.

Main definitions:

* `Session.Alike`, `Session.AlikeOutside` — sessions that are alike;
* `Session.later` — a session some frames later;
* `Play.Upheld`, `Play.UpheldBetween`, `Play.UpheldThroughout` — properties that commands keep, that
  the beginning of a list keeps, and that frames keep.

Main results:

* `Play.commanded_alike` — **commands keep sessions alike**;
* `Play.framed_alikeOutside`, `Session.AlikeOutside.later` — **frames keep sessions alike**;
* `Play.Upheld.commanded`, `Play.UpheldThroughout.framed` — an upheld property goes along with both.
-/
import EventLayer.Proofs.Lockstep.Frames
import EventLayer.Proofs.Lockstep.Lists

set_option autoImplicit false
set_option relaxedAutoImplicit false

namespace EventLayer

namespace Session

/-- Two sessions show the same, and the same command lists are being run. -/
def Alike (s t : Session) : Prop := s.seen = t.seen ∧ s.interpreter = t.interpreter

/-- Two sessions show the same, and if a command list is being run, it is the same. -/
def AlikeOutside (s t : Session) : Prop :=
  s.seen = t.seen ∧ (s.interpreter.isRunning = true → s.interpreter = t.interpreter)

variable {s t : Session}

theorem Alike.outside (h : s.Alike t) : s.AlikeOutside t := ⟨h.1, fun _ => h.2⟩

theorem AlikeOutside.inside (h : s.AlikeOutside t) (hr : s.interpreter.isRunning = true) :
    s.Alike t := ⟨h.1, h.2 hr⟩

theorem alike_iff : s.Alike t ↔ s.inside = t.inside := by
  constructor
  · rintro ⟨hseen, hinterpreter⟩
    rw [inside, inside, hseen, hinterpreter]
  · intro h
    have hseen : s.inside.seen = t.inside.seen := congrArg seen h
    have hinterpreter : s.inside.interpreter = t.inside.interpreter := congrArg Session.interpreter h
    exact ⟨hseen, hinterpreter⟩

end Session

namespace Play

open Session

/-! ### Relations that survive every write -/

/-- A relation between sessions that survives whatever leaves the command lists and shows the same
in both, be it of the ground. -/
structure Free (R : Session → Session → Prop) : Prop where
  seen : ∀ {s t : Session}, R s t → s.seen = t.seen
  writes : ∀ {s t s' t' : Session}, R s t → s'.interpreter = s.interpreter →
    t'.interpreter = t.interpreter → s'.seen = t'.seen → R s' t'

theorem free_alike : Free Alike where
  seen := fun h => h.1
  writes := fun h hs ht hseen => ⟨hseen, by rw [hs, ht, h.2]⟩

theorem free_alikeOutside : Free AlikeOutside where
  seen := fun h => h.1
  writes := fun h hs ht hseen => ⟨hseen, fun hr => by
    rw [hs] at hr
    rw [hs, ht, h.2 hr]⟩

namespace Free

variable {R : Session → Session → Prop}

theorem faithful (h : Free R) : Faithful R where
  seen := h.seen
  stays := fun hst hs ht hseen => h.writes hst hs.interpreter ht.interpreter hseen

/-- A write of what is shown, be it of the ground. -/
theorem writing (h : Free R) {g : Session → Session}
    (hseen : ∀ s : Session, (g s.seen).seen = (g s).seen)
    (hlists : ∀ s : Session, (g s).interpreter = s.interpreter) :
    (modify g : Play PUnit).Lockstep R R R := by
  refine lockstep_modify fun s t hst => h.writes hst (hlists s) (hlists t) ?_
  rw [← hseen s, h.seen hst, hseen t]

theorem refreshMap (h : Free R) : Play.refreshMap.Lockstep R R R := by
  refine h.faithful.look (fun _ => rfl) fun s => (h.faithful.reading _).bind fun events => ?_
  exact h.writing (fun _ => rfl) fun _ => rfl

theorem commonEvents (h : Free R) : Play.commonEvents.Lockstep R R R := by
  refine h.faithful.look (fun _ => rfl) fun s => ?_
  split
  · exact lockstep_value _
  · refine (h.faithful.reading _).bind fun found => Lockstep.bind ?_ fun _ => lockstep_value _
    exact h.writing (fun _ => rfl) fun _ => rfl

theorem refreshEvent (h : Free R) (id : Int) : (Play.refreshEvent id).Lockstep R R R := by
  refine h.faithful.look (fun _ => rfl) fun s => ?_
  split
  · refine (h.faithful.reading _).bind fun e => ?_
    exact h.writing (g := updateEvent id fun _ => e) (fun _ => rfl) fun _ => rfl
  · exact lockstep_value ()

theorem eraseEvent (h : Free R) (id : Int) : (Play.eraseEvent id).Lockstep R R R := by
  refine Lockstep.bind ?_ fun _ => h.refreshEvent id
  exact h.writing (g := updateEvent id fun e => { e with erased := true }) (fun _ => rfl) fun _ => rfl

theorem popped (h : Free R) {s t : Session} (hst : R s t) : R s.popped t.popped :=
  h.writes hst rfl rfl (congrArg Session.popped (h.seen hst))

theorem requestRefresh (h : Free R) :
    (modify Session.requestRefresh : Play PUnit).Lockstep R R R :=
  h.writing (fun _ => rfl) fun _ => rfl

end Free

/-! ### Commands keep sessions alike -/

theorem privy_alike : Privy Alike :=
  { free_alike.faithful with
    interpreter := fun h => h.2
    frames := fun i h =>
      ⟨congrArg (fun u : Session =>
        { u with interpreter := { i with root := { i.root with table := {} } } }) h.1, rfl⟩ }

/-- A write that follows from what is shown to the command lists, and leaves them. -/
theorem alike_writing {g : Session → Session} (hg : ∀ s : Session, g s.inside = (g s).inside) :
    (modify g : Play PUnit).Lockstep Alike Alike Alike := by
  refine lockstep_modify fun s t hst => ?_
  rw [alike_iff] at hst ⊢
  rw [← hg, hst, hg]

theorem setSwitches_inside (ids : List Int) (on : Bool) (s : Session) :
    ids.foldl (fun s id => s.setSwitch id on) s.inside =
      (ids.foldl (fun s id => s.setSwitch id on) s).inside := by
  induction ids generalizing s with
  | nil => rfl
  | cons id rest ih => exact ih (s.setSwitch id on)

theorem alike_changeEach (op : VariableOp) (value : Json) (ids : List Int) :
    (changeEach op value ids).Lockstep Alike Alike Alike := by
  induction ids with
  | nil => exact lockstep_value ()
  | cons id rest ih =>
      refine privy_alike.lookIn (fun _ => rfl) fun s => (lockstep_lift _).bind fun new => ?_
      exact (alike_writing (g := setVariable id new) fun _ => rfl).bind fun _ => ih

/-- **Commands keep sessions alike.** -/
theorem commanded_alike : Commanded Alike Alike :=
  { privy_alike with
    fails := fun h => h
    leave := fun a h => ⟨congrArg (fun u : Session => { u with active := a }) h.1, h.2⟩
    setSwitches := fun d first last on =>
      (alike_writing (setSwitches_inside _ on)).bind fun _ => free_alike.requestRefresh
    changeVariables := fun d first last op source => by
      refine (privy_alike.sourceValue _).bind fun value => ?_
      refine (lockstep_lift _).bind fun first => (lockstep_lift _).bind fun last => ?_
      exact (alike_changeEach _ _ _).bind fun _ => free_alike.requestRefresh
    setSelfSwitch := fun d given => by
      refine privy_alike.lookIn (fun _ => rfl) fun s => ?_
      dsimp only
      split
      · refine (lockstep_lift _).bind fun channel => (lockstep_lift _).bind fun key => ?_
        refine Lockstep.bind ?_ fun _ => free_alike.requestRefresh
        exact alike_writing (g := Session.setSelfSwitch key _) fun _ => rfl
      · exact lockstep_value ()
    eraseEvent := free_alike.eraseEvent }

/-! ### Frames keep sessions alike -/

/-- Going on with a list that is not being run does nothing. -/
theorem runCommands_of_not_running {runNested : Play Unit} {d : Nat} {s : Session}
    (h : (s.frame d).isRunning = false) {budget : Nat} (hbudget : 0 < budget) :
    runCommands runNested d budget s = .ok () s := by
  obtain ⟨budget, rfl⟩ := Nat.exists_eq_add_one.2 hbudget
  rw [runCommands, get_bind_apply, h]
  rfl

theorem patience_pos (length : Nat) : 0 < patience length :=
  Nat.mul_pos (by decide) (Nat.succ_pos _)

/-- What is carried out for a list and leaves the session as it is. -/
theorem asActive_of_ok {act : Play Unit} {d : Nat} {s : Session}
    (h : act { s with active := some d } = .ok () { s with active := some d }) :
    asActive d act s = .ok () s := by
  rw [asActive, between, h]

/-- A run of a list that is not being run does nothing. -/
theorem runFrame_of_not_running {levels d : Nat} {s : Session}
    (h : (({ s with active := some d } : Session).frame d).isRunning = false) (hlevels : 0 < levels) :
    runFrame levels d s = .ok () s := by
  obtain ⟨levels, rfl⟩ := Nat.exists_eq_add_one.2 hlevels
  rw [runFrame]
  apply asActive_of_ok
  rw [get_bind_apply]
  exact runCommands_of_not_running h (patience_pos _)

/-- A run of the map's command lists does nothing as long as none is to be run. -/
theorem runInterpreter_of_not_running {s : Session} (h : s.interpreter.isRunning = false) :
    runInterpreter s = .ok () s := by
  have hlevels : 0 < nestingLimit s := by
    rw [nestingLimit]
    omega
  rw [runInterpreter, get_bind_apply]
  exact runFrame_of_not_running h hlevels

theorem alikeOutside_runInterpreter :
    runInterpreter.Lockstep AlikeOutside AlikeOutside AlikeOutside := by
  intro s t hst
  have hseen : s.seen.interpreter.isRunning = t.seen.interpreter.isRunning :=
    congrArg (fun u : Session => u.interpreter.isRunning) hst.1
  have hsame : s.interpreter.isRunning = t.interpreter.isRunning := hseen
  cases hr : s.interpreter.isRunning with
  | true =>
      have hagree := commanded_alike.runInterpreter s t (hst.inside hr)
      exact hagree.mono (fun _ _ h => h.outside) fun _ _ h => h.outside
  | false =>
      rw [runInterpreter_of_not_running hr, runInterpreter_of_not_running (hsame ▸ hr)]
      exact .ok hst

/-- A list begins alike whatever the latest one has left behind. -/
theorem alikeOutside_setupInterpreter (list : Json) (event : Int) :
    (setupInterpreter list event).Lockstep AlikeOutside AlikeOutside AlikeOutside := by
  have hclear : (modify (updateInterpreter Interpreter.clear) : Play PUnit).Lockstep
      AlikeOutside AlikeOutside AlikeOutside := by
    refine lockstep_modify fun s t hst => ⟨?_, fun hr => ?_⟩
    · exact congrArg (fun u : Session => { u with interpreter := {} }) hst.1
    · cases hr
  have hopen : (openFrame list event).Lockstep AlikeOutside AlikeOutside AlikeOutside :=
    free_alikeOutside.faithful.look (fun _ => rfl) fun _ =>
      (free_alikeOutside.faithful.reading _).bind fun _ => lockstep_value _
  refine hclear.bind fun _ => hopen.bind fun frame => ?_
  refine lockstep_modify fun s t hst => ⟨?_, fun _ => rfl⟩
  exact congrArg (fun u : Session => { u with interpreter := { root := { frame with table := {} } } })
    hst.1

/-- **Frames keep sessions alike.** -/
theorem framed_alikeOutside : Framed AlikeOutside AlikeOutside :=
  { free_alikeOutside.faithful with
    fails := fun h => h
    popped := free_alikeOutside.popped
    refreshMap := free_alikeOutside.refreshMap
    commonEvents := free_alikeOutside.commonEvents
    setupInterpreter := alikeOutside_setupInterpreter
    runInterpreter := alikeOutside_runInterpreter }

/-! ### Many frames -/

end Play

/-- A session some frames later; after a frame that fails the next one goes on. -/
def Session.later : Nat → Session → Session
  | 0, s => s
  | n + 1, s => (Play.advance.after s).later n

theorem Session.later_of_preserves {P : Session → Prop} (h : Play.advance.Preserves P) {s : Session}
    (hs : P s) (n : Nat) : P (s.later n) := by
  induction n generalizing s with
  | zero => exact hs
  | succ n ih =>
      rw [Session.later]
      exact ih (h s hs)

/-- **Sessions that are alike stay so over any number of frames.** -/
theorem Session.AlikeOutside.later {s t : Session} (h : s.AlikeOutside t) (n : Nat) :
    (s.later n).AlikeOutside (t.later n) := by
  induction n generalizing s t with
  | zero => exact h
  | succ n ih =>
      rw [Session.later, Session.later]
      exact ih (Play.framed_alikeOutside.advance.after h)

namespace Play

/-! ### What a single session keeps -/

/-- A property that depends on the ground alone, and is kept by the commands that write the ground; a
failure leaves a second property. -/
structure Upheld (P F : Session → Prop) : Prop where
  ground : ∀ {s t : Session}, P s → t.ground = s.ground → P t
  fails : ∀ {s : Session}, P s → F s
  leave : ∀ {s : Session} (a : Option Nat), F s → F { s with active := a }
  setSwitches : ∀ (d : Nat) (first last : Int) (on : Bool),
    (carryOutPlain d (.setSwitches first last on)).Keeps P F
  changeVariables : ∀ (d : Nat) (first last : Json) (op : VariableOp) (source : VariableSource),
    (carryOutPlain d (.changeVariables first last op source)).Keeps P F
  setSelfSwitch : ∀ (d : Nat) (given : Except Fault (Json × Bool)),
    (carryOutPlain d (.setSelfSwitch given)).Keeps P F
  eraseEvent : ∀ id : Int, (Play.eraseEvent id).Keeps P F

/-- A property that the beginning of a list keeps as well. -/
structure UpheldBetween (P F : Session → Prop) : Prop extends Upheld P F where
  popped : ∀ {s : Session}, P s → P s.popped
  commonEvents : Play.commonEvents.Keeps P F

/-- A property that the other operations of a frame keep as well. -/
structure UpheldThroughout (P F : Session → Prop) : Prop extends UpheldBetween P F where
  refreshMap : Play.refreshMap.Keeps P F

/-- Two sessions that are alike and have a property. -/
def Both (P : Session → Prop) (s t : Session) : Prop := s.Alike t ∧ P s ∧ P t

variable {α : Type} {P F : Session → Prop}

theorem Both.keeps {x : Play α} (hx : x.Lockstep (Both P) (Both P) (Both F)) : x.Keeps P F :=
  hx.keeps (fun _ hs => ⟨⟨rfl, rfl⟩, hs, hs⟩) (fun _ _ h => h.2.1) fun _ _ h => h.2.1

theorem Both.privy (h : ∀ {s t : Session}, P s → t.ground = s.ground → P t) : Privy (Both P) where
  seen := fun hst => hst.1.1
  stays := fun hst hs ht hseen =>
    ⟨free_alike.writes hst.1 hs.interpreter ht.interpreter hseen,
      h hst.2.1 hs.ground, h hst.2.2 ht.ground⟩
  interpreter := fun hst => hst.1.2
  frames := fun i hst => ⟨privy_alike.frames i hst.1, h hst.2.1 rfl, h hst.2.2 rfl⟩

/-- **What commands keep of a session goes along with what they keep of two.** -/
theorem Upheld.commanded (h : Upheld P F) : Commanded (Both P) (Both F) :=
  { Both.privy h.ground with
    fails := fun hst => ⟨hst.1, h.fails hst.2.1, h.fails hst.2.2⟩
    leave := fun a hst => ⟨commanded_alike.leave a hst.1, h.leave a hst.2.1, h.leave a hst.2.2⟩
    setSwitches := fun d first last on =>
      (commanded_alike.setSwitches d first last on).with_keeps (h.setSwitches d first last on)
    changeVariables := fun d first last op source =>
      (commanded_alike.changeVariables d first last op source).with_keeps
        (h.changeVariables d first last op source)
    setSelfSwitch := fun d given =>
      (commanded_alike.setSelfSwitch d given).with_keeps (h.setSelfSwitch d given)
    eraseEvent := fun id => (commanded_alike.eraseEvent id).with_keeps (h.eraseEvent id) }

theorem UpheldBetween.beginning (h : UpheldBetween P F) : Beginning (Both P) (Both F) :=
  { h.commanded with
    popped := fun hst => ⟨free_alike.popped hst.1, h.popped hst.2.1, h.popped hst.2.2⟩
    commonEvents := free_alike.commonEvents.with_keeps h.commonEvents
    setupInterpreter := h.commanded.setupInterpreter }

/-- **What frames keep of a session goes along with what they keep of two.** -/
theorem UpheldThroughout.framed (h : UpheldThroughout P F) : Framed (Both P) (Both F) :=
  { h.beginning with
    refreshMap := free_alike.refreshMap.with_keeps h.refreshMap
    runInterpreter := h.commanded.runInterpreter }

end Play

end EventLayer
