/-
**One command of a list.**

While a list carries out a command, the lists up to it stand where they stood, and at most one list comes
to stand above it: a common event that the command runs.  When the command is done, its list has come to
its end, or it goes on behind the command.

Main definitions:

* `Session.Calls` — at most one list has come above the list at a depth, one that an instruction runs;
* `Session.AtWork` — a session while the list at a depth carries out an instruction;
* `Session.Proceeds` — how a session goes on after a command.

Main results:

* `Play.enduring_atWork`, `Play.atWork_carryOut` — nothing but a call brings another list above;
* `Play.step_proceeds` — **a list of commands without negative indentation goes forward**.
-/
import EventLayer.Proofs.Ending.Calls
import EventLayer.Proofs.Stack

set_option autoImplicit false
set_option relaxedAutoImplicit false

namespace EventLayer

namespace Session

/-- Above the list at a depth there is at most one, and it is a common event that an instruction runs. -/
def Calls (g : Game) (d : Nat) (i : Instruction) (t : Session) : Prop :=
  t.interpreter.nested.length = d ∨ t.interpreter.nested.length = d + 1 ∧ ∃ e ∈ g.callees i, ∃ l,
    (EventCommand.readList (CommonEvent.listOf e)).result = .ok l ∧
      (t.frame (d + 1)).commands = some l

/-- The lists up to a depth stand where they stand in another session. -/
def StandsUpTo (d : Nat) (s t : Session) : Prop :=
  ∀ e ≤ d, (t.frame e).course = (s.frame e).course

/-- A session of a game while the list at a depth carries out an instruction, compared with the session in
which it began to. -/
def AtWork (g : Game) (d : Nat) (s : Session) (i : Instruction) (t : Session) : Prop :=
  (t.game = g ∧ t.active = some d) ∧ StandsUpTo d s t ∧ t.Calls g d i

/-- How a session goes on after the list at a depth has carried out a command: the list has ended, or it
goes on behind the command, below a common event that the command runs. -/
structure Proceeds (g : Game) (d : Nat) (s t : Session) : Prop where
  game : t.game = g
  active : t.active = some d
  below : ∀ e < d, (t.frame e).course = (s.frame e).course
  course : (t.frame d).isRunning = false ∧ t.interpreter.nested.length = d ∨
    ∃ c ∈ (s.frame d).list, ∃ next, (s.frame d).index < (s.frame d).list.length ∧
      (s.frame d).index < next ∧ (t.frame d).course = { s.frame d with index := next }.course ∧
      t.Calls g d c.instruction

variable {g : Game} {d : Nat} {s t : Session} {i : Instruction}

theorem AtWork.game (h : AtWork g d s i t) : t.game = g := h.1.1

theorem AtWork.active (h : AtWork g d s i t) : t.active = some d := h.1.2

theorem AtWork.stands (h : AtWork g d s i t) : StandsUpTo d s t := h.2.1

theorem AtWork.calls (h : AtWork g d s i t) : t.Calls g d i := h.2.2

theorem AtWork.depth (h : AtWork g d s i t) : d ≤ t.interpreter.nested.length := by
  rcases h.calls with hnested | ⟨hnested, -⟩
  · omega
  · omega

/-- A change that leaves the commands of a list brings none above. -/
theorem Calls.updateFrame (h : t.Calls g d i) (e : Nat) {F : Frame → Frame}
    (hF : ∀ f, (F f).commands = f.commands) : (t.updateFrame e F).Calls g d i := by
  have hlength : (t.updateFrame e F).interpreter.nested.length = t.interpreter.nested.length :=
    Interpreter.length_nested_modify ..
  rcases h with hnested | ⟨hnested, entry, hentry, l, hreads, hl⟩
  · exact Or.inl (hlength.trans hnested)
  · refine Or.inr ⟨hlength.trans hnested, entry, hentry, l, hreads, ?_⟩
    exact (frame_updateFrame_of_keeps hF t e (d + 1)).trans hl

/-- A change that leaves where a list stands brings none above. -/
theorem AtWork.updateFrame (ht : AtWork g d s i t) (e : Nat) {F : Frame → Frame}
    (hF : ∀ f, (F f).course = f.course) : AtWork g d s i (t.updateFrame e F) := by
  refine ⟨ht.1, ?_, ht.calls.updateFrame e fun f => (Frame.eq_of_course (hF f)).1⟩
  intro e' he'
  exact (frame_updateFrame_of_keeps hF t e e').trans (ht.stands e' he')

end Session

namespace Frame

variable {f f' : Frame}

/-- A list that is not at its end stands before it. -/
theorem mem_of_current? {c : EventCommand} (h : f.current? = some c) :
    c ∈ f.list ∧ f.index < f.list.length := by
  obtain ⟨hplace, -⟩ := Option.filter_eq_some_iff.1 h
  obtain ⟨hlt, -⟩ := List.getElem?_eq_some_iff.1 hplace
  refine ⟨List.mem_of_getElem? hplace, ?_⟩
  unfold place at hlt
  split at hlt
  · omega
  · omega

/-- A list with a next command is being run. -/
theorem isRunning_of_current? {c : EventCommand} (h : f.current? = some c) : f.isRunning = true := by
  obtain ⟨hmem, -⟩ := mem_of_current? h
  cases hcommands : f.commands with
  | none =>
      rw [list, hcommands] at hmem
      cases hmem
  | some l => rw [isRunning, hcommands, Option.isSome_some]

theorem list_of_course (h : f'.course = f.course) : f'.list = f.list :=
  congrArg (fun c => c.getD []) (eq_of_course h).1

/-- Where a list can go on depends on where it stands. -/
theorem LeadsTo.of_course {next : Int} (h : f'.LeadsTo next) (hsame : f'.course = f.course) :
    f.LeadsTo next := by
  obtain ⟨-, hindex, htable⟩ := eq_of_course hsame
  cases h with
  | past n =>
      rw [hindex]
      exact .past n
  | out =>
      rw [list_of_course hsame]
      exact .out
  | jump hm hat => exact .jump (htable ▸ hm) (hat.trans hindex)

end Frame

namespace Play

open Session

variable {g : Game} {d : Nat} {s t : Session} {i : Instruction}

/-! ### While a command is carried out -/

/-- No single write of a command moves a list or brings one above. -/
theorem enduring_atWork (g : Game) (d : Nat) (s : Session) (i : Instruction) :
    Enduring (AtWork g d s i) where
  aside := fun _ _ _ _ ht _ => ht
  setReserved := fun _ ht => ht
  setSwitch := fun _ _ ht => ht
  setVariable := fun _ _ ht => ht
  setSelfSwitch := fun _ _ ht => ht
  requestRefresh := fun ht => ht
  recordOrigin := fun _ _ _ ht => ht
  setBehavior := fun _ ht => ht
  gain := fun _ _ ht => ht
  forceRoute := by
    intro t who route ht
    cases who <;> exact ht
  eraseEvent := preserves_eraseEvent (fun _ _ ht => ht) fun _ _ _ ht => ht
  onFrame := fun _ hF _ ht => ht.updateFrame _ hF.course
  await := fun e _ ht => ht.updateFrame e fun _ => rfl

/-- A common event is called by an instruction that runs it. -/
theorem atWork_callCommon {id : Json}
    (hid : ∀ e, g.database.commonEvent? id = some e → e ∈ g.callees i) :
    (callCommon d id).Preserves (AtWork g d s i) := by
  refine preserves_getBind_of fun t ht => ?_
  rw [ht.game]
  split
  · exact (enduring_atWork g d s i).note _
  · next e he =>
      have hreads : ReadsAs (fun l => (EventCommand.readList (CommonEvent.listOf e)).result = .ok l)
          (CommonEvent.listOf e) := fun _ hl => hl
      refine preserves_openFrame ?_ hreads _ ?_
      · intro u n hu
        exact hu
      · intro frame hframe hrunning
        obtain ⟨l, hl⟩ := Option.isSome_iff_exists.1 hrunning
        refine preserves_modify ?_
        intro u hu
        refine ⟨hu.1, ?_, Or.inr ⟨Interpreter.length_nested_push hu.depth frame, e, hid e he, l, ?_, ?_⟩⟩
        · intro e' he'
          have hkept := Interpreter.frame_push he' hu.depth frame
          exact (congrArg Frame.course hkept).trans (hu.stands e' he')
        · exact (hframe.built l hl).1
        · have hpushed : (u.interpreter.push d frame).frame (d + 1) = frame :=
            Interpreter.frame_push_self hu.depth frame
          exact (congrArg Frame.commands hpushed).trans hl

/-- A treasure is shown by a command that gives one. -/
theorem atWork_displayTreasure (hi : i.givesTreasure = true) :
    displayTreasure.Preserves (AtWork g d s i) := by
  have hreserve : ∀ id : Int, (modify (Session.reserve id) : Play PUnit).Preserves (AtWork g d s i) := by
    intro id
    exact preserves_modify fun t ht => ht
  refine preserves_getBind_of fun t ht => ?_
  rw [ht.game, ht.active]
  by_cases hnone : g.config.treasureDisplay = 0
  · rw [if_pos hnone]
    exact preserves_pure ()
  · rw [if_neg hnone]
    refine Preserves.ite (atWork_callCommon ?_) (hreserve _)
    intro e he
    rw [Game.callees_of_givesTreasure hi, Game.displayEntry?, if_neg hnone, he]
    exact List.mem_singleton.2 rfl

/-- **Nothing but a call brings another list above.** -/
theorem atWork_carryOut (g : Game) (d : Nat) (s : Session) (i : Instruction) :
    (carryOut d i).Preserves (AtWork g d s i) := by
  refine (enduring_atWork g d s i).carryOut d ?_ atWork_displayTreasure
  rintro id rfl
  refine atWork_callCommon ?_
  intro e he
  rw [Game.callees, he]
  exact List.mem_singleton.2 rfl

/-! ### When it is done -/

/-- A list without a next command comes to its end. -/
theorem step_of_end (h : (s.frame d).current? = none) : step d s =
    .ok () ((s.updateFrame d Frame.terminate).updateInterpreter fun i => i.cut d) := by
  unfold step
  rw [get_bind_apply, h]
  rfl

/-- A list that has carried out a command moves to where the command lets it go on. -/
theorem step_carries {c : EventCommand} (hc : (s.frame d).current? = some c) (h : step d s = .ok () t) :
    ∃ next u, carryOut d c.instruction (s.updateFrame d (beginCommand c)) = .ok next u ∧
      t = u.updateFrame d fun f => { f with index := next } := by
  rcases step_of_current hc with hstep | hstep
  · rw [hstep] at h
    cases h
  · rw [hstep, modify_bind_apply] at h
    obtain ⟨next, u, hcarried, h⟩ := bind_eq_ok h
    cases h
    exact ⟨next, u, hcarried, rfl⟩

/-- A command moves its list to a place to which it leads. -/
theorem step_eq_ok {c : EventCommand} (hgame : s.game = g) (hactive : s.active = some d)
    (hnested : s.interpreter.nested.length = d) (hc : (s.frame d).current? = some c)
    (h : step d s = .ok () t) : ∃ u next, AtWork g d s c.instruction u ∧ (s.frame d).LeadsTo next ∧
      t = u.updateFrame d fun f => { f with index := next } := by
  obtain ⟨next, u, hcarried, rfl⟩ := step_carries hc h
  have hbegun : AtWork g d s c.instruction s :=
    ⟨⟨hgame, hactive⟩, fun _ _ => rfl, Or.inl hnested⟩
  have hcourse : ∀ f, (beginCommand c f).course = f.course := fun _ => rfl
  have hbegins := hbegun.updateFrame d hcourse
  refine ⟨u, next, (atWork_carryOut g d s c.instruction).of_ok hbegins hcarried, ?_, rfl⟩
  exact (carryOut_leadsTo c.instruction next u hcarried).of_course
    (frame_updateFrame_of_keeps hcourse s d d)

/-- **A list of commands without negative indentation goes forward.** -/
theorem step_proceeds (hgame : s.game = g) (hactive : s.active = some d)
    (hnested : s.interpreter.nested.length = d) (horderly : s.interpreter.Orderly Indented)
    (hrunning : (s.frame d).isRunning = true) (h : step d s = .ok () t) : Proceeds g d s t := by
  have hdepth : d ≤ s.interpreter.nested.length := Nat.le_of_eq hnested.symm
  cases hc : (s.frame d).current? with
  | none =>
      rw [step_of_end hc] at h
      cases h
      refine ⟨hgame, hactive, ?_, Or.inl ⟨?_, ?_⟩⟩
      · intro e he
        have hcut := Interpreter.frame_cut (Nat.le_of_lt he) (s.interpreter.modify Frame.terminate d)
        have hkept := Interpreter.frame_modify_of_ne (Nat.ne_of_gt he) s.interpreter Frame.terminate
        exact congrArg Frame.course (hcut.trans hkept)
      · have hcut := Interpreter.frame_cut (Nat.le_refl d) (s.interpreter.modify Frame.terminate d)
        have hended := Interpreter.frame_modify_self hdepth Frame.terminate
        exact congrArg Frame.isRunning (hcut.trans hended)
      · refine Interpreter.length_nested_cut ?_
        exact Nat.le_trans hdepth (Nat.le_of_eq (Interpreter.length_nested_modify ..).symm)
  | some c =>
      obtain ⟨u, next, hwork, hleads, rfl⟩ := step_eq_ok hgame hactive hnested hc h
      obtain ⟨hmem, hwithin⟩ := Frame.mem_of_current? hc
      have hforward : (s.frame d).table.IsForward := by
        obtain ⟨l, hl⟩ := Option.isSome_iff_exists.1 hrunning
        obtain ⟨hindented, hbuilt⟩ := (horderly.frame d).built l hl
        rw [show (s.frame d).table = WeightTable.build l from hbuilt]
        exact WeightTable.isForward_build hindented
      have hbehind := hleads.lt hforward hwithin
      refine ⟨hwork.game, hwork.active, ?_, Or.inr ⟨c, hmem, next, hwithin, hbehind, ?_, ?_⟩⟩
      · intro e he
        have hkept := Interpreter.frame_modify_of_ne (Nat.ne_of_gt he) u.interpreter
          fun f => { f with index := next }
        exact (congrArg Frame.course hkept).trans (hwork.stands e (Nat.le_of_lt he))
      · have hmoved := Interpreter.frame_modify_self hwork.depth fun f => { f with index := next }
        have hstood := hwork.stands d (Nat.le_refl d)
        refine (congrArg Frame.course hmoved).trans ?_
        exact congrArg (fun f : Frame => { f with index := next }) hstood
      · exact hwork.calls.updateFrame d fun _ => rfl

end Play

end EventLayer
