/-
**A command that calls a common event.**

A command that runs a common event puts the list of it above the one that it stands in, and does nothing
else to the lists: the one that calls goes on at the next command, and those below stay as they are.  The
call is the last thing that such a command does, so that one which fails has called nothing.

Main definitions:

* `Frame.called` — a list that has called a common event;
* `Session.Spares` — a session in which a list carries out a command, with the lists below as they were;
* `Session.HasCalled` — a session in which a list has called a common event;
* `Play.CallsLast` — operations that have called nothing where they fail.

Main results:

* `Play.spares_carryOut` — a command leaves the lists below its own;
* `Play.carryOut_of_callee` — what runs a common event does nothing else to the lists;
* `Play.step_hasCalled` — **a command calls a common event, or no list comes above its own**.
-/
import EventLayer.Proofs.Ending.Progress

set_option autoImplicit false
set_option relaxedAutoImplicit false

namespace EventLayer

/-- A list that has called a common event with a command: it stands at the next one. -/
def Frame.called (c : EventCommand) (f : Frame) : Frame :=
  { Play.beginCommand c f with index := f.index + 1 }

namespace Session

/-- A session while the list at a depth carries out a command: the lists below another depth are those of
the session in which it began to. -/
structure Spares (s : Session) (d k : Nat) (t : Session) : Prop where
  active : t.active = some d
  depth : d ≤ t.interpreter.nested.length
  below : ∀ e < k, t.frame e = s.frame e

/-- The list at a depth has carried out a command that runs a common event, which stands above it. -/
structure HasCalled (s : Session) (d : Nat) (t : Session) : Prop where
  depth : t.interpreter.nested.length = d + 1
  below : ∀ e < d, t.frame e = s.frame e
  command : ∃ c, (s.frame d).current? = some c ∧ t.Calls s.game d c.instruction ∧
    t.frame d = (s.frame d).called c

variable {s t : Session} {d e k : Nat}

theorem Spares.refl (hactive : s.active = some d) (hdepth : s.interpreter.nested.length = d) (k : Nat) :
    s.Spares d k s :=
  ⟨hactive, Nat.le_of_eq hdepth.symm, fun _ _ => rfl⟩

theorem Spares.updateFrame (h : s.Spares d k t) (he : k ≤ e) (F : Frame → Frame) :
    s.Spares d k (t.updateFrame e F) where
  active := h.active
  depth := Nat.le_trans h.depth (Nat.le_of_eq (Interpreter.length_nested_modify ..).symm)
  below := by
    intro e' he'
    have hne : e ≠ e' := by omega
    exact (Interpreter.frame_modify_of_ne hne t.interpreter F).trans (h.below e' he')

end Session

namespace Play

open Session

variable {α β : Type} {s : Session} {d k : Nat}

/-! ### The lists below -/

/-- What is done to lists from a depth on leaves those below. -/
theorem unmoved_spares (s : Session) (d k : Nat) : Unmoved (k ≤ ·) (s.Spares d k) where
  aside := fun _ _ _ _ ht _ => { ht with }
  setSwitch := fun _ _ ht => { ht with }
  setVariable := fun _ _ ht => { ht with }
  setSelfSwitch := fun _ _ ht => { ht with }
  requestRefresh := fun ht => { ht with }
  recordOrigin := fun _ _ _ ht => { ht with }
  setBehavior := fun _ ht => { ht with }
  gain := fun _ _ ht => { ht with }
  onFrame := fun he _ _ ht => ht.updateFrame he _

/-- A common event comes above the list that calls it. -/
theorem spares_callCommon (hk : k ≤ d + 1) (id : Json) : (callCommon d id).Preserves (s.Spares d k) := by
  refine preserves_getBind fun _ => ?_
  split
  · exact (unmoved_spares s d k).note _
  · have hopen : ∀ list event, (openFrame list event).Preserves (s.Spares d k) := fun _ _ =>
      preserves_getBind fun _ => ((unmoved_spares s d k).reading _).bind fun _ => preserves_pure _
    refine (hopen _ _).bind fun frame => preserves_modify fun t ht => ?_
    constructor
    · exact ht.active
    · have hpushed := Interpreter.length_nested_push ht.depth frame
      exact Nat.le_trans (Nat.le_succ d) (Nat.le_of_eq hpushed.symm)
    · intro e he
      have hbelow : e ≤ d := by omega
      exact (Interpreter.frame_push hbelow ht.depth frame).trans (ht.below e he)

theorem spares_displayTreasure (hk : k ≤ d + 1) : displayTreasure.Preserves (s.Spares d k) := by
  have hlater : ∀ id : Int, (modify (Session.reserve id) : Play PUnit).Preserves (s.Spares d k) :=
    fun _ => preserves_modify fun _ ht => { ht with }
  refine preserves_getBind_of fun t ht => (preserves_pure ()).ite ?_
  rw [ht.active]
  exact (spares_callCommon hk _).ite (hlater _)

/-- **A command leaves the lists below its own.** -/
theorem spares_carryOut (s : Session) (d : Nat) (i : Instruction) :
    (carryOut d i).Preserves (s.Spares d d) := by
  have hunmoved := unmoved_spares s d d
  have herase : ∀ id : Int, (eraseEvent id).Preserves (s.Spares d d) :=
    preserves_eraseEvent (fun _ _ ht => { ht with }) fun _ _ _ ht => { ht with }
  refine hunmoved.carryOut (Nat.le_refl d) (fun id _ => spares_callCommon (Nat.le_succ d) id) ?_ ?_ ?_
  · intro target route _
    refine hunmoved.forceNamed (fun {t} who route ht => ?_) (fun _ ht => ?_) target route
    · cases who <;> exact { ht with }
    · exact ht.updateFrame (Nat.le_refl d) _
  · exact fun _ => hunmoved.eraseAddressed (Nat.le_refl d) herase
  · exact fun _ => spares_displayTreasure (Nat.le_succ d)

/-! ### Operations that call a common event at last -/

/-- An operation that has brought no list above a depth where it fails. -/
def CallsLast (d : Nat) (act : Play α) : Prop :=
  ∀ s e t, s.interpreter.nested.length = d → act s = .error e t → t.interpreter.nested.length = d

namespace CallsLast

variable {x : Play α} {f : α → Play β}

theorem bind (hx : x.Preserves fun s => s.interpreter.nested.length = d)
    (hf : ∀ a, (f a).CallsLast d) : (x >>= f).CallsLast d := by
  intro s e t hs ht
  rw [bind_apply] at ht
  cases hran : x s with
  | ok a u =>
      rw [hran] at ht
      exact hf a u e t (hx.of_ok hs hran) ht
  | error e' u =>
      rw [hran] at ht
      cases ht
      exact hx.of_error hs hran

theorem getBind {f : Session → Play β} (hf : ∀ s, (f s).CallsLast d) : (get >>= f).CallsLast d :=
  fun s e t hs ht => hf s s e t hs ht

theorem bindPure (hx : x.CallsLast d) (g : α → β) : (x >>= fun a => pure (g a)).CallsLast d := by
  intro s e t hs ht
  rw [bind_apply] at ht
  cases hran : x s with
  | ok a u =>
      rw [hran] at ht
      cases ht
  | error e' u =>
      rw [hran] at ht
      cases ht
      exact hx s e t hs hran

theorem discard (hx : x.CallsLast d) : (Functor.discard x : Play PUnit).CallsLast d := by
  intro s e t hs ht
  rw [discard_apply] at ht
  cases hran : x s with
  | ok a u =>
      rw [hran] at ht
      cases ht
  | error e' u =>
      rw [hran] at ht
      cases ht
      exact hx s e t hs hran

theorem tryCatch {handle : Fault → Play α} (hx : x.CallsLast d) (hh : ∀ e, (handle e).CallsLast d) :
    (MonadExcept.tryCatch x handle : Play α).CallsLast d := by
  intro s e t hs ht
  have hcatch : (MonadExcept.tryCatch x handle : Play α) s = _ := tryCatch_apply x handle s
  rw [hcatch] at ht
  cases hran : x s with
  | ok a u =>
      rw [hran] at ht
      cases ht
  | error e' u =>
      rw [hran] at ht
      exact hh e' u e t (hx s e' u hs hran) ht

end CallsLast

theorem callsLast_pure (a : α) : (pure a : Play α).CallsLast d := fun _ _ _ _ h => nomatch h

theorem callsLast_throw (e : Fault) : (throw e : Play α).CallsLast d := by
  intro s e' t hs ht
  cases ht
  exact hs

theorem callsLast_modify (F : Session → Session) : (modify F : Play PUnit).CallsLast d :=
  fun _ _ _ _ h => nomatch h

/-- No single write of a command brings a list above. -/
theorem unmoved_depth (d : Nat) : Unmoved (fun _ => True) fun s => s.interpreter.nested.length = d where
  aside := fun _ _ _ _ hs _ => hs
  setSwitch := fun _ _ hs => hs
  setVariable := fun _ _ hs => hs
  setSelfSwitch := fun _ _ hs => hs
  requestRefresh := fun hs => hs
  recordOrigin := fun _ _ _ hs => hs
  setBehavior := fun _ hs => hs
  gain := fun _ _ ht => ht
  onFrame := fun _ _ _ hs => (Interpreter.length_nested_modify ..).trans hs

theorem callsLast_callCommon (d e : Nat) (id : Json) : (callCommon e id).CallsLast d := by
  refine CallsLast.getBind fun _ => ?_
  split
  · exact callsLast_modify _
  · have hopen : ∀ list event, (openFrame list event).Preserves fun s => s.interpreter.nested.length = d :=
      fun _ _ => preserves_getBind fun _ => ((unmoved_depth d).reading _).bind fun _ => preserves_pure _
    exact CallsLast.bind (hopen _ _) fun _ => callsLast_modify _

theorem callsLast_displayTreasure (d : Nat) : displayTreasure.CallsLast d := by
  refine CallsLast.getBind fun s => ?_
  dsimp only
  split
  · exact callsLast_pure ()
  · split
    · split
      · exact callsLast_callCommon d _ _
      · exact callsLast_modify _
    · exact callsLast_modify _

/-! ### Treasures -/

theorem callsLast_announce (d : Nat) (t : Treasure) : (announce t).CallsLast d :=
  CallsLast.bind (preserves_modify fun _ hs => hs) fun _ => (callsLast_displayTreasure d).bindPure fun _ => t

theorem callsLast_giveItem (d : Nat) (kind : ItemKind) (id amount : Json) :
    (giveItem kind id amount).CallsLast d := by
  have h := unmoved_depth d
  refine CallsLast.bind (h.reading _) fun id => CallsLast.bind (h.reading _) fun amount => ?_
  refine CallsLast.getBind fun s => ?_
  split
  · exact CallsLast.bind (h.note _) fun _ => callsLast_announce d _
  · refine CallsLast.bind (h.giveEntry _ _) fun success => ?_
    exact CallsLast.bind (preserves_except _) fun icon => callsLast_announce d _

theorem callsLast_giveGold (d : Nat) (amount : Json) : (giveGold amount).CallsLast d := by
  have h := unmoved_depth d
  refine CallsLast.bind (h.reading _) fun amount => CallsLast.getBind fun s => ?_
  dsimp only
  split
  · exact CallsLast.bind (h.gainGold _) fun _ => callsLast_announce d _
  · exact callsLast_announce d _

theorem callsLast_giveNamedOrNote (d : Nat) (args : OrderedMap String Json) :
    (giveNamedOrNote args).CallsLast d := by
  have hgive : ∀ name amount, (giveNamed name amount).CallsLast d := by
    intro name amount
    refine CallsLast.getBind fun s => CallsLast.bind (preserves_except _) fun found => ?_
    split
    · exact callsLast_throw _
    · exact callsLast_giveItem d _ _ _
  refine CallsLast.tryCatch (hgive _ _).discard fun e => ?_
  split
  · exact callsLast_modify _
  · exact callsLast_throw _

/-- The treasure that a command of this layer gives. -/
def treasureOf (args : OrderedMap String Json) : LayerCommand → Play Unit
  | .treasure kind => discard
      (giveItem kind (PluginCall.argD args ["id", "item_id"] (.str "")) (amountOf args (.int 1)))
  | .treasureGold => discard (giveGold (amountOf args (.int 0)))
  | .treasureByName => giveNamedOrNote args
  | _ => pure ()

/-- What gives a treasure does nothing else. -/
theorem carryOutOwn_of_givesTreasure {c : LayerCommand} (h : c.givesTreasure = true)
    (args : OrderedMap String Json) : carryOutOwn d c args = (do treasureOf args c; return none) := by
  cases c with
  | treasure kind => rfl
  | treasureGold => rfl
  | treasureByName => rfl
  | _ => cases h

theorem spares_treasureOf (s : Session) (d : Nat) (args : OrderedMap String Json) (c : LayerCommand) :
    (treasureOf args c).Preserves (s.Spares d (d + 1)) := by
  have h := unmoved_spares s d (d + 1)
  have hshow : displayTreasure.Preserves (s.Spares d (d + 1)) := spares_displayTreasure (Nat.le_refl _)
  cases c with
  | treasure kind => exact (h.giveItem hshow _ _ _).discard
  | treasureGold => exact (h.giveGold hshow _).discard
  | treasureByName => exact h.giveNamedOrNote hshow args
  | _ => exact preserves_pure ()

theorem callsLast_treasureOf (d : Nat) (args : OrderedMap String Json) (c : LayerCommand) :
    (treasureOf args c).CallsLast d := by
  cases c with
  | treasure kind => exact (callsLast_giveItem d _ _ _).discard
  | treasureGold => exact (callsLast_giveGold d _).discard
  | treasureByName => exact callsLast_giveNamedOrNote d args
  | _ => exact callsLast_pure ()

/-! ### Commands that call -/

/-- **What runs a common event does nothing else to the lists**, calls it at last, and goes on at the next
command. -/
theorem carryOut_of_callee {g : Game} {i : Instruction} {entry : Json} (h : entry ∈ g.callees i) (d : Nat) :
    ∃ act : Play Unit, (∀ s, carryOut d i s = (do act; return (s.frame d).index + 1 : Play Int) s) ∧
      act.CallsLast d ∧ ∀ s : Session, act.Preserves (s.Spares d (d + 1)) := by
  have hgives : (∃ id, i = .callCommon id) ∨ i.givesTreasure = true := by
    unfold Game.callees at h
    split at h
    · exact Or.inl ⟨_, rfl⟩
    · split at h
      · next hi => exact Or.inr hi
      · cases h
  rcases hgives with ⟨id, rfl⟩ | hgives
  · exact ⟨callCommon d id, fun s => rfl, callsLast_callCommon d d id, fun s =>
      spares_callCommon (Nat.le_refl _) id⟩
  · cases i with
    | plugin call =>
        obtain ⟨c, hc, hgives⟩ := (Option.any_eq_true _ _).1 hgives
        refine ⟨treasureOf call.args c, fun s => ?_, callsLast_treasureOf d _ c, fun s =>
          spares_treasureOf s d _ c⟩
        have hcall : carryOutCall d call = (do treasureOf call.args c; return none) := by
          rw [carryOutCall, hc]
          exact carryOutOwn_of_givesTreasure hgives call.args
        rw [carryOut, get_bind_apply]
        dsimp only
        rw [hcall, bind_apply, bind_apply, bind_apply]
        cases treasureOf call.args c s <;> rfl
    | _ => cases hgives

theorem index_of_callee {g : Game} {i : Instruction} {entry : Json} {next : Int} {u : Session}
    (hentry : entry ∈ g.callees i) (hactive : s.active = some d) (hdepth : s.interpreter.nested.length = d)
    (h : carryOut d i s = .ok next u) : next = (s.frame d).index + 1 ∧ u.frame d = s.frame d := by
  obtain ⟨act, hact, -, hkeeps⟩ := carryOut_of_callee hentry d
  rw [hact] at h
  obtain ⟨_, v, hran, hv⟩ := bind_eq_ok h
  cases hv
  have hkept := (hkeeps s).of_ok (.refl hactive hdepth (d + 1)) hran
  exact ⟨rfl, hkept.below d (Nat.lt_succ_self d)⟩

theorem depth_of_callee {g : Game} {i : Instruction} {entry : Json} {e : Fault} {u : Session}
    (hentry : entry ∈ g.callees i) (hdepth : s.interpreter.nested.length = d)
    (h : carryOut d i s = .error e u) : u.interpreter.nested.length = d := by
  obtain ⟨act, hact, hlast, -⟩ := carryOut_of_callee hentry d
  rw [hact] at h
  exact hlast.bindPure _ s e u hdepth h

/-! ### One command -/

section

variable {c : EventCommand}

theorem length_nested_begun (hdepth : s.interpreter.nested.length = d) (c : EventCommand) :
    (s.updateFrame d (beginCommand c)).interpreter.nested.length = d :=
  (Interpreter.length_nested_modify ..).trans hdepth

theorem atWork_begun (hactive : s.active = some d) (hdepth : s.interpreter.nested.length = d) :
    AtWork s.game d s c.instruction (s.updateFrame d (beginCommand c)) :=
  AtWork.updateFrame ⟨⟨rfl, hactive⟩, fun _ _ => rfl, Or.inl hdepth⟩ d fun _ => rfl

/-- A command that fails has called nothing. -/
theorem depth_of_failed {e : Fault} {u : Session} (hactive : s.active = some d)
    (hdepth : s.interpreter.nested.length = d)
    (h : carryOut d c.instruction (s.updateFrame d (beginCommand c)) = .error e u) :
    u.interpreter.nested.length = d := by
  have hwork := (atWork_carryOut s.game d s c.instruction).of_error (atWork_begun hactive hdepth) h
  rcases hwork.calls with hnone | ⟨-, entry, hentry, -⟩
  · exact hnone
  · exact depth_of_callee hentry (length_nested_begun hdepth c) h

/-- A command that is carried out has called a common event, or no list has come above its own. -/
theorem hasCalled_of_done {next : Int} {u : Session} (hactive : s.active = some d)
    (hdepth : s.interpreter.nested.length = d) (hc : (s.frame d).current? = some c)
    (h : carryOut d c.instruction (s.updateFrame d (beginCommand c)) = .ok next u) :
    (u.updateFrame d fun f => { f with index := next }).interpreter.nested.length = d ∨
      s.HasCalled d (u.updateFrame d fun f => { f with index := next }) := by
  have hbegin := Spares.refl hactive hdepth d
  have hleft := (spares_carryOut s d c.instruction).of_ok (hbegin.updateFrame (Nat.le_refl d) _) h
  have hcalls :=
    ((atWork_carryOut s.game d s c.instruction).of_ok (atWork_begun hactive hdepth) h).calls
  have hmoved := hcalls.updateFrame d (F := fun f => { f with index := next }) fun _ => rfl
  rcases hcalls with hnone | ⟨hcalled, entry, hentry, -⟩
  · exact Or.inl ((Interpreter.length_nested_modify ..).trans hnone)
  · obtain ⟨rfl, hkept⟩ := index_of_callee hentry (by exact hactive) (length_nested_begun hdepth c) h
    have hdone : (s.updateFrame d (beginCommand c)).frame d = beginCommand c (s.frame d) :=
      Interpreter.frame_modify_self hbegin.depth _
    have hcaller : u.frame d = beginCommand c (s.frame d) := hkept.trans hdone
    refine Or.inr ⟨(Interpreter.length_nested_modify ..).trans hcalled, ?_, c, hc, hmoved, ?_⟩
    · exact (hleft.updateFrame (Nat.le_refl d) _).below
    · refine (Interpreter.frame_modify_self hleft.depth _).trans ?_
      rw [hdone, show u.interpreter.frame d = _ from hcaller]
      rfl

end

/-- **A command calls a common event, or no list comes above its own**; either way it leaves the lists
below. -/
theorem step_hasCalled (hactive : s.active = some d) (hdepth : s.interpreter.nested.length = d) :
    (∀ e < d, ((step d).after s).frame e = s.frame e) ∧
      (((step d).after s).interpreter.nested.length = d ∨ s.HasCalled d ((step d).after s)) := by
  have hbegin := Spares.refl hactive hdepth d
  cases hc : (s.frame d).current? with
  | none =>
      rw [after_of_ok (step_of_end hc)]
      have hended := hbegin.updateFrame (Nat.le_refl d) Frame.terminate
      constructor
      · intro e he
        exact (Interpreter.frame_cut (Nat.le_of_lt he) _).trans (hended.below e he)
      · exact Or.inl (Interpreter.length_nested_cut hended.depth)
  | some c =>
      rcases step_of_current hc with hstep | hstep
      · rw [after_of_error hstep]
        exact ⟨fun _ _ => rfl, Or.inl hdepth⟩
      · have hbegun := hbegin.updateFrame (Nat.le_refl d) (beginCommand c)
        rw [modify_bind_apply] at hstep
        cases hcarried : carryOut d c.instruction (s.updateFrame d (beginCommand c)) with
        | error e u =>
            rw [bind_of_error hcarried] at hstep
            rw [after_of_error hstep]
            have hleft := (spares_carryOut s d _).of_error hbegun hcarried
            exact ⟨hleft.below, Or.inl (depth_of_failed hactive hdepth hcarried)⟩
        | ok next u =>
            rw [bind_of_ok hcarried] at hstep
            rw [after_of_ok hstep]
            have hleft := (spares_carryOut s d _).of_ok hbegun hcarried
            have hbelow := (hleft.updateFrame (Nat.le_refl d) fun f => { f with index := next }).below
            exact ⟨hbelow, hasCalled_of_done hactive hdepth hc hcarried⟩

end Play

end EventLayer
