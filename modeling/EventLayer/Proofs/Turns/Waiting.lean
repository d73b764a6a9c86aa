/-
**Waiting for an event that will not go on.**

A list that puts a character on a route can wait for the end of the route.  An erased event goes through
no route: a list that waits for one waits in vain, unless the event is not on a route any more.  Erasing
an event takes it off its route together with its page.  What remains are three ways into a vain wait: a
command that puts an erased event on a route, a route that is forced from outside on an erased event, and
the erasing from outside of an event that shows no page.

Main definitions:

* `Session.WaitsInVain` — a list that is run waits for an erased event that is on a forced route;
* `Session.Orders` — the next command of a list puts a character on a route and awaits its end;
* `Turn.IsHeedless` — a turn after which some list waits in vain.

Main results:

* `Play.advanceEvent_stranded` — an erased event on a forced route stays as it is;
* `Session.Does.waitsInVain_iff` — a single turn;
* `Session.Course.neverWaitsInVain_iff` — **no list ever waits in vain exactly if no turn is heedless**.
-/
import EventLayer.Proofs.Turns.Course
import EventLayer.Proofs.Turns.Events

set_option autoImplicit false
set_option relaxedAutoImplicit false

namespace EventLayer

/-- An event that is erased, with a route still forced on it. -/
def MapEvent.IsStranded (e : MapEvent) : Prop := e.erased = true ∧ e.body.forcing = true

namespace Session

/-! ### Lists that wait -/

/-- A list that is run waits for the route of an event. -/
def Awaits (s : Session) (id : Int) : Prop :=
  ∃ d, (s.frame d).isRunning = true ∧ (s.frame d).awaited = some (.event id)

/-- A list that is run waits for the route of an event that is erased. -/
def WaitsInVain (s : Session) : Prop :=
  ∃ id e, s.Awaits id ∧ s.event? id = some e ∧ e.IsStranded

/-- No list waits for a route. -/
def AwaitsNobody (s : Session) : Prop := ∀ d, (s.frame d).awaited = none

/-- No list waits for a route but the innermost one. -/
def OnlyInnermostWaits (s : Session) : Prop :=
  ∀ d < s.interpreter.nested.length, (s.frame d).awaited = none

variable {s t u : Session} {d : Nat}

theorem awaitsNobody_iff : s.AwaitsNobody ↔
    s.interpreter.root.awaited = none ∧ ∀ f ∈ s.interpreter.nested, f.awaited = none := by
  constructor
  · intro h
    refine ⟨h 0, fun f hf => ?_⟩
    obtain ⟨d, hd⟩ := List.mem_iff_getElem?.mp hf
    have hframe : s.frame (d + 1) = f := by
      simp [frame, Interpreter.frame, List.getD_eq_getElem?_getD, hd]
    exact hframe ▸ h (d + 1)
  · rintro ⟨hroot, hnested⟩ d
    cases d with
    | zero => exact hroot
    | succ d =>
        cases hd : s.interpreter.nested[d]? with
        | none => simp [frame, Interpreter.frame, List.getD_eq_getElem?_getD, hd]
        | some f =>
            have hframe : s.frame (d + 1) = f := by
              simp [frame, Interpreter.frame, List.getD_eq_getElem?_getD, hd]
            exact hframe ▸ hnested f (List.mem_of_getElem? hd)

theorem AwaitsNobody.onlyInnermost (h : s.AwaitsNobody) : s.OnlyInnermostWaits := fun d _ => h d

theorem AwaitsNobody.not_waitsInVain (h : s.AwaitsNobody) : ¬s.WaitsInVain := by
  rintro ⟨id, e, ⟨d, -, hawaited⟩, -⟩
  rw [h d] at hawaited
  cases hawaited

/-- If the innermost list waits for nobody, then no list does. -/
theorem OnlyInnermostWaits.awaitsNobody (h : s.OnlyInnermostWaits)
    (hdepth : s.interpreter.nested.length = d) (hfree : (s.frame d).awaited = none) :
    s.AwaitsNobody := by
  intro e
  rcases Nat.lt_trichotomy e d with hlt | rfl | hgt
  · exact h e (hdepth ▸ hlt)
  · exact hfree
  · exact congrArg Frame.awaited (Interpreter.frame_of_length_lt (hdepth ▸ hgt))

theorem AwaitsNobody.of_lists (h : s.AwaitsNobody) (hlists : t.interpreter = s.interpreter) :
    t.AwaitsNobody := fun d => (congrArg (fun i => (i.frame d).awaited) hlists).trans (h d)

theorem AwaitsNobody.updateFrame (h : s.AwaitsNobody) (d : Nat) {F : Frame → Frame}
    (hF : ∀ f, (F f).awaited = f.awaited) : (s.updateFrame d F).AwaitsNobody :=
  fun e => (frame_updateFrame_of_keeps hF s d e).trans (h e)

theorem AwaitsNobody.cut (h : s.AwaitsNobody) (d : Nat) :
    (s.updateInterpreter fun i => i.cut d).AwaitsNobody :=
  awaitsNobody_iff.mpr ⟨h 0, fun f hf => (awaitsNobody_iff.mp h).2 f (List.mem_of_mem_take hf)⟩

theorem AwaitsNobody.push (h : s.AwaitsNobody) (d : Nat) {f : Frame} (hf : f.awaited = none) :
    AwaitsNobody { s with interpreter := s.interpreter.push d f } := by
  refine awaitsNobody_iff.mpr ⟨h 0, fun g hg => ?_⟩
  rcases List.mem_append.mp hg with hg | hg
  · exact (awaitsNobody_iff.mp h).2 g (List.mem_of_mem_take hg)
  · exact List.mem_singleton.mp hg ▸ hf

/-! ### Sessions in which no list begins to wait -/

/-- A session and a later one: no list has begun to wait, no event was erased, and none was put on a
route. -/
structure Relaxes (s t : Session) : Prop where
  innermost : s.OnlyInnermostWaits → t.OnlyInnermostWaits
  awaits : ∀ id, t.Awaits id → s.Awaits id
  stranded : ∀ id e', t.event? id = some e' → e'.IsStranded →
    ∃ e, s.event? id = some e ∧ e.IsStranded

theorem Relaxes.not_waitsInVain (h : s.Relaxes t) (hs : ¬s.WaitsInVain) : ¬t.WaitsInVain := by
  rintro ⟨id, e', hawaits, he', hstranded⟩
  obtain ⟨e, he, hstranded⟩ := h.stranded id e' he' hstranded
  exact hs ⟨id, e, h.awaits id hawaits, he, hstranded⟩

theorem Relaxes.of_lists (hlists : t.interpreter = s.interpreter)
    (hstranded : ∀ id e', t.event? id = some e' → e'.IsStranded →
      ∃ e, s.event? id = some e ∧ e.IsStranded) : s.Relaxes t where
  innermost := fun h d hd => by
    rw [hlists] at hd
    rw [frame, hlists]
    exact h d hd
  awaits := fun id h => by
    obtain ⟨d, hd⟩ := h
    rw [frame, hlists] at hd
    exact ⟨d, hd⟩
  stranded := hstranded

theorem Relaxes.of_same (hlists : t.interpreter = s.interpreter) (hmap : t.map.events = s.map.events) :
    s.Relaxes t :=
  .of_lists hlists fun id e he hstranded =>
    ⟨e, (congrArg (OrderedMap.get? · id) hmap).symm.trans he, hstranded⟩

theorem GoesOn.relaxes (h : s.GoesOn t) : s.Relaxes t :=
  .of_lists h.lists fun id e' he' hstranded =>
    let ⟨e, he, hlater⟩ := h.events id e' he'
    ⟨e, he, hlater.erased.symm.trans hstranded.1, hlater.forcing hstranded.2⟩

/-- A change of a list that makes it wait for nobody else. -/
theorem relaxes_updateFrame (s : Session) (d : Nat) {F : Frame → Frame}
    (hrunning : ∀ f, (F f).isRunning = f.isRunning)
    (hawaited : ∀ f, (F f).awaited = f.awaited ∨ (F f).awaited = none) :
    s.Relaxes (s.updateFrame d F) where
  innermost := fun h e he => by
    have hlength : (s.updateFrame d F).interpreter.nested.length = s.interpreter.nested.length :=
      Interpreter.length_nested_modify ..
    have hfree := h e (hlength ▸ he)
    rcases frame_updateFrame_cases s d e F with hframe | hframe
    · exact hframe ▸ hfree
    · rw [hframe]
      exact (hawaited _).elim (fun hsame => hsame.trans hfree) id
  awaits := fun id ⟨e, hruns, hwho⟩ => by
    rcases frame_updateFrame_cases s d e F with hframe | hframe
    · exact ⟨e, hframe ▸ hruns, hframe ▸ hwho⟩
    · rw [hframe] at hruns hwho
      rcases hawaited (s.frame e) with hsame | hnone
      · exact ⟨e, (hrunning _).symm.trans hruns, hsame.symm.trans hwho⟩
      · rw [hnone] at hwho
        cases hwho
  stranded := fun _ e' he' hstranded => ⟨e', he', hstranded⟩

theorem relaxes_waits (s : Session) (d : Nat) : s.Relaxes ((Play.waits d).after s) := by
  by_cases hcount : 0 < (s.frame d).waitCount
  · rw [Play.after_of_ok (Play.waits_of_frames hcount)]
    exact relaxes_updateFrame s d (fun _ => rfl) fun _ => Or.inl rfl
  cases hwho : (s.frame d).awaited with
  | none =>
      rw [Play.after_of_ok (Play.waits_of_nobody hcount hwho)]
      exact .of_same rfl rfl
  | some who =>
      cases hforcing : (s.character who).forcing with
      | true =>
          rw [Play.after_of_ok (Play.waits_of_route hcount hwho hforcing)]
          exact .of_same rfl rfl
      | false =>
          rw [Play.after_of_ok (Play.waits_of_ended hcount hwho hforcing)]
          exact relaxes_updateFrame s d (fun _ => rfl) fun _ => Or.inr rfl

theorem relaxes_dropCallee (s : Session) (d : Nat) : s.Relaxes (s.dropCallee d) := by
  have hlength := length_nested_dropCallee s d
  refine ⟨fun h e he => ?_, ?_, fun _ e' he' hstranded => ⟨e', he', hstranded⟩⟩
  · rw [hlength] at he
    rw [frame_dropCallee (by omega)]
    exact h e (by omega)
  · rintro id ⟨e, hruns, hwho⟩
    by_cases hdepth : e ≤ d
    · have hkept := frame_dropCallee hdepth s
      exact ⟨e, hkept ▸ hruns, hkept ▸ hwho⟩
    · have hnone : (s.dropCallee d).frame e = {} := Interpreter.frame_of_length_lt (by omega)
      rw [hnone] at hwho
      cases hwho

end Session

namespace Play

open Session

variable {s t : Session} {d : Nat}

/-! ### Lists that begin -/

theorem awaited_of_openFrame {list : Json} {event : Int} {f : Frame}
    (h : openFrame list event s = .ok f t) : f.awaited = none := by
  rw [openFrame, get_bind_apply] at h
  obtain ⟨l, -, h⟩ := reading_bind_eq_ok h
  cases h
  rfl

theorem openFrame_awaitsNobody (list : Json) (event : Int) :
    (openFrame list event).Preserves AwaitsNobody :=
  preserves_getBind fun _ => (preserves_reading (fun _ _ hs => hs) _).bind fun _ => preserves_pure _

/-- When a list begins, no list waits. -/
theorem awaitsNobody_setupInterpreter (list : Json) (event : Int) (s : Session) :
    ((setupInterpreter list event).after s).AwaitsNobody := by
  have hclear : (s.updateInterpreter Interpreter.clear).AwaitsNobody :=
    awaitsNobody_iff.mpr ⟨rfl, fun f hf => absurd hf List.not_mem_nil⟩
  refine Preserves.holds_after_modify ?_ hclear
  refine (openFrame_awaitsNobody list event).bind_of_ok fun frame _ _ hframe => ?_
  refine preserves_modify fun _ _ => awaitsNobody_iff.mpr ⟨awaited_of_openFrame hframe, ?_⟩
  exact fun f hf => absurd hf List.not_mem_nil

/-! ### Commands -/

theorem unmoved_awaitsNobody : Unmoved (fun _ => True) AwaitsNobody where
  aside := fun _ _ _ _ hs _ => hs
  setSwitch := fun _ _ hs => hs
  setVariable := fun _ _ hs => hs
  setSelfSwitch := fun _ _ hs => hs
  requestRefresh := fun hs => hs
  recordOrigin := fun _ _ _ hs => hs
  setBehavior := fun _ hs => hs
  gain := fun _ _ ht => ht
  onFrame := fun _ _ ha hs => hs.updateFrame _ ha

/-- A common event that is called waits for nobody at first. -/
theorem callCommon_awaitsNobody (d : Nat) (id : Json) : (callCommon d id).Preserves AwaitsNobody := by
  refine preserves_getBind fun _ => ?_
  split
  · exact unmoved_awaitsNobody.note _
  · refine (openFrame_awaitsNobody _ _).bind_of_ok fun frame _ _ hframe => ?_
    exact preserves_modify fun _ hs => hs.push d (awaited_of_openFrame hframe)

/-- No command but one that forces a route makes a list wait for one. -/
theorem carryOut_awaitsNobody (d : Nat) {i : Instruction}
    (hi : ∀ target route, i ≠ .forceRoute target route) :
    (carryOut d i).Preserves AwaitsNobody := by
  have herase : ∀ id : Int, (eraseEvent id).Preserves AwaitsNobody :=
    preserves_eraseEvent (fun _ _ hs => hs) fun _ _ _ hs => hs
  refine unmoved_awaitsNobody.carryOut trivial (fun id _ => callCommon_awaitsNobody d id) ?_ ?_ ?_
  · exact fun target route h => absurd h (hi target route)
  · exact fun _ => unmoved_awaitsNobody.eraseAddressed trivial herase
  · exact fun _ => preserves_displayTreasure callCommon_awaitsNobody fun _ _ hs => hs

/-- A list that forces a route and is not told to wait goes on. -/
theorem forceNamed_awaitsNobody {target : Int} {route : Json} (hs : s.AwaitsNobody)
    (h : ∀ who fields r, s.characterNamed d target = some who → route = .obj fields →
      (Route.ofFields fields).result = .ok r → r.awaited = false) :
    ((forceNamed d target route).after s).AwaitsNobody := by
  unfold after
  rw [forceNamed, get_bind_apply]
  cases hwho : s.characterNamed d target with
  | none => exact hs
  | some who =>
      cases route with
      | obj fields =>
          dsimp only
          cases hr : (Route.ofFields fields).result with
          | error e =>
              rw [bind_of_error (lift_reading_of_error hr s)]
              exact hs
          | ok r =>
              have hfree := h who fields r hwho rfl hr
              rw [bind_of_ok (lift_reading_of_ok hr s), onCharacter, modify_bind_apply, hfree]
              cases who <;> exact hs
      | _ => exact hs

/-- A list that forces a route and is told to wait does so. -/
theorem forceNamed_of_awaited {target : Int} {who : CharacterId} {fields : List (String × Json)}
    {r : Route} (hwho : s.characterNamed d target = some who)
    (hr : (Route.ofFields fields).result = .ok r) (hawaited : r.awaited = true) :
    ∃ t, forceNamed d target (.obj fields) s = .ok () t ∧
      t.interpreter = s.interpreter.modify (fun f => { f with awaited := some who }) d ∧
        t.map = (s.updateCharacter who (·.forceRoute (some r))).map := by
  rw [forceNamed, get_bind_apply, hwho]
  dsimp only
  rw [bind_of_ok (lift_reading_of_ok hr s), onCharacter, modify_bind_apply, if_pos hawaited]
  refine ⟨_, rfl, ?_, ?_⟩
  · cases who <;> rfl
  · cases who <;> rfl

end Play

namespace Session

/-- The next command of the list at a depth puts a character on a route, and awaits the end of it. -/
def Orders (s : Session) (d : Nat) (who : CharacterId) (r : Route) : Prop :=
  ∃ c target fields, (s.frame d).current? = some c ∧ c.instruction = .forceRoute target (.obj fields) ∧
    s.characterNamed d target = some who ∧ (Route.ofFields fields).result = .ok r ∧ r.awaited = true

variable {s t : Session} {d : Nat}

theorem characterNamed_updateFrame (s : Session) {d : Nat} {F : Frame → Frame}
    (hF : ∀ f, (F f).map = f.map ∧ (F f).event = f.event) (target : Int) :
    (s.updateFrame d F).characterNamed d target = s.characterNamed d target := by
  have hmap : ((s.updateFrame d F).frame d).map = (s.frame d).map :=
    frame_updateFrame_of_keeps (fun f => (hF f).1) s d d
  have hevent : ((s.updateFrame d F).frame d).event = (s.frame d).event :=
    frame_updateFrame_of_keeps (fun f => (hF f).2) s d d
  unfold characterNamed
  dsimp only
  rw [hmap, hevent]
  rfl

end Session

namespace Play

open Session

variable {s t : Session} {d : Nat}

/-- A command that does not await a route leaves nobody waiting. -/
theorem step_awaitsNobody (hs : s.AwaitsNobody) (hnone : ∀ who r, ¬s.Orders d who r) :
    ((step d).after s).AwaitsNobody := by
  cases hc : (s.frame d).current? with
  | none =>
      rw [after_of_ok (step_of_end hc)]
      exact AwaitsNobody.cut (hs.updateFrame d (F := Frame.terminate) fun _ => rfl) d
  | some c =>
      rcases step_of_current hc with hstep | hstep
      · rw [after_of_error hstep]
        exact hs
      · have hbegun : (s.updateFrame d (beginCommand c)).AwaitsNobody := hs.updateFrame d fun _ => rfl
        have hcarried : ((carryOut d c.instruction).after
            (s.updateFrame d (beginCommand c))).AwaitsNobody := by
          by_cases hforces : ∃ target route, c.instruction = .forceRoute target route
          · obtain ⟨target, route, hi⟩ := hforces
            have hforced : ((forceNamed d target route).after
                (s.updateFrame d (beginCommand c))).AwaitsNobody := by
              refine forceNamed_awaitsNobody hbegun fun who fields r hwho hroute hr => ?_
              rw [characterNamed_updateFrame s (F := beginCommand c) fun _ => ⟨rfl, rfl⟩] at hwho
              refine Bool.eq_false_iff.mpr fun hawaited => hnone who r ?_
              exact ⟨c, target, fields, hc, hroute ▸ hi, hwho, hr, hawaited⟩
            rw [hi]
            refine holds_after_bind (x := forceNamed d target route) hforced fun _ t ht => ?_
            exact after_of_ok ht ▸ hforced
          · refine carryOut_awaitsNobody d ?_ _ hbegun
            exact fun target route hi => hforces ⟨target, route, hi⟩
        rw [after, hstep]
        refine holds_after_bind hbegun fun _ t ht => ?_
        cases ht
        refine holds_after_bind hcarried fun next u hu => ?_
        rw [after_of_ok hu] at hcarried
        exact hcarried.updateFrame d fun _ => rfl

/-- A command that awaits a route makes its list wait, and puts the character on the route. -/
theorem after_step_of_orders {who : CharacterId} {r : Route} (h : s.Orders d who r) :
    ∃ F : Frame → Frame, (∀ f, (F f).isRunning = f.isRunning ∧ (F f).awaited = some who) ∧
      ((step d).after s).interpreter = s.interpreter.modify F d ∧
        ((step d).after s).map = (s.updateCharacter who (·.forceRoute (some r))).map := by
  obtain ⟨c, target, fields, hc, hi, hwho, hr, hawaited⟩ := h
  have hstep : step d s = (do
      modify (updateFrame d (beginCommand c))
      let next ← carryOut d c.instruction
      modify (updateFrame d fun f => { f with index := next }) : Play Unit) s := by
    rw [step, get_bind_apply, hc]
    dsimp only
    rw [hi]
    rfl
  have hnamed : (s.updateFrame d (beginCommand c)).characterNamed d target = some who := by
    rw [characterNamed_updateFrame s (F := beginCommand c) fun _ => ⟨rfl, rfl⟩]
    exact hwho
  obtain ⟨t, hforced, hlists, hmap⟩ := forceNamed_of_awaited hnamed hr hawaited
  have hcarried : carryOut d c.instruction (s.updateFrame d (beginCommand c)) =
      .ok (((s.updateFrame d (beginCommand c)).frame d).index + 1) t := by
    rw [hi]
    exact bind_of_ok hforced
  rw [modify_bind_apply, bind_of_ok hcarried] at hstep
  rw [after_of_ok hstep]
  refine ⟨(fun f => { f with index := ((s.updateFrame d (beginCommand c)).frame d).index + 1 }) ∘
    (fun f => { f with awaited := some who }) ∘ beginCommand c, fun _ => ⟨rfl, rfl⟩, ?_, ?_⟩
  · simp only [updateFrame, hlists, Interpreter.modify_modify]
  · refine hmap.trans ?_
    cases who <;> rfl

end Play

/-! ### Maps and games -/

namespace Session

/-- The command lists and the events are those of another session, or no list waits. -/
def KeepsOrFrees (s t : Session) : Prop :=
  t.interpreter = s.interpreter ∧ t.map.events = s.map.events ∨ t.AwaitsNobody

variable {s t u : Session} {d : Nat}

theorem KeepsOrFrees.aside (h : s.KeepsOrFrees t) (hlists : u.interpreter = t.interpreter)
    (hevents : u.map.events = t.map.events) : s.KeepsOrFrees u :=
  h.imp (fun hsame => ⟨hlists.trans hsame.1, hevents.trans hsame.2⟩) fun hfree => hfree.of_lists hlists

theorem KeepsOrFrees.onlyInnermost (h : s.KeepsOrFrees t) (hs : s.OnlyInnermostWaits) :
    t.OnlyInnermostWaits :=
  h.elim (fun hsame => (Relaxes.of_same hsame.1 hsame.2).innermost hs) AwaitsNobody.onlyInnermost

theorem KeepsOrFrees.not_waitsInVain (h : s.KeepsOrFrees t) (hs : ¬s.WaitsInVain) : ¬t.WaitsInVain :=
  h.elim (fun hsame => (Relaxes.of_same hsame.1 hsame.2).not_waitsInVain hs) AwaitsNobody.not_waitsInVain

end Session

namespace Play

open Session

theorem keepsOrFrees_setupMap (s : Session) (id : Int) (given : Option Json) :
    (setupMap id given).Preserves s.KeepsOrFrees := by
  have hnote : ∀ (t : Session) (n : List Notice), s.KeepsOrFrees t → s.KeepsOrFrees { t with notices := n } :=
    fun _ _ ht => ht.aside rfl rfl
  refine preserves_setupMap hnote (fun {t u} _ hcleared => Or.inr ?_) id given
  rw [awaitsNobody_iff, hcleared]
  exact ⟨rfl, fun f hf => absurd hf List.not_mem_nil⟩

/-- When a map is set up, or a game begins or is loaded, the lists are dropped, unless it fails before. -/
theorem keepsOrFrees_of_arrives {α : Type} {act : Play α} (hact : Arrives act) (s : Session) :
    act.Preserves s.KeepsOrFrees :=
  preserves_of_arrives (fun ht hlists hmap => ht.aside hlists (congrArg MapState.events hmap))
    (keepsOrFrees_setupMap s) (fun list event t _ => Or.inr (awaitsNobody_setupInterpreter list event t))
    hact

end Play

namespace MapEvent

/-- Erasing an event takes it off its route, if it shows a page. -/
theorem isStranded_erase_iff (e : MapEvent) :
    e.erase.IsStranded ↔ e.pageIndex = -1 ∧ e.body.forcing = true := by
  unfold IsStranded
  rw [erased_erase]
  by_cases hpage : e.pageIndex = -1
  · have hkept : e.erase = e.markErased := if_pos hpage
    rw [hkept]
    exact ⟨fun h => ⟨hpage, h.2⟩, fun h => ⟨rfl, h.2⟩⟩
  · have hworn : e.erase = { e.markErased with pageIndex := -1 }.wearNone := if_neg hpage
    rw [hworn]
    exact ⟨fun h => absurd h.2 Bool.false_ne_true, fun h => absurd h.1 hpage⟩

theorem isStranded_force_iff (e : MapEvent) (route : Option Route) :
    { e with body := e.body.forceRoute route }.IsStranded ↔ e.erased = true :=
  ⟨fun h => h.1, fun h => ⟨h, rfl⟩⟩

end MapEvent

namespace Play

/-- **An erased event on a forced route stays as it is**, frame after frame. -/
theorem advanceEvent_stranded {s : Session} {id : Int} {e : MapEvent} (he : s.event? id = some e)
    (h : e.IsStranded) : advanceEvent id s = .ok () s := by
  rw [advanceEvent, get_bind_apply, he]
  dsimp only
  rw [if_pos h.1]
  rfl

end Play

namespace Session

variable {s t : Session} {d : Nat} {k : Doing}

/-! ### Single turns -/

/-- What makes a list wait in vain: a command that puts an erased event on a route and awaits it, or, where
an event is awaited, a route that is forced on it after it was erased, or its erasing while it shows no
page. -/
def IsHeedless (s : Session) : Doing → Prop
  | .command d => ∃ id e r, s.Orders d (.event id) r ∧ s.event? id = some e ∧ e.erased = true
  | .forced (.event id) => ∃ e, s.Awaits id ∧ s.event? id = some e ∧ e.erased = true
  | .erased id => ∃ e, s.Awaits id ∧ s.event? id = some e ∧ e.pageIndex = -1 ∧ e.body.forcing = true
  | _ => False

/-- The change of one event makes a list wait in vain only if it is that event that is awaited. -/
theorem waitsInVain_updateEvent_iff (hs : ¬s.WaitsInVain) (id : Int) (f : MapEvent → MapEvent) :
    (s.updateEvent id f).WaitsInVain ↔
      ∃ e, s.Awaits id ∧ s.event? id = some e ∧ (f e).IsStranded := by
  constructor
  · rintro ⟨id', e', hawaits, he', hstranded⟩
    by_cases hid : id = id'
    · subst hid
      rw [event?_updateEvent] at he'
      obtain ⟨e, he, rfl⟩ := Option.map_eq_some_iff.mp he'
      exact ⟨e, hawaits, he, hstranded⟩
    · rw [event?_updateEvent_of_ne hid] at he'
      exact absurd ⟨id', e', hawaits, he', hstranded⟩ hs
  · rintro ⟨e, hawaits, he, hstranded⟩
    refine ⟨id, f e, hawaits, ?_, hstranded⟩
    rw [event?_updateEvent, he]
    rfl

/-- A command of the innermost list that puts somebody on a route and awaits it, while nobody is awaited. -/
theorem waitsInVain_step_of_orders {who : CharacterId} {r : Route} (hs : s.AwaitsNobody)
    (hdepth : s.interpreter.nested.length = d) (horders : s.Orders d who r) :
    ((Play.step d).after s).OnlyInnermostWaits ∧
      (((Play.step d).after s).WaitsInVain ↔
        ∃ id e, who = .event id ∧ s.event? id = some e ∧ e.erased = true) := by
  obtain ⟨F, hF, hlists, hmap⟩ := Play.after_step_of_orders horders
  obtain ⟨c, -, -, hc, -⟩ := horders
  have hself : ((Play.step d).after s).frame d = F (s.frame d) := by
    rw [frame, hlists]
    exact Interpreter.frame_modify_self (Nat.le_of_eq hdepth.symm) F
  have hothers : ∀ e, d ≠ e → ((Play.step d).after s).frame e = s.frame e := by
    intro e hne
    rw [frame, hlists]
    exact Interpreter.frame_modify_of_ne hne s.interpreter F
  have hevent : ∀ id, ((Play.step d).after s).event? id =
      (s.updateCharacter who (·.forceRoute (some r))).event? id := fun id =>
    congrArg (fun m : MapState => m.events.get? id) hmap
  refine ⟨fun e he => ?_, ?_, ?_⟩
  · rw [hlists, Interpreter.length_nested_modify, hdepth] at he
    rw [hothers e (Nat.ne_of_gt he)]
    exact hs e
  · rintro ⟨id, e', ⟨e, -, hwho⟩, he', hstranded⟩
    by_cases hne : d = e
    · subst hne
      rw [hself, (hF _).2] at hwho
      cases hwho
      rw [hevent, updateCharacter, event?_updateEvent] at he'
      obtain ⟨e, he, rfl⟩ := Option.map_eq_some_iff.mp he'
      exact ⟨id, e, rfl, he, hstranded.1⟩
    · rw [hothers e hne, hs e] at hwho
      cases hwho
  · rintro ⟨id, e, rfl, he, herased⟩
    refine ⟨id, { e with body := e.body.forceRoute (some r) }, ⟨d, ?_, ?_⟩, ?_, herased, rfl⟩
    · rw [hself, (hF _).1]
      exact Frame.isRunning_of_current? hc
    · rw [hself, (hF _).2]
    · rw [hevent, updateCharacter, event?_updateEvent, he]
      rfl

/-- A command by a list that is the innermost one, while nobody is awaited. -/
theorem waitsInVain_step_iff (hs : s.AwaitsNobody) (hdepth : s.interpreter.nested.length = d) :
    ((Play.step d).after s).OnlyInnermostWaits ∧
      (((Play.step d).after s).WaitsInVain ↔ s.IsHeedless (.command d)) := by
  by_cases horders : ∃ who r, s.Orders d who r
  · obtain ⟨who, r, horders⟩ := horders
    obtain ⟨hinner, hvain⟩ := waitsInVain_step_of_orders hs hdepth horders
    refine ⟨hinner, fun h => ?_, ?_⟩
    · obtain ⟨id, e, rfl, he, herased⟩ := hvain.mp h
      exact ⟨id, e, r, horders, he, herased⟩
    · rintro ⟨id, e, r', horders', he, herased⟩
      have hvain' := (waitsInVain_step_of_orders hs hdepth horders').2
      exact hvain'.mpr ⟨id, e, rfl, he, herased⟩
  · have hfree := Play.step_awaitsNobody hs fun who r h => horders ⟨who, r, h⟩
    refine ⟨hfree.onlyInnermost, fun h => absurd h hfree.not_waitsInVain, ?_⟩
    rintro ⟨id, -, r, h, -⟩
    exact absurd ⟨_, r, h⟩ horders

/-- **A single turn**: only the innermost list ever waits for a route, and a list begins to wait in vain
exactly in a heedless turn. -/
theorem Does.waitsInVain_iff (h : Does k s t) (hinner : s.OnlyInnermostWaits) :
    t.OnlyInnermostWaits ∧ (¬s.WaitsInVain → (t.WaitsInVain ↔ s.IsHeedless k)) := by
  have hrelaxes : ∀ {t : Session} {k : Doing}, ¬s.IsHeedless k → s.Relaxes t →
      t.OnlyInnermostWaits ∧ (¬s.WaitsInVain → (t.WaitsInVain ↔ s.IsHeedless k)) :=
    fun hk h => ⟨h.innermost hinner, fun hs => iff_of_false (h.not_waitsInVain hs) hk⟩
  have hfrees : ∀ {t : Session} {k : Doing}, ¬s.IsHeedless k → s.KeepsOrFrees t →
      t.OnlyInnermostWaits ∧ (¬s.WaitsInVain → (t.WaitsInVain ↔ s.IsHeedless k)) :=
    fun hk h => ⟨h.onlyInnermost hinner, fun hs => iff_of_false (h.not_waitsInVain hs) hk⟩
  cases h with
  | command d _ hdepth hfree =>
      have hstep := waitsInVain_step_iff (hinner.awaitsNobody hdepth hfree) hdepth
      exact ⟨hstep.1, fun _ => hstep.2⟩
  | wait d _ => exact hrelaxes id (relaxes_waits s d)
  | drop d _ => exact hrelaxes id (relaxes_dropCallee s d)
  | begin _ hbegins =>
      refine hfrees id (Or.inr ?_)
      cases hbegins <;> exact Play.awaitsNobody_setupInterpreter _ _ _
  | pass _ => exact hrelaxes id (.of_same rfl rfl)
  | reserve _ => exact hrelaxes id (.of_same rfl rfl)
  | stir hact => exact hrelaxes id (GoesOn.of_stirs hact s).relaxes
  | erase id =>
      rw [Play.after_of_ok (Play.eraseEvent_apply id s)]
      refine ⟨hinner, fun hs => (waitsInVain_updateEvent_iff hs id _).trans ?_⟩
      simp only [MapEvent.isStranded_erase_iff, IsHeedless]
  | force who route =>
      cases who with
      | event id =>
          refine ⟨hinner, fun hs => (waitsInVain_updateEvent_iff hs id _).trans ?_⟩
          simp only [MapEvent.isStranded_force_iff, IsHeedless]
      | player => exact hrelaxes id (.of_same rfl rfl)
      | follower place => exact hrelaxes id (.of_same rfl rfl)
  | arrive hact =>
      exact hfrees id (Play.keepsOrFrees_of_arrives hact s s (Or.inl ⟨rfl, rfl⟩))
  | aside hmap hlists _ _ =>
      exact hrelaxes id (.of_same hlists (congrArg MapState.events hmap))

/-! ### All turns -/

/-- A turn after which some list waits in vain, if none did before. -/
def Turn.IsHeedless (turn : Turn) : Prop := turn.before.IsHeedless turn.doing

/-- At the end of a course no list waits in vain if none ever did. -/
theorem Course.not_waitsInVain {l : List Turn} (h : s.Course l t) (hs : ¬s.WaitsInVain)
    (hl : ∀ turn ∈ l, ¬turn.after.WaitsInVain) : ¬t.WaitsInVain := by
  cases h with
  | nil => exact hs
  | snoc _ _ => exact hl _ (List.mem_append_right _ (List.mem_singleton_self _))

theorem Course.waitsInVain_iff {l : List Turn} (h : s.Course l t) (hs : s.AwaitsNobody) :
    t.OnlyInnermostWaits ∧
      ((∀ turn ∈ l, ¬turn.after.WaitsInVain) ↔ ∀ turn ∈ l, ¬turn.IsHeedless) := by
  induction h with
  | nil => exact ⟨hs.onlyInnermost, by simp⟩
  | snoc hcourse hdoes ih =>
      obtain ⟨hinner, hbefore⟩ := ih
      obtain ⟨hafter, hturn⟩ := hdoes.waitsInVain_iff hinner
      refine ⟨hafter, ?_⟩
      simp only [List.forall_mem_append, List.forall_mem_singleton]
      constructor
      · rintro ⟨hl, hlast⟩
        have hnone := hcourse.not_waitsInVain hs.not_waitsInVain hl
        exact ⟨hbefore.mp hl, fun hheedless => hlast ((hturn hnone).mpr hheedless)⟩
      · rintro ⟨hl, hlast⟩
        have hnone := hcourse.not_waitsInVain hs.not_waitsInVain (hbefore.mpr hl)
        exact ⟨hbefore.mpr hl, fun hvain => hlast ((hturn hnone).mp hvain)⟩

/-- **No list ever waits in vain exactly if no turn is heedless**, whatever is done in a game from its
beginning; and a frame that follows is a course of such turns again. -/
theorem Course.neverWaitsInVain_iff {g : Game} {draws : Draws} {l : List Turn}
    (h : (Session.begin g draws).Course l t) :
    ((∀ turn ∈ l, ¬turn.after.WaitsInVain) ↔ ∀ turn ∈ l, ¬turn.IsHeedless) ∧
      ∃ l', t.Course l' (Play.advance.after t) := by
  have hbegin : (Session.begin g draws).AwaitsNobody :=
    awaitsNobody_iff.mpr ⟨rfl, fun f hf => absurd hf List.not_mem_nil⟩
  obtain ⟨l', hframe, -⟩ := Play.ledTo_advance t t (.refl t true)
  exact ⟨(h.waitsInVain_iff hbegin).2, l', hframe⟩

/-! ### A gate -/

/-- A game with a map on which there is one event. -/
def gateGame : Game where
  mapFile := fun _ => .ok (some (.obj [("events", .arr [.null,
    .obj [("id", 1), ("pages", .arr [.obj [("list", .arr [])]])]])]))

/-- The game on its map, where a list of the event has begun. -/
def atGate (list : Json) : Session :=
  (Play.setupInterpreter list 1).after ((Play.setupMap 1).after (Session.begin gateGame {}))

/-- A command that puts the event of its list on a route and awaits the end of it. -/
def goAndAwait : Json :=
  .obj [("code", 205), ("parameters", .arr [0, .obj [("list", .arr [.obj [("code", 0)]]),
    ("wait", true)]])]

/-- A list that erases its event and then puts it on a route. -/
def heedlessList : Json := .arr [.obj [("code", 214), ("parameters", .arr [])], goAndAwait]

theorem course_atGate (list : Json) : (Session.begin gateGame {}).Course
    [⟨Session.begin gateGame {}, .arrived, (Play.setupMap 1).after (Session.begin gateGame {})⟩,
      ⟨(Play.setupMap 1).after (Session.begin gateGame {}), .arrived, atGate list⟩] (atGate list) :=
  .snoc (.snoc (.nil _) (.arrive (.setupMap 1 none))) (.arrive (.setupInterpreter list 1))

/-- A session in which the list of the event carries out commands. -/
def atGateWorking (list : Json) : Session := { atGate list with active := some 0 }

/-- A list that puts its event on a route waits for it, and not in vain. -/
theorem neverWaitsInVain_atGate : ∃ l t, (Session.begin gateGame {}).Course l t ∧ t.Awaits 1 ∧
    ∀ turn ∈ l, ¬turn.after.WaitsInVain := by
  have hworks : (atGate (.arr [goAndAwait])).Course _ _ :=
    .snoc (.snoc (.nil _) (.aside (t := atGateWorking (.arr [goAndAwait])) rfl rfl rfl rfl))
      (.command 0 rfl (by decide +kernel) (by decide +kernel))
  have hcourse := (course_atGate (.arr [goAndAwait])).append hworks
  refine ⟨_, _, hcourse, ⟨0, by decide +kernel, by decide +kernel⟩, ?_⟩
  refine hcourse.neverWaitsInVain_iff.1.mpr fun turn hturn => ?_
  have hstands : ∀ e ∈ (atGateWorking (.arr [goAndAwait])).map.events.values, e.erased = false := by
    decide +kernel
  simp only [List.cons_append, List.nil_append, List.mem_cons, List.not_mem_nil,
    or_false] at hturn
  rcases hturn with rfl | rfl | rfl | rfl
  · exact id
  · exact id
  · exact id
  · rintro ⟨id, e, r, -, he, herased⟩
    rw [hstands e (OrderedMap.mem_values_of_get? he)] at herased
    cases herased

/-- A list that erases its event and then puts it on a route waits in vain. -/
theorem waitsInVain_heedlessList : ∃ l t, (Session.begin gateGame {}).Course l t ∧ t.WaitsInVain := by
  obtain ⟨l, hruns, -⟩ := Play.ledTo_runInterpreter _ _ (.refl (atGate heedlessList) false)
  have hstranded : ((Play.runInterpreter.after (atGate heedlessList)).event? 1).any
      (fun e => e.erased && e.body.forcing) = true := by decide +kernel
  refine ⟨_, _, (course_atGate heedlessList).append hruns, ?_⟩
  cases he : (Play.runInterpreter.after (atGate heedlessList)).event? 1 with
  | none =>
      rw [he] at hstranded
      cases hstranded
  | some e =>
      rw [he] at hstranded
      exact ⟨1, e, ⟨0, by decide +kernel, by decide +kernel⟩, he, Bool.and_eq_true_iff.mp hstranded⟩

end Session

end EventLayer
