/-
**What waits to be run, turn by turn.**

Lists of map setup and reserved common events wait in two queues.  On one map nothing is added to the first
one, and to the second one only what is reserved; from either one only its first entry is taken, by the
turn in which it begins.  Meanwhile every event stays on the map once, under its own number.

Main definitions:

* `Numbered` — every event is held once, under its own number;
* `Session.SameQueues` — two sessions in which the same waits to be run;
* `Session.KnowsReserved` — the reserved common events exist.

Main results:

* `Play.sameQueues_step` — **a command leaves the queues as they are**;
* `Session.Does.queues` — **a turn takes from the queues what begins in it**;
* `Session.Does.numbered` — a turn keeps the numbers of the events.
-/
import EventLayer.Proofs.Turns.Course
import EventLayer.Proofs.Turns.Events

set_option autoImplicit false
set_option relaxedAutoImplicit false

namespace EventLayer

/-! ### Numbers -/

/-- Every event is held once, under its own number. -/
def Numbered (events : OrderedMap Int MapEvent) : Prop :=
  events.Distinct ∧ ∀ entry ∈ events.entries, entry.1 = entry.2.id

theorem numbered_empty : Numbered ∅ := ⟨OrderedMap.Distinct.empty, fun _ h => absurd h List.not_mem_nil⟩

theorem numbered_insert {events : OrderedMap Int MapEvent} (h : Numbered events) (e : MapEvent) :
    Numbered (events.insert e.id e) := by
  refine ⟨h.1.insert e.id e, fun entry hentry => ?_⟩
  rcases OrderedMap.mem_put hentry with hold | ⟨hkey, hnew⟩
  · exact h.2 entry hold
  · rw [hnew]
    exact eq_of_beq hkey

theorem numbered_of_numbers {events events' : OrderedMap Int MapEvent} (h : Numbered events)
    (hsame : events'.mapValues (·.id) = events.mapValues (·.id)) : Numbered events' := by
  have hkeys : events'.keys = events.keys := by
    rw [← OrderedMap.keys_mapValues (·.id), hsame, OrderedMap.keys_mapValues]
  refine ⟨by rw [OrderedMap.Distinct, hkeys]; exact h.1, fun entry hentry => ?_⟩
  have hmem : (entry.1, entry.2.id) ∈ (events.mapValues (·.id)).entries := by
    rw [← hsame]
    exact List.mem_map_of_mem (f := fun e : Int × MapEvent => (e.1, e.2.id)) hentry
  obtain ⟨old, hold, heq⟩ := List.mem_map.mp hmem
  obtain ⟨hkey, hid⟩ := Prod.mk.inj heq
  exact hkey.symm.trans ((h.2 old hold).trans hid)

theorem Play.numbered_readEvents {map : Int} {db : Database} {stores : Stores}
    {events found : OrderedMap Int MapEvent} {entries : List Json} (hnumbered : Numbered events)
    (h : (readEvents map db stores events entries).result = .ok found) : Numbered found := by
  induction entries generalizing events with
  | nil =>
      cases h
      exact hnumbered
  | cons entry rest ih =>
      rcases readEvents_cons h with ⟨-, h⟩ | ⟨_, new, -, -, -, h⟩
      · exact ih hnumbered h
      · exact ih (numbered_insert hnumbered new) h

theorem MapEvent.id_erase (e : MapEvent) : e.erase.id = e.id := by
  unfold MapEvent.erase
  split
  · rfl
  · rfl

namespace Session

/-- An event of the map is found under its number. -/
theorem event?_of_mem {s : Session} (h : Numbered s.map.events) {e : MapEvent}
    (he : e ∈ s.map.eventList) : s.event? e.id = some e := by
  obtain ⟨⟨k, e'⟩, hentry, rfl⟩ := List.mem_map.mp he
  have hkey : k = e'.id := h.2 _ hentry
  exact OrderedMap.get?_of_mem h.1 (hkey ▸ hentry)

/-- An event is found under its own number. -/
theorem id_of_event? {s : Session} (h : Numbered s.map.events) {id : Int} {e : MapEvent}
    (he : s.event? id = some e) : e.id = id := by
  obtain ⟨key, hkey, hentry⟩ := OrderedMap.mem_entries_of_get? he
  exact (h.2 _ hentry).symm.trans (eq_of_beq hkey)

/-! ### Queues -/

/-- Two sessions in which the same waits to be run, and the same events are on the map. -/
structure SameQueues (s t : Session) : Prop where
  pending : t.map.pending = s.map.pending
  reserved : t.scratch.reserved = s.scratch.reserved
  game : t.game = s.game
  numbers : t.numbers = s.numbers

/-- The common events that are reserved exist. -/
def KnowsReserved (s : Session) : Prop := ∀ id ∈ s.scratch.reserved, (s.reservedCommon? id).isSome = true

/-- While the list at a depth carries out a command, compared with the session in which it begins to. -/
structure Busy (s : Session) (d : Nat) (t : Session) : Prop extends SameQueues s t where
  active : t.active = some d
  running : (t.frame d).isRunning = true

variable {s t u : Session} {d : Nat}

theorem SameQueues.refl (s : Session) : s.SameQueues s := ⟨rfl, rfl, rfl, rfl⟩

theorem SameQueues.trans (h : s.SameQueues t) (h' : t.SameQueues u) : s.SameQueues u :=
  ⟨h'.pending.trans h.pending, h'.reserved.trans h.reserved, h'.game.trans h.game,
    h'.numbers.trans h.numbers⟩

theorem SameQueues.of_same (hmap : t.map = s.map) (hgame : t.game = s.game)
    (hreserved : t.scratch.reserved = s.scratch.reserved) : s.SameQueues t :=
  ⟨congrArg MapState.pending hmap, hreserved, hgame,
    congrArg (fun m : MapState => m.events.mapValues MapEvent.id) hmap⟩

theorem GoesOn.sameQueues (h : s.GoesOn t) : s.SameQueues t := ⟨h.pending, h.reserved, h.game, h.numbers⟩

theorem sameQueues_updateEvent (s : Session) (id : Int) {f : MapEvent → MapEvent}
    (hf : ∀ e, (f e).id = e.id) : s.SameQueues (s.updateEvent id f) :=
  ⟨rfl, rfl, rfl, s.numbers_updateEvent id hf⟩

theorem sameQueues_force (s : Session) (who : CharacterId) (route : Option Route) :
    s.SameQueues (s.updateCharacter who (·.forceRoute route)) := by
  cases who with
  | event id => exact s.sameQueues_updateEvent id fun _ => rfl
  | player => exact .of_same rfl rfl rfl
  | follower place => exact .of_same rfl rfl rfl

/-- A list that is run is there. -/
theorem le_of_isRunning (h : (s.frame d).isRunning = true) : d ≤ s.interpreter.nested.length := by
  refine Nat.le_of_not_lt fun hlt => ?_
  rw [frame, Interpreter.frame_of_length_lt hlt] at h
  cases h

theorem Busy.updateFrame (h : s.Busy d t) (e : Nat) {F : Frame → Frame}
    (hF : ∀ f, (F f).isRunning = f.isRunning) : s.Busy d (t.updateFrame e F) :=
  { h with running := (frame_updateFrame_of_keeps hF t e d).trans h.running }

theorem Busy.then (h : s.Busy d t) (hsame : t.SameQueues u) (hactive : u.active = t.active)
    (hlists : u.interpreter = t.interpreter) : s.Busy d u :=
  ⟨h.toSameQueues.trans hsame, hactive.trans h.active,
    (congrArg (fun i => (i.frame d).isRunning) hlists).trans h.running⟩

end Session

namespace Play

open Session

variable {s t : Session} {d : Nat}

/-! ### Commands -/

theorem unmoved_busy (s : Session) (d : Nat) : Unmoved (fun _ => True) (s.Busy d) where
  aside := fun _ _ _ _ ht hsame => { ht with reserved := hsame.trans ht.reserved }
  setSwitch := fun _ _ ht => ht.then (.of_same rfl rfl rfl) rfl rfl
  setVariable := fun _ _ ht => ht.then (.of_same rfl rfl rfl) rfl rfl
  setSelfSwitch := fun _ _ ht => ht.then (.of_same rfl rfl rfl) rfl rfl
  requestRefresh := fun ht => ht.then ⟨rfl, rfl, rfl, rfl⟩ rfl rfl
  recordOrigin := fun _ _ _ ht => ht.then (.of_same rfl rfl rfl) rfl rfl
  setBehavior := fun _ ht => ht.then (.of_same rfl rfl rfl) rfl rfl
  gain := fun _ _ ht => ht.then (.of_same rfl rfl rfl) rfl rfl
  onFrame := fun _ hF _ ht => ht.updateFrame _ fun f =>
    congrArg Option.isSome (Frame.eq_of_course (hF.course f)).1

theorem callCommon_busy (s : Session) (d : Nat) (id : Json) : (callCommon d id).Preserves (s.Busy d) := by
  refine preserves_getBind fun _ => ?_
  split
  · exact (unmoved_busy s d).note _
  · have hopen : ∀ list event, (openFrame list event).Preserves (s.Busy d) := fun _ _ =>
      preserves_getBind fun _ => ((unmoved_busy s d).reading _).bind fun _ => preserves_pure _
    refine (hopen _ _).bind fun frame => preserves_modify fun t ht => ?_
    have hkept := Interpreter.frame_push (Nat.le_refl d) (le_of_isRunning ht.running) frame
    exact { ht with running := (congrArg Frame.isRunning hkept).trans ht.running }

/-- A treasure is shown at once by the list that gives it. -/
theorem displayTreasure_busy (s : Session) (d : Nat) : displayTreasure.Preserves (s.Busy d) := by
  refine preserves_getBind_of fun t ht => (preserves_pure ()).ite ?_
  rw [ht.active]
  dsimp only
  rw [if_pos ht.running]
  exact callCommon_busy s d _

theorem eraseEvent_busy (s : Session) (d : Nat) (id : Int) : (eraseEvent id).Preserves (s.Busy d) := by
  intro t ht
  rw [after_of_ok (eraseEvent_apply id t)]
  exact ht.then (t.sameQueues_updateEvent id MapEvent.id_erase) rfl rfl

theorem carryOut_busy (s : Session) (d : Nat) (i : Instruction) : (carryOut d i).Preserves (s.Busy d) := by
  refine (unmoved_busy s d).carryOut trivial (fun id _ => callCommon_busy s d id)
    (fun target route _ => ?_)
    (fun _ => (unmoved_busy s d).eraseAddressed trivial (eraseEvent_busy s d))
    fun _ => displayTreasure_busy s d
  refine (unmoved_busy s d).forceNamed (fun {t} who route ht => ?_) (fun _ ht => ?_) target route
  · refine ht.then (t.sameQueues_force who route) ?_ ?_
    · cases who <;> rfl
    · cases who <;> rfl
  · exact ht.updateFrame d fun _ => rfl

/-- **A command leaves the queues as they are**, and the events where they are. -/
theorem sameQueues_step (hactive : s.active = some d) : s.SameQueues ((step d).after s) := by
  cases hc : (s.frame d).current? with
  | none =>
      rw [after_of_ok (step_of_end hc)]
      exact .of_same rfl rfl rfl
  | some c =>
      rcases step_of_current hc with hstep | hstep
      · rw [after_of_error hstep]
        exact .refl s
      · have hbegun : s.Busy d (s.updateFrame d (beginCommand c)) :=
          Busy.updateFrame ⟨.refl s, hactive, Frame.isRunning_of_current? hc⟩ d fun _ => rfl
        have hcarried := carryOut_busy s d c.instruction _ hbegun
        rw [after, hstep]
        refine holds_after_bind hbegun.toSameQueues fun _ t ht => ?_
        cases ht
        refine holds_after_bind hcarried.toSameQueues fun next u hu => ?_
        rw [after_of_ok hu] at hcarried
        exact hcarried.toSameQueues.trans (.of_same rfl rfl rfl)

theorem sameQueues_waits (s : Session) (d : Nat) : s.SameQueues ((waits d).after s) := by
  have hkeeps : (waits d).Preserves s.SameQueues :=
    preserves_waits (fun _ ht => ht.trans (.of_same rfl rfl rfl)) fun _ ht =>
      ht.trans (.of_same rfl rfl rfl)
  exact hkeeps s (.refl s)

/-! ### Lists that begin -/

/-- A list is begun without a change of the map. -/
theorem map_setupInterpreter (list : Json) (event : Int) (s : Session) :
    ((setupInterpreter list event).after s).map = s.map :=
  preserves_setupInterpreter (P := fun t => t.map = s.map) (fun _ _ ht => ht) (fun _ _ ht => ht) list
    event s rfl

theorem sameQueues_setupInterpreter (list : Json) (event : Int) (s : Session) :
    s.SameQueues ((setupInterpreter list event).after s) := by
  have hkeeps : (setupInterpreter list event).Preserves fun t =>
      t.game = s.game ∧ t.scratch.reserved = s.scratch.reserved :=
    preserves_setupInterpreter (fun _ _ ht => ht) (fun _ _ ht => ht) list event
  obtain ⟨hgame, hreserved⟩ := hkeeps s ⟨rfl, rfl⟩
  exact .of_same (map_setupInterpreter list event s) hgame hreserved

theorem sameQueues_commonEvents (s : Session) : s.SameQueues (commonEvents.after s) :=
  preserves_commonEvents (P := s.SameQueues)
    (fun _ _ _ ht => ⟨ht.pending, ht.reserved, ht.game, ht.numbers⟩) s (.refl s)

/-! ### Maps and games -/

/-- What is known of no events, and of those that are read from a map file, is known of the events of a
map that is set up. -/
theorem events_of_arrives {R : OrderedMap Int MapEvent → Prop} (hnone : R ∅)
    (hread : ∀ {map : Int} {db : Database} {stores : Stores} {entries : List Json}
      {found : OrderedMap Int MapEvent},
      (readEvents map db stores ∅ entries).result = .ok found → R found)
    {α : Type} {act : Play α} (hact : Arrives act) : act.Preserves fun t => R t.map.events := by
  refine preserves_of_arrives (fun {s t} hs _ hmap => hmap ▸ hs) (fun id given => ?_)
    (fun list event s hs => (map_setupInterpreter list event s).symm ▸ hs) hact
  have hqueue : queueSetup.Preserves fun t => R t.map.events :=
    preserves_queueSetup (preserves_commonEvents fun _ _ _ ht => ht) fun _ _ ht => ht
  refine preserves_setupMap_of_writes (fun _ _ ht => ht) (fun _ _ _ _ _ => hnone) ?_ hqueue given
  exact fun _ _ _ _ _ hevents _ => hread hevents

/-- The events of a map that is set up are held under their numbers. -/
theorem numbered_of_arrives {α : Type} {act : Play α} (hact : Arrives act) :
    act.Preserves fun t => Numbered t.map.events :=
  events_of_arrives numbered_empty (numbered_readEvents numbered_empty) hact

end Play

namespace Session

variable {s t : Session} {k : Doing}

/-! ### Single turns -/

/-- What begins after nothing waits any more leaves the queues empty. -/
theorem IsIdle.reserved_eq_nil (h : s.IsIdle) (hknown : s.KnowsReserved) : s.scratch.reserved = [] := by
  cases hreserved : s.scratch.reserved with
  | nil => rfl
  | cons id rest =>
      have hnone := h.2 id (congrArg List.head? hreserved)
      have hsome := hknown id (hreserved ▸ List.mem_cons_self)
      rw [hnone] at hsome
      cases hsome

theorem IsIdle.sameQueues (h : s.IsIdle) (hknown : s.KnowsReserved) : s.SameQueues s.passed := by
  refine ⟨rfl, ?_, rfl, rfl⟩
  rw [passed, h.reserved_eq_nil hknown]
  rfl

end Session

namespace Doing

/-- The list of map setup that begins in a turn. -/
def pendingRun? : Doing → Option PendingRun
  | .begun (.pending run) => some run
  | _ => none

/-- The reserved common event that begins in a turn. -/
def reservedRun? : Doing → Option Int
  | .begun (.reserved id) => some id
  | _ => none

/-- The common event that is reserved in a turn. -/
def reservation? : Doing → Option Int
  | .reserved id => some id
  | _ => none

end Doing

namespace Session

variable {s t : Session} {k : Doing}

/-- What a turn does to the queues. -/
structure TakesTurn (s : Session) (k : Doing) (t : Session) : Prop where
  pending : s.map.pending = k.pendingRun?.toList ++ t.map.pending
  reserved : s.scratch.reserved ++ k.reservation?.toList = k.reservedRun?.toList ++ t.scratch.reserved
  game : t.game = s.game

theorem SameQueues.takesTurn (h : s.SameQueues t) (hpending : k.pendingRun? = none)
    (hreserved : k.reservedRun? = none) (hnone : k.reservation? = none) : s.TakesTurn k t := by
  refine ⟨?_, ?_, h.game⟩
  · rw [hpending, h.pending]
    rfl
  · rw [hreserved, hnone, h.reserved]
    exact List.append_nil _

/-- **A turn takes from the queues what begins in it**, if the reserved common events exist. -/
theorem Does.takesTurn (h : Does k s t) (hk : k ≠ .arrived) (hknown : s.KnowsReserved) :
    s.TakesTurn k t := by
  cases h with
  | command d hactive _ _ => exact (Play.sameQueues_step hactive).takesTurn rfl rfl rfl
  | wait d _ => exact (Play.sameQueues_waits s d).takesTurn rfl rfl rfl
  | drop d _ => exact SameQueues.takesTurn (.of_same rfl rfl rfl) rfl rfl rfl
  | begin _ hbegins =>
      cases hbegins with
      | @pending run _ hpending =>
          have hsetup := Play.sameQueues_setupInterpreter run.list run.event s.popped
          refine ⟨?_, ?_, hsetup.game⟩
          · rw [hsetup.pending, hpending, popped, hpending]
            rfl
          · rw [hsetup.reserved]
            exact List.append_nil _
      | @reserved _ _ entry _ hreserved _ =>
          have hsetup := Play.sameQueues_setupInterpreter (CommonEvent.listOf entry) 0 s.passed
          refine ⟨hsetup.pending.symm, ?_, hsetup.game⟩
          rw [hsetup.reserved, passed, hreserved]
          exact List.append_nil _
      | @event e hidle _ =>
          have hcleared := s.passed.sameQueues_updateEvent e.id (f := MapEvent.clearStarting) fun _ => rfl
          exact (((hidle.sameQueues hknown).trans hcleared).trans
            (Play.sameQueues_setupInterpreter _ _ _)).takesTurn rfl rfl rfl
      | autorun hidle _ _ =>
          exact ((hidle.sameQueues hknown).trans
            (Play.sameQueues_setupInterpreter _ _ _)).takesTurn rfl rfl rfl
      | common hidle _ _ _ =>
          have hread := Play.sameQueues_commonEvents s.passed
          exact (((hidle.sameQueues hknown).trans hread).trans
            (Play.sameQueues_setupInterpreter _ _ _)).takesTurn rfl rfl rfl
  | pass hidle => exact (hidle.sameQueues hknown).takesTurn rfl rfl rfl
  | reserve id => exact ⟨rfl, rfl, rfl⟩
  | stir hact => exact (GoesOn.of_stirs hact s).sameQueues.takesTurn rfl rfl rfl
  | erase id =>
      rw [Play.after_of_ok (Play.eraseEvent_apply id s)]
      exact (s.sameQueues_updateEvent id MapEvent.id_erase).takesTurn rfl rfl rfl
  | force who route => exact (s.sameQueues_force who route).takesTurn rfl rfl rfl
  | arrive _ => exact absurd rfl hk
  | aside hmap _ hgame hreserved => exact (SameQueues.of_same hmap hgame hreserved).takesTurn rfl rfl rfl

/-- The events that are held after a list has begun. -/
theorem Begins.numbers {b : Begun} (h : s.Begins b t) : t.numbers = s.numbers := by
  have hsetup : ∀ (list : Json) (event : Int) (u : Session), u.numbers = s.numbers →
      ((Play.setupInterpreter list event).after u).numbers = s.numbers := fun list event u hu =>
    (Play.sameQueues_setupInterpreter list event u).numbers.trans hu
  cases h with
  | pending _ => exact hsetup _ _ _ rfl
  | reserved _ _ _ => exact hsetup _ _ _ rfl
  | event _ _ => exact hsetup _ _ _ (s.passed.numbers_updateEvent _ fun _ => rfl)
  | autorun _ _ _ => exact hsetup _ _ _ rfl
  | common _ _ _ _ => exact hsetup _ _ _ (Play.sameQueues_commonEvents s.passed).numbers

/-- **A turn keeps every event under its number.** -/
theorem Does.numbered (h : Does k s t) (hs : Numbered s.map.events) : Numbered t.map.events := by
  cases h with
  | command d hactive _ _ => exact numbered_of_numbers hs (Play.sameQueues_step hactive).numbers
  | wait d _ => exact numbered_of_numbers hs (Play.sameQueues_waits s d).numbers
  | drop d _ => exact hs
  | begin _ hbegins => exact numbered_of_numbers hs hbegins.numbers
  | pass _ => exact hs
  | reserve _ => exact hs
  | stir hact => exact numbered_of_numbers hs (GoesOn.of_stirs hact s).numbers
  | erase id =>
      rw [Play.after_of_ok (Play.eraseEvent_apply id s)]
      exact numbered_of_numbers hs (s.numbers_updateEvent id MapEvent.id_erase)
  | force who route => exact numbered_of_numbers hs (s.sameQueues_force who route).numbers
  | arrive hact => exact Play.numbered_of_arrives hact s hs
  | aside hmap _ _ _ => exact hmap ▸ hs

theorem Course.numbered {l : List Turn} (h : s.Course l t) (hs : Numbered s.map.events) :
    Numbered t.map.events := by
  induction h with
  | nil => exact hs
  | snoc _ hdoes ih => exact hdoes.numbered ih

end Session

end EventLayer
