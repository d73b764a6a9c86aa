/-
**The list that begins next.**

When the map's command list has ended, the next one is taken from what map setup queued, then from the
reserved common events, then from the events that were started, and only then from what runs by itself.
A reserved common event that does not exist is dropped, and the other kinds get their turn.

Main definitions:

* `Begun`, `Session.Begins` — a command list that is begun, and the choice of it;
* `Session.IsIdle` — nothing waits that goes before the events.

Main results:

* `Play.startWaiting_cases` — **the list that begins next, or that none does**.
-/
import EventLayer.Proofs.Lasting
import EventLayer.Proofs.Lockstep.Frames

set_option autoImplicit false
set_option relaxedAutoImplicit false

namespace EventLayer

/-- A command list that is begun, by where it was taken from. -/
inductive Begun where
  | pending (run : PendingRun)
  | reserved (id : Int)
  | event (id : Int)
  | autorun (id : Int)
  | common (id : Json)

namespace Session

/-! ### The choice -/

/-- The database entry of a reserved common event, if it exists. -/
def reservedCommon? (s : Session) (id : Int) : Option Json :=
  if id = 0 then none else s.game.database.commonEvent? (.int id)

/-- Nothing waits that goes before the events: neither a list of map setup nor, at the front of those that
were reserved, a common event that exists. -/
def IsIdle (s : Session) : Prop :=
  s.map.pending = [] ∧ ∀ id, s.scratch.reserved.head? = some id → s.reservedCommon? id = none

/-- A session in which the first reserved common event has been taken. -/
def passed (s : Session) : Session := { s with scratch.reserved := s.scratch.reserved.tail }

/-- Whether an event runs by itself. -/
def runsByItself (e : MapEvent) : Bool := e.start.isKind .autorun && e.list.truthy

/-- The choice of the list that begins next, and the session in which it has begun. -/
inductive Begins (s : Session) : Begun → Session → Prop
  | pending {run : PendingRun} {rest : List PendingRun} (h : s.map.pending = run :: rest) :
      Begins s (.pending run) ((Play.setupInterpreter run.list run.event).after s.popped)
  | reserved {id : Int} {rest : List Int} {entry : Json} (hpending : s.map.pending = [])
      (hreserved : s.scratch.reserved = id :: rest) (hentry : s.reservedCommon? id = some entry) :
      Begins s (.reserved id)
        ((Play.setupInterpreter (CommonEvent.listOf entry) 0).after s.passed)
  | event {e : MapEvent} (hidle : s.IsIdle) (he : s.map.eventList.find? (·.starting) = some e) :
      Begins s (.event e.id) ((Play.setupInterpreter e.list e.id).after
        (s.passed.updateEvent e.id MapEvent.clearStarting))
  | autorun {e : MapEvent} (hidle : s.IsIdle) (hnone : s.map.eventList.find? (·.starting) = none)
      (he : s.map.eventList.find? runsByItself = some e) :
      Begins s (.autorun e.id) ((Play.setupInterpreter e.list e.id).after s.passed)
  | common {c : CommonEvent} (hidle : s.IsIdle)
      (hnone : s.map.eventList.find? (·.starting) = none)
      (hown : s.map.eventList.find? runsByItself = none)
      (hruns : Play.isAutorun c (Play.commonEvents.after s.passed) =
        .ok true (Play.commonEvents.after s.passed)) :
      Begins s (.common c.id) ((Play.setupInterpreter
        (CommonEvent.listOf (Play.commonEntry s.game.database c.id)) 0).after
          (Play.commonEvents.after s.passed))

end Session

namespace Play

open Session

variable {s t : Session}

/-! ### The list that begins next -/

theorem begin_after (list : Json) (event : Int) (s : Session) :
    (do setupInterpreter list event; return true : Play Bool).after s =
      (setupInterpreter list event).after s := by
  unfold after
  rw [bind_apply]
  cases setupInterpreter list event s <;> rfl

/-- A look at whether a common event runs by itself changes nothing. -/
theorem isAutorun_after (c : CommonEvent) (s : Session) : (isAutorun c).after s = s := by
  have hkeeps : (isAutorun c).Preserves fun t => t = s := by
    refine preserves_getBind fun _ => (preserves_pure _).ite ?_
    dsimp only
    exact (preserves_pure _).ite ((preserves_except _).bind fun _ => preserves_pure _)
  exact hkeeps s rfl

/-- The choice among common events that run by themselves: one of them begins, or nothing changes. -/
theorem startCommon_cases (commons : List CommonEvent) (s : Session) :
    (∃ c, isAutorun c s = .ok true s ∧ (startCommon commons).after s = (setupInterpreter
      (CommonEvent.listOf (commonEntry s.game.database c.id)) 0).after s) ∨
        (startCommon commons).after s = s := by
  induction commons with
  | nil => exact Or.inr rfl
  | cons c rest ih =>
      have hreads : (isAutorun c).after s = s := isAutorun_after c s
      cases hruns : isAutorun c s with
      | error e t =>
          have hfails : startCommon (c :: rest) s = .error e t := bind_of_error hruns
          exact Or.inr ((after_of_error hfails).trans ((after_of_error hruns).symm.trans hreads))
      | ok runs t =>
          obtain rfl : t = s := (after_of_ok hruns).symm.trans hreads
          cases runs with
          | true =>
              have hgoes : startCommon (c :: rest) t = (do
                  let db := (← get).game.database
                  setupInterpreter (CommonEvent.listOf (commonEntry db c.id)) 0
                  return true : Play Bool) t := bind_of_ok hruns
              refine Or.inl ⟨c, hruns, ?_⟩
              rw [after, hgoes]
              exact begin_after _ _ t
          | false =>
              have hgoes : startCommon (c :: rest) t = startCommon rest t := bind_of_ok hruns
              rw [after, hgoes]
              exact ih

/-- One kind of list, or else what comes after it. -/
theorem after_unless {x rest : Play Bool} (h : x s = .ok false t) :
    (x >>= fun begun => if begun then pure true else rest).after s = rest.after t := by
  unfold after
  rw [bind_of_ok h]
  rfl

/-- Nothing comes after a list that has begun. -/
theorem after_begun {x rest : Play Bool} {list : Json} {event : Int}
    (h : x s = (do setupInterpreter list event; return true : Play Bool) t) :
    (x >>= fun begun => if begun then pure true else rest).after s =
      (setupInterpreter list event).after t := by
  have hsame := bind_apply_congr h fun begun => if begun then pure true else rest
  unfold after
  rw [hsame]
  cases hsetup : setupInterpreter list event t with
  | error e u =>
      have hbegins : (do setupInterpreter list event; return true : Play Bool) t = .error e u :=
        bind_of_error hsetup
      rw [bind_of_error hbegins]
  | ok _ u =>
      have hbegins : (do setupInterpreter list event; return true : Play Bool) t = .ok true u :=
        bind_of_ok hsetup
      rw [bind_of_ok hbegins]
      rfl

theorem startReserved_of_idle (h : s.IsIdle) : startReserved s = .ok false s.passed := by
  rw [startReserved, get_bind_apply]
  cases hreserved : s.scratch.reserved with
  | nil =>
      have hsame : s.passed = s := by
        rw [passed, hreserved]
        exact congrArg (fun l => { s with scratch.reserved := l }) hreserved.symm
      rw [hsame]
      rfl
  | cons id rest =>
      have hnone := h.2 id (congrArg List.head? hreserved)
      have hpassed : { s with scratch.reserved := rest } = s.passed := by rw [passed, hreserved]; rfl
      have hmissing : (if id = 0 then none else s.passed.game.database.commonEvent? (.int id)) =
          none := hnone
      dsimp only
      rw [modify_bind_apply, get_bind_apply, hpassed, hmissing]
      rfl

theorem startReserved_of_entry {id : Int} {rest : List Int} {entry : Json}
    (hreserved : s.scratch.reserved = id :: rest) (hentry : s.reservedCommon? id = some entry) :
    startReserved s = (do
      setupInterpreter (CommonEvent.listOf entry) 0
      return true : Play Bool) s.passed := by
  have hpassed : { s with scratch.reserved := rest } = s.passed := by rw [passed, hreserved]; rfl
  have hfound : (if id = 0 then none else s.passed.game.database.commonEvent? (.int id)) =
      some entry := hentry
  rw [startReserved, get_bind_apply, hreserved]
  dsimp only
  rw [modify_bind_apply, get_bind_apply, hpassed, hfound]

/-- The choice among the events, and the common events that run by themselves. -/
def startUnreserved : Play Bool :=
  startEvent >>= fun begun => if begun then pure true else
    startAutorun >>= fun begun => if begun then pure true else commonEvents >>= startCommon

theorem startAutorun_apply (s : Session) : startAutorun s =
    (match s.map.eventList.find? runsByItself with
      | none => pure false
      | some e => do setupInterpreter e.list e.id; return true : Play Bool) s := rfl

/-- The common events come last: the first that runs by itself begins, or they have only been read. -/
theorem startCommons_cases (hidle : s.IsIdle) (hevent : s.map.eventList.find? (·.starting) = none)
    (hown : s.map.eventList.find? runsByItself = none) :
    (∃ b, s.Begins b ((commonEvents >>= startCommon).after s.passed)) ∨
      (commonEvents >>= startCommon).after s.passed = commonEvents.after s.passed := by
  cases hread : commonEvents s.passed with
  | error e t =>
      refine Or.inr ?_
      rw [after_of_error hread]
      exact after_of_error (bind_of_error hread)
  | ok commons t =>
      have hgame : t.game = s.game :=
        (preserves_commonEvents (P := fun u => u.game = s.game) fun _ _ _ hu => hu).of_ok
          (rfl : s.passed.game = s.game) hread
      have hchoice : (commonEvents >>= startCommon).after s.passed = (startCommon commons).after t := by
        rw [after, after, bind_of_ok hread]
      have hleft : commonEvents.after s.passed = t := after_of_ok hread
      subst hleft
      rcases startCommon_cases commons (commonEvents.after s.passed) with ⟨c, hruns, hbegun⟩ | hsame
      · refine Or.inl ⟨.common c.id, ?_⟩
        rw [hchoice, hbegun, hgame]
        exact .common hidle hevent hown hruns
      · exact Or.inr (hchoice.trans hsame)

theorem startUnreserved_cases (hidle : s.IsIdle) :
    (∃ b, s.Begins b (startUnreserved.after s.passed)) ∨
      startUnreserved.after s.passed = commonEvents.after s.passed := by
  cases hevent : s.map.eventList.find? (·.starting) with
  | some e =>
      have hfound : s.passed.map.eventList.find? (·.starting) = some e := hevent
      have hstart : startEvent s.passed = (do setupInterpreter e.list e.id; return true : Play Bool)
          (s.passed.updateEvent e.id MapEvent.clearStarting) := by
        rw [startEvent, get_bind_apply, hfound]
        rfl
      have hbegun : startUnreserved.after s.passed = _ := after_begun hstart
      exact Or.inl ⟨.event e.id, hbegun ▸ .event hidle hevent⟩
  | none =>
      have hfound : s.passed.map.eventList.find? (·.starting) = none := hevent
      have hnone : startEvent s.passed = .ok false s.passed := by
        rw [startEvent, get_bind_apply, hfound]
        rfl
      have hevents : startUnreserved.after s.passed = _ := after_unless hnone
      cases hown : s.map.eventList.find? runsByItself with
      | some e =>
          have hfound : s.passed.map.eventList.find? runsByItself = some e := hown
          have hstart : startAutorun s.passed =
              (do setupInterpreter e.list e.id; return true : Play Bool) s.passed := by
            rw [startAutorun_apply, hfound]
          have hbegun := hevents.trans (after_begun hstart)
          exact Or.inl ⟨.autorun e.id, hbegun ▸ .autorun hidle hevent hown⟩
      | none =>
          have hfound : s.passed.map.eventList.find? runsByItself = none := hown
          have hnone : startAutorun s.passed = .ok false s.passed := by
            rw [startAutorun_apply, hfound]
            rfl
          have hcommons := hevents.trans (after_unless hnone)
          rw [hcommons]
          exact startCommons_cases hidle hevent hown

/-- **What begins next.**  A list begins, the first one in the order of the kinds, or none does; then a
reserved common event that does not exist has been dropped, and the common events have been read. -/
theorem startWaiting_cases (s : Session) :
    (∃ b, s.Begins b (startWaiting.after s)) ∨
      s.IsIdle ∧ startWaiting.after s = commonEvents.after s.passed := by
  cases hpending : s.map.pending with
  | cons run rest =>
      have hstart : startPending s =
          (do setupInterpreter run.list run.event; return true : Play Bool) s.popped := by
        rw [Beginning.startPending_apply, get_bind_apply, hpending]
        rfl
      have hbegun : startWaiting.after s = _ := after_begun hstart
      exact Or.inl ⟨.pending run, hbegun ▸ .pending hpending⟩
  | nil =>
      have hnone : startPending s = .ok false s := by
        rw [startPending, get_bind_apply, hpending]
        rfl
      have hlater : startWaiting.after s = _ := after_unless hnone
      by_cases hidle : s.IsIdle
      · have hpassed : startWaiting.after s = startUnreserved.after s.passed :=
          hlater.trans (after_unless (startReserved_of_idle hidle))
        rw [hpassed]
        exact (startUnreserved_cases hidle).imp_right fun h => ⟨hidle, h⟩
      · obtain ⟨id, hid, hentry⟩ : ∃ id, s.scratch.reserved.head? = some id ∧
            s.reservedCommon? id ≠ none := by
          simpa [IsIdle, hpending] using hidle
        obtain ⟨entry, hentry⟩ := Option.ne_none_iff_exists'.mp hentry
        obtain ⟨rest, hreserved⟩ := List.head?_eq_some_iff.mp hid
        have hbegun := hlater.trans (after_begun (startReserved_of_entry hreserved hentry))
        exact Or.inl ⟨.reserved id, hbegun ▸ .reserved hpending hreserved hentry⟩

end Play

end EventLayer
