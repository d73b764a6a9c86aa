/-
**The lists that can begin.**

When the map's own list has ended, others begin, and commands begin common events.  All of them come from
the queue of map setup, from a page of an event, or from the common events of the database.  So if all
these lists are read as lists with some property of their commands, then that property is never lost: what
runs has it, and what begins has it.

Main definitions:

* `Session.Supplies` — the lists that can begin are read as lists with a property;
* `Session.Ordered` — a session whose lists, those that run and those that can begin, have a property.

Main results:

* `Play.sustained_ordered` — **a run of the command lists leaves an ordered session ordered**;
* `Play.ordered_startNext` — **and so does the beginning of the next list**.
-/
import EventLayer.Proofs.Ending.Orderly
import EventLayer.Proofs.Lockstep.Frames
import EventLayer.Proofs.Map.Commons
import EventLayer.Proofs.Map.Erasing
import EventLayer.Proofs.Saving.Reload

set_option autoImplicit false
set_option relaxedAutoImplicit false

namespace EventLayer

variable {g : Game} {L : List EventCommand → Prop}

/-! ### Pages -/

namespace MapEvent

variable {e e' : MapEvent}

/-- An erased event keeps its pages. -/
theorem pages_erase (e : MapEvent) : e.erase.pages = e.pages := by
  unfold erase
  split
  · rfl
  · rfl

/-- An event that shows another page keeps its pages. -/
theorem pages_refresh {db : Database} {stores : Stores}
    (h : (e.refresh db stores).result = .ok e') : e'.pages = e.pages := by
  obtain ⟨due, -, h⟩ := Reading.bind_eq_ok h
  split at h
  · cases h
    rfl
  · exact (standsAs_showPage h).pages

/-- The list of an event is that of a page of it, or an empty one. -/
theorem readsAs_list (hempty : ReadsAs L (.arr [])) (hpages : ∀ p ∈ e.pages, ReadsAs L p.list) :
    ReadsAs L e.list := by
  unfold MapEvent.list
  cases hpage : e.page? with
  | none => exact hempty
  | some p =>
      refine hpages p ?_
      unfold page? at hpage
      split at hpage
      · cases hpage
      · exact List.mem_of_getElem? hpage

end MapEvent

/-- The pages of the events stay when others are chosen. -/
theorem Play.pages_refreshEvents {db : Database} {stores : Stores} {l l' : List (Int × MapEvent)}
    (h : (refreshEvents db stores l).result = .ok l') :
    ∀ e' ∈ l'.map Prod.snd, ∃ e ∈ l.map Prod.snd, e'.pages = e.pages := by
  induction l generalizing l' with
  | nil =>
      cases h
      intro e' he'
      cases he'
  | cons entry rest ih =>
      obtain ⟨first, hfirst, h⟩ := Reading.bind_eq_ok h
      obtain ⟨others, hothers, h⟩ := Reading.bind_eq_ok h
      cases h
      intro e' he'
      rcases List.mem_cons.1 he' with rfl | he'
      · exact ⟨entry.2, List.mem_cons_self .., MapEvent.pages_refresh hfirst⟩
      · obtain ⟨e, he, hpages⟩ := ih hothers e' he'
        exact ⟨e, List.mem_cons_of_mem _ he, hpages⟩

namespace Session

/-- The lists that can begin are read as lists with a property: those in the queue of map setup, those of
the events' pages, and the common events. -/
def Supplies (L : List EventCommand → Prop) (s : Session) : Prop :=
  (∀ run ∈ s.map.pending, ReadsAs L run.list) ∧
    (∀ e ∈ s.map.eventList, ∀ p ∈ e.pages, ReadsAs L p.list) ∧
    ∀ entry ∈ s.game.database.commonEntries, ReadsAs L (CommonEvent.listOf entry)

/-- A session of a game whose lists have a property of their commands, those that run and those that can
begin. -/
def Ordered (g : Game) (L : List EventCommand → Prop) (s : Session) : Prop :=
  (s.game = g ∧ s.Supplies L) ∧ s.interpreter.Orderly L

variable {s : Session}

theorem Supplies.pending (h : s.Supplies L) : ∀ run ∈ s.map.pending, ReadsAs L run.list := h.1

theorem Supplies.pages (h : s.Supplies L) : ∀ e ∈ s.map.eventList, ∀ p ∈ e.pages, ReadsAs L p.list :=
  h.2.1

theorem Supplies.commons (h : s.Supplies L) :
    ∀ entry ∈ s.game.database.commonEntries, ReadsAs L (CommonEvent.listOf entry) := h.2.2

theorem Ordered.game (h : s.Ordered g L) : s.game = g := h.1.1

theorem Ordered.supplies (h : s.Ordered g L) : s.Supplies L := h.1.2

theorem Ordered.orderly (h : s.Ordered g L) : s.interpreter.Orderly L := h.2

theorem Supplies.common (h : s.Supplies L) {id entry : Json}
    (hentry : s.game.database.commonEvent? id = some entry) :
    ReadsAs L (CommonEvent.listOf entry) :=
  h.commons entry (Database.mem_commonEntries hentry)

/-- A change of an event that leaves its pages leaves the lists that can begin. -/
theorem Supplies.updateEvent {f : MapEvent → MapEvent} (h : s.Supplies L)
    (hf : ∀ e, (f e).pages = e.pages) (id : Int) : (s.updateEvent id f).Supplies L := by
  have hmap : (s.map.events.modify id f).values.map MapEvent.pages =
      s.map.events.values.map MapEvent.pages := by
    simpa only [OrderedMap.values_mapValues] using
      congrArg OrderedMap.values (OrderedMap.mapValues_modify hf s.map.events id)
  refine ⟨h.pending, ?_, h.commons⟩
  intro e he p hp
  have hpages : e.pages ∈ s.map.events.values.map MapEvent.pages := hmap ▸ List.mem_map_of_mem he
  obtain ⟨e', he', hsame⟩ := List.mem_map.1 hpages
  exact h.pages e' he' p (hsame ▸ hp)

end Session

namespace Play

open Session

/-! ### Commands -/

/-- No single write of a command changes the lists that can begin. -/
theorem enduring_supplies : Enduring (Supplies L) where
  aside := fun _ _ _ _ hs _ => hs
  setReserved := fun _ hs => hs
  setSwitch := fun _ _ hs => hs
  setVariable := fun _ _ hs => hs
  setSelfSwitch := fun _ _ hs => hs
  requestRefresh := fun hs => hs
  recordOrigin := fun _ _ _ hs => hs
  setBehavior := fun _ hs => hs
  gain := fun _ _ ht => ht
  forceRoute := by
    intro s who route hs
    cases who with
    | player => exact hs
    | follower place => exact hs
    | event id =>
        exact hs.updateEvent (f := fun e => { e with body := e.body.forceRoute route }) (fun _ => rfl) id
  eraseEvent := by
    intro id s hs
    rw [after_of_ok (eraseEvent_apply id s)]
    exact hs.updateEvent MapEvent.pages_erase id
  onFrame := fun _ _ _ hs => hs
  await := fun _ _ hs => hs

theorem enduring_game : Enduring fun s => s.game = g := by
  refine enduring_of_fixed ?_
  intro s t hs h
  have hsame : t.fixed.game = s.fixed.game := congrArg Session.game h
  exact hsame.trans hs

/-- **A run of the command lists leaves an ordered session ordered.** -/
theorem sustained_ordered : Sustained (Ordered g L) := by
  refine sustained_orderly (enduring_game.and enduring_supplies) (fun _ hs => hs) (fun _ hs => hs) ?_
  intro s hs id entry hentry
  exact hs.2.common hentry

/-! ### The beginning of lists -/

theorem ordered_notices (s : Session) (n : List Notice) (h : s.Ordered g L) :
    { s with notices := n }.Ordered g L :=
  sustained_ordered.aside s.draws s.scratch s.audio n h rfl

theorem ordered_refreshIfAsked : refreshIfAsked.Preserves (Ordered g L) := by
  have hrefresh : refreshMap.Preserves (Ordered g L) := by
    refine preserves_getBind_of fun s hs => ?_
    refine preserves_readingBind ordered_notices fun events hevents => preserves_modify ?_
    intro t ht
    refine ⟨⟨ht.game, ht.supplies.pending, ?_, ht.supplies.commons⟩, ht.orderly⟩
    intro e' he' p hp
    obtain ⟨e, he, hsame⟩ := pages_refreshEvents hevents e' he'
    exact hs.supplies.pages e he p (hsame ▸ hp)
  exact preserves_getBind fun s => hrefresh.ite (preserves_pure ())

/-- A list that is begun is orderly if it is read as one with the property. -/
theorem ordered_begin {list : Json} (hlist : ReadsAs L list) (event : Int) : (do
    setupInterpreter list event
    return true : Play Bool).Preserves (Ordered g L) := by
  have hclear : ∀ s : Session, s.Ordered g L → (s.updateInterpreter Interpreter.clear).Ordered g L := by
    intro s hs
    exact ⟨hs.1, Interpreter.orderly_clear _⟩
  refine Preserves.bind (Preserves.bind (preserves_modify hclear) fun _ => ?_) fun _ => preserves_pure _
  refine preserves_openFrame ordered_notices hlist event ?_
  intro frame hframe _
  refine preserves_modify ?_
  intro s hs
  exact ⟨hs.1, .single hframe⟩

theorem ordered_startPending : startPending.Preserves (Ordered g L) := by
  rw [show startPending = _ from funext Beginning.startPending_apply]
  refine preserves_getBind_of fun s hs => ?_
  split
  · exact preserves_pure _
  · next run rest hpending =>
      have hrun : ReadsAs L run.list := hs.supplies.pending run (by rw [hpending]; simp)
      refine Preserves.bind (preserves_modify ?_) fun _ => ordered_begin hrun _
      intro t ht
      refine ⟨⟨ht.game, ?_, ht.supplies.pages, ht.supplies.commons⟩, ht.orderly⟩
      intro run' hrun'
      exact ht.supplies.pending run' (List.mem_of_mem_tail hrun')

theorem ordered_startReserved : startReserved.Preserves (Ordered g L) := by
  refine preserves_getBind fun s => ?_
  split
  · exact preserves_pure _
  · refine Preserves.bind (preserves_modify ?_) fun _ => preserves_getBind_of fun s hs => ?_
    · intro t ht
      exact sustained_ordered.setReserved _ ht
    · dsimp only
      split
      · exact preserves_pure _
      · next entry hentry =>
          split at hentry
          · cases hentry
          · exact ordered_begin (hs.supplies.common hentry) _

section Begin

variable (hempty : ReadsAs L (.arr []))

include hempty

theorem ordered_startEvent : startEvent.Preserves (Ordered g L) := by
  refine preserves_getBind_of fun s hs => ?_
  split
  · exact preserves_pure _
  · next e he =>
      have hlist : ReadsAs L e.list :=
        MapEvent.readsAs_list hempty (hs.supplies.pages e (List.mem_of_find?_eq_some he))
      refine Preserves.bind (preserves_modify ?_) fun _ => ordered_begin hlist _
      intro t ht
      have hpages : ∀ e : MapEvent, e.clearStarting.pages = e.pages := fun _ => rfl
      exact ⟨⟨ht.game, ht.supplies.updateEvent hpages _⟩, ht.orderly⟩

theorem ordered_startAutorun : startAutorun.Preserves (Ordered g L) := by
  refine preserves_getBind_of fun s hs => ?_
  split
  · exact preserves_pure _
  · next e he =>
      refine ordered_begin (MapEvent.readsAs_list hempty ?_) _
      exact hs.supplies.pages e (List.mem_of_find?_eq_some he)

theorem ordered_startCommon (commons : List CommonEvent) :
    (startCommon commons).Preserves (Ordered g L) := by
  induction commons with
  | nil => exact preserves_pure _
  | cons c rest ih =>
      refine (Lasting.isAutorun c).bind fun _ => Preserves.ite (preserves_getBind_of fun s hs => ?_) ih
      refine ordered_begin ?_ _
      unfold commonEntry
      cases hentry : s.game.database.commonEvent? c.id with
      | none => exact hempty
      | some entry => exact hs.supplies.common hentry

/-- **The beginning of the next list leaves an ordered session ordered.** -/
theorem ordered_startNext : startNext.Preserves (Ordered g L) := by
  have hcommons : commonEvents.Preserves (Ordered g L) := by
    refine preserves_commonEvents ?_
    intro s commons notices hs
    exact hs
  rw [startNext_eq]
  refine ordered_refreshIfAsked.bind fun _ => ?_
  refine ordered_startPending.bind fun _ => (preserves_pure _).ite ?_
  refine ordered_startReserved.bind fun _ => (preserves_pure _).ite ?_
  refine (ordered_startEvent hempty).bind fun _ => (preserves_pure _).ite ?_
  refine (ordered_startAutorun hempty).bind fun _ => (preserves_pure _).ite ?_
  exact hcommons.bind fun commons => ordered_startCommon hempty commons

end Begin

end Play

end EventLayer
