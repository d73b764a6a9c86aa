/-
**Pages that are due.**

The page that an event has to show is the last one that counts, or none once the event is erased.
Which one that is depends on switches, variables and self switches, on the members of the party and
on the things that it holds.  A map on which every event shows the page that is due stays as it is
when its pages are chosen anew; any other map is brought into that state.

Main definitions:

* `Stores.paging` — the part of the stores that the conditions of pages look at;
* `Session.ShowsDuePages` — every event shows the page that is due.

Main results:

* `MapEvent.duePage_paging` — the page that is due depends on no other store;
* `Play.refreshMap_eq_ok` — **choosing the pages anew brings up the pages that are due**;
* `Play.refreshIfAsked_of_shows` — on a map that shows them already nothing else happens.
-/
import EventLayer.Proofs.Lockstep.Frames
import EventLayer.Proofs.Saving.Reload

set_option autoImplicit false
set_option relaxedAutoImplicit false

namespace EventLayer

variable {db : Database} {stores : Stores}

/-! ### What conditions look at -/

/-- The stores that the conditions of pages look at; of the party these are its members and things. -/
def Stores.paging (s : Stores) : Stores where
  switchTable := s.switchTable
  variableTable := s.variableTable
  selfSwitches := s.selfSwitches
  selfVariables := s.selfVariables
  party := { members := s.party.members, items := s.party.items }

theorem PageCondition.holds_paging (c : PageCondition) (scope : Scope) :
    c.holds db stores.paging scope = c.holds db stores scope := by
  cases c <;> rfl

theorem PageCondition.allHold_paging (conditions : List PageCondition) (scope : Scope) :
    allHold db stores.paging scope conditions = allHold db stores scope conditions := by
  induction conditions with
  | nil => rfl
  | cons c rest ih => simp only [allHold, holds_paging, ih]

namespace MapEvent

variable {e e' : MapEvent}

theorem firstCounting_paging (pages : List (Page × Nat)) (scope : Scope) :
    firstCounting db stores.paging scope pages = firstCounting db stores scope pages := by
  induction pages with
  | nil => rfl
  | cons p rest ih =>
      simp only [firstCounting, Page.counts, PageCondition.allHold_paging, ih]

theorem duePage_paging (e : MapEvent) (db : Database) (stores : Stores) :
    e.duePage db stores.paging = e.duePage db stores := by
  rw [duePage, duePage, properPage, properPage, firstCounting_paging]

/-! ### Taking on the page that is due -/

theorem StandsAs.duePage (h : e.StandsAs e') (db : Database) (stores : Stores) :
    e'.duePage db stores = e.duePage db stores := by
  rw [MapEvent.duePage, MapEvent.duePage, h.erased,
    properPage_congr h.id h.map h.pages db stores]

/-- An event whose page is chosen anew shows the page that is due. -/
theorem duePage_refresh (h : (e.refresh db stores).result = .ok e') :
    e'.duePage db stores = .ok e'.pageIndex := by
  obtain ⟨due, hdue, h⟩ := Reading.bind_eq_ok h
  have hdue : e.duePage db stores = .ok due := hdue
  split at h
  · next hsame =>
      cases h
      rw [hdue, hsame]
  · have hs := standsAs_showPage h
    rw [hs.duePage, hs.pageIndex]
    exact hdue

theorem refresh_of_shows (h : e.duePage db stores = .ok e.pageIndex) :
    e.refresh db stores = pure e := by
  change Reading.andThen (Reading.ofExcept (e.duePage db stores)) _ = _
  simp only [Reading.andThen, Reading.ofExcept, h, if_true]
  rfl

/-- An event of a map file shows the page that is due. -/
theorem duePage_ofFields {map : Int} {fields : List (String × Json)}
    (h : (ofFields map fields db stores).result = .ok e) :
    e.duePage db stores = .ok e.pageIndex := by
  obtain ⟨id, -, h⟩ := Reading.bind_eq_ok h
  obtain ⟨pages, -, h⟩ := Reading.bind_eq_ok h
  dsimp only at h
  split at h
  · exact duePage_refresh h
  · obtain ⟨x, -, h⟩ := Reading.bind_eq_ok h
    obtain ⟨y, -, h⟩ := Reading.bind_eq_ok h
    exact duePage_refresh h

end MapEvent

/-! ### The pages of a map -/

/-- Every event of the map shows the page that is due. -/
def Session.ShowsDuePages (s : Session) : Prop :=
  ∀ e ∈ s.map.eventList, e.duePage s.game.database s.stores = .ok e.pageIndex

instance (s : Session) : Decidable s.ShowsDuePages :=
  inferInstanceAs
    (Decidable (∀ e ∈ s.map.eventList, e.duePage s.game.database s.stores = .ok e.pageIndex))

namespace Play

open Session

variable {s t : Session}

theorem duePage_refreshEvents {l l' : List (Int × MapEvent)}
    (h : (refreshEvents db stores l).result = .ok l') :
    ∀ e ∈ l'.map Prod.snd, e.duePage db stores = .ok e.pageIndex := by
  induction l generalizing l' with
  | nil =>
      cases h
      intro e he
      cases he
  | cons entry rest ih =>
      obtain ⟨first, hfirst, h⟩ := Reading.bind_eq_ok h
      obtain ⟨others, hothers, h⟩ := Reading.bind_eq_ok h
      cases h
      intro e he
      rcases List.mem_cons.mp he with rfl | he
      · exact MapEvent.duePage_refresh hfirst
      · exact ih hothers e he

theorem refreshEvents_of_shows {l : List (Int × MapEvent)}
    (h : ∀ e ∈ l.map Prod.snd, e.duePage db stores = .ok e.pageIndex) :
    refreshEvents db stores l = pure l := by
  induction l with
  | nil => rfl
  | cons entry rest ih =>
      rw [List.map_cons, List.forall_mem_cons] at h
      rw [refreshEvents, MapEvent.refresh_of_shows h.1, ih h.2]
      rfl

/-- **Choosing the pages anew brings up the pages that are due**, and writes no store. -/
theorem refreshMap_eq_ok (h : refreshMap s = .ok () t) :
    t.ShowsDuePages ∧ t.game = s.game ∧ t.stores = s.stores ∧ t.map.needsRefresh = false := by
  rw [refreshMap, get_bind_apply] at h
  obtain ⟨events, hevents, h⟩ := reading_bind_eq_ok h
  cases h
  exact ⟨duePage_refreshEvents hevents, rfl, rfl, rfl⟩

/-- On a map that shows the pages that are due, the check for a refresh only withdraws the request. -/
theorem refreshIfAsked_of_shows (h : s.ShowsDuePages) :
    refreshIfAsked s = .ok () { s with map.needsRefresh := false } := by
  have hsame : refreshEvents s.game.database s.stores s.map.events.entries =
      pure s.map.events.entries := refreshEvents_of_shows h
  rw [refreshIfAsked, get_bind_apply]
  cases hn : s.map.needsRefresh with
  | true =>
      rw [if_pos rfl, refreshMap, get_bind_apply, hsame]
      change EStateM.Result.ok () { s with notices := s.notices ++ [], map.needsRefresh := false } = _
      rw [List.append_nil]
  | false =>
      have hunasked : { s with map.needsRefresh := false } = s := by rw [← hn]
      rw [hunasked]
      rfl

end Play

end EventLayer
