/-
**Which conditions are asked.**

The pages of an event are gone through from the last to the first, and the conditions of a page from the
first to the last.  A condition is asked if those before it on its page hold and no later page counts.  The
choice of a page fails only where a condition that is asked fails, and choosing the pages of a map anew fails
only there, or where a page that is due cannot be shown.

Main definitions:

* `AnsweredInTurn` — questions that are asked in turn, as long as the answer is one of the two, are all answered;
* `MapEvent.Asks` — the choice of an event's page comes to a condition.

Main results:

* `MapEvent.exists_duePage_iff` — **a page can be chosen exactly if all that is asked is answered**;
* `Play.returns_refreshMap` — **when choosing the pages of a map anew comes to an end**.
-/
import EventLayer.Proofs.Map.Pages
import EventLayer.Proofs.Returns

set_option autoImplicit false
set_option relaxedAutoImplicit false

namespace EventLayer

/-! ### Questions that are asked in turn -/

section Questions

variable {α : Type} {f : α → Except Fault Bool} {go : Bool} {a : α} {l : List α}

/-- Questions are asked in turn as long as the answer is a certain one, and all that are asked are
answered. -/
def AnsweredInTurn (f : α → Except Fault Bool) (go : Bool) (l : List α) : Prop :=
  ∀ before a after, l = before ++ a :: after → (∀ a' ∈ before, f a' = .ok go) → ∃ b, f a = .ok b

theorem answeredInTurn_nil : AnsweredInTurn f go [] := by
  intro before a after h
  exact absurd h (by simp)

theorem answeredInTurn_cons :
    AnsweredInTurn f go (a :: l) ↔ (∃ b, f a = .ok b) ∧ (f a = .ok go → AnsweredInTurn f go l) := by
  constructor
  · intro h
    refine ⟨h [] a l rfl (List.forall_mem_nil _), fun hgo before a' after hl hbefore => ?_⟩
    exact h (a :: before) a' after (by rw [hl]; rfl) (List.forall_mem_cons.2 ⟨hgo, hbefore⟩)
  · rintro ⟨hfirst, hrest⟩ before a' after hl hbefore
    cases before with
    | nil =>
        cases hl
        exact hfirst
    | cons a'' before =>
        cases hl
        obtain ⟨hgo, hbefore⟩ := List.forall_mem_cons.1 hbefore
        exact hrest hgo before a' after rfl hbefore

end Questions

variable {db : Database} {stores : Stores} {scope : Scope}

theorem PageCondition.exists_allHold_iff {l : List PageCondition} :
    (∃ b, allHold db stores scope l = .ok b) ↔ AnsweredInTurn (·.holds db stores scope) true l := by
  induction l with
  | nil => exact iff_of_true ⟨true, rfl⟩ answeredInTurn_nil
  | cons c rest ih =>
      rw [answeredInTurn_cons, ← ih, allHold]
      cases hc : c.holds db stores scope with
      | error e =>
          refine iff_of_false ?_ ?_
          · rintro ⟨b, hb⟩
            cases hb
          · rintro ⟨⟨b, hb⟩, -⟩
            cases hb
      | ok b =>
          cases b with
          | true =>
              rw [Except.ok_bind, if_pos rfl]
              exact ⟨fun h => ⟨⟨true, rfl⟩, fun _ => h⟩, fun h => h.2 rfl⟩
          | false => exact iff_of_true ⟨false, rfl⟩ ⟨⟨false, rfl⟩, fun h => by cases h⟩

namespace MapEvent

variable {e : MapEvent}

theorem exists_firstCounting_iff {l : List (Page × Nat)} :
    (∃ i, firstCounting db stores scope l = .ok i) ↔
      AnsweredInTurn (fun p : Page => p.counts db stores scope) false (l.map Prod.fst) := by
  induction l with
  | nil => exact iff_of_true ⟨-1, rfl⟩ answeredInTurn_nil
  | cons p rest ih =>
      rw [List.map_cons, answeredInTurn_cons, ← ih, firstCounting]
      cases hp : p.1.counts db stores scope with
      | error e =>
          refine iff_of_false ?_ ?_
          · rintro ⟨b, hb⟩
            cases hb
          · rintro ⟨⟨b, hb⟩, -⟩
            cases hb
      | ok b =>
          cases b with
          | true => exact iff_of_true ⟨_, rfl⟩ ⟨⟨true, rfl⟩, fun h => by cases h⟩
          | false =>
              rw [Except.ok_bind, if_neg Bool.false_ne_true]
              exact ⟨fun h => ⟨⟨false, rfl⟩, fun _ => h⟩, fun h => h.2 rfl⟩

/-- The choice of an event's page comes to a condition: no later page counts, and the conditions before it
on its own page hold. -/
def Asks (e : MapEvent) (db : Database) (stores : Stores) (c : PageCondition) : Prop :=
  e.erased = false ∧ ∃ earlier p later before after, e.pages = earlier ++ p :: later ∧
    (∀ p' ∈ later, p'.counts db stores e.scope = .ok false) ∧ p.conditions = before ++ c :: after ∧
      ∀ c' ∈ before, c'.holds db stores e.scope = .ok true

/-- **A page can be chosen exactly if every condition that is asked is answered.** -/
theorem exists_duePage_iff : (∃ i, e.duePage db stores = .ok i) ↔
    ∀ c, e.Asks db stores c → ∃ b, c.holds db stores e.scope = .ok b := by
  cases herased : e.erased with
  | true =>
      refine iff_of_true ⟨-1, by rw [duePage, if_pos herased]⟩ fun c hc => ?_
      rw [hc.1] at herased
      cases herased
  | false =>
      have hpages : (e.pages.zipIdx.reverse).map Prod.fst = e.pages.reverse := by
        rw [List.map_reverse, List.zipIdx_map_fst]
      rw [duePage, herased, if_neg (by simp), properPage, exists_firstCounting_iff, hpages]
      constructor
      · rintro h c ⟨-, earlier, p, later, before, after, hsplit, hlater, hconditions, hbefore⟩
        have hcounts := h later.reverse p earlier.reverse (by simp [hsplit]) (by simpa using hlater)
        exact PageCondition.exists_allHold_iff.1 hcounts before c after hconditions hbefore
      · intro h later p earlier hsplit hlater
        refine PageCondition.exists_allHold_iff.2 fun before c after hconditions hbefore => ?_
        refine h c ⟨herased, earlier.reverse, p, later.reverse, before, after, ?_, ?_, hconditions, hbefore⟩
        · rw [← List.reverse_reverse e.pages, hsplit]
          simp
        · simpa using hlater

/-- An event can show the page that is due. -/
def CanShow (e : MapEvent) (db : Database) (stores : Stores) : Prop :=
  ∀ due, e.duePage db stores = .ok due → due ≠ e.pageIndex →
    ∃ e', (showPage { e with pageIndex := due }).result = .ok e'

theorem exists_refresh_iff : (∃ e', (e.refresh db stores).result = .ok e') ↔
    (∀ c, e.Asks db stores c → ∃ b, c.holds db stores e.scope = .ok b) ∧ e.CanShow db stores := by
  rw [← exists_duePage_iff, CanShow]
  cases hdue : e.duePage db stores with
  | error fault =>
      refine iff_of_false ?_ ?_
      · rintro ⟨e', h⟩
        obtain ⟨due, h, -⟩ := Reading.bind_eq_ok h
        change e.duePage db stores = .ok due at h
        rw [hdue] at h
        cases h
      · rintro ⟨⟨i, h⟩, -⟩
        cases h
  | ok due =>
      have hlift : (liftM (e.duePage db stores) : Reading Int).result = .ok due := hdue
      rw [refresh, Reading.result_bind_ok hlift, and_iff_right ⟨due, rfl⟩]
      by_cases hsame : due = e.pageIndex
      · rw [if_pos hsame]
        refine iff_of_true ⟨e, rfl⟩ fun due' h hne => ?_
        cases h
        exact absurd hsame hne
      · rw [if_neg hsame]
        refine ⟨fun h due' hdue' _ => ?_, fun h => h due rfl hsame⟩
        cases hdue'
        exact h

end MapEvent

namespace Play

open Session

theorem exists_refreshEvents_iff {l : List (Int × MapEvent)} :
    (∃ l', (refreshEvents db stores l).result = .ok l') ↔
      ∀ e ∈ l.map Prod.snd, ∃ e', (e.refresh db stores).result = .ok e' := by
  induction l with
  | nil => exact iff_of_true ⟨[], rfl⟩ (List.forall_mem_nil _)
  | cons entry rest ih =>
      rw [List.map_cons, List.forall_mem_cons, ← ih]
      constructor
      · rintro ⟨l', h⟩
        obtain ⟨first, hfirst, h⟩ := Reading.bind_eq_ok h
        obtain ⟨others, hothers, -⟩ := Reading.bind_eq_ok h
        exact ⟨⟨first, hfirst⟩, others, hothers⟩
      · rintro ⟨⟨first, hfirst⟩, others, hothers⟩
        exact ⟨_, by rw [refreshEvents, Reading.result_bind_ok hfirst, Reading.result_bind_ok hothers]; rfl⟩

/-- **When choosing the pages of a map anew comes to an end.** -/
theorem returns_refreshMap (s : Session) : refreshMap.Returns s
    (∀ e ∈ s.map.eventList, (∀ c, e.Asks s.game.database s.stores c →
      ∃ b, c.holds s.game.database s.stores e.scope = .ok b) ∧ e.CanShow s.game.database s.stores)
    fun _ t => t.ShowsDuePages := by
  have hread : refreshMap.Returns s
      (∃ l', (refreshEvents s.game.database s.stores s.map.events.entries).result = .ok l')
      fun _ t => refreshMap s = .ok () t := by
    have hends : refreshMap.Returns s _ fun _ _ => True :=
      returns_getBind ((returns_reading _).first fun _ _ _ => returns_of_ok rfl trivial)
    exact hends.with_run.mono fun _ t ht => ht.1
  refine (hread.iff ?_).mono fun _ t ht => (refreshMap_eq_ok ht).1
  rw [exists_refreshEvents_iff]
  exact forall₂_congr fun e _ => MapEvent.exists_refresh_iff

end Play

end EventLayer
