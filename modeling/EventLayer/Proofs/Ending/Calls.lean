/-
**Common events that run common events.**

A command runs a common event above the list that it stands in if it names one, or if it gives a treasure
and one is configured to show it.  Where no common event can reach itself in this way, there is a bound on
the number of lists above each other: from any list on, there are no more than the database has common
events.  Conversely such a bound excludes that one reaches itself, so that it can be decided whether one
does.

Main definitions:

* `Game.callees`, `Game.calleesOf` — the common events that an instruction, or a list, runs;
* `Game.Acyclic` — no common event reaches itself;
* `Game.Shallow` — lists above which only so many others are run.

Main results:

* `Game.Acyclic.shallow` — **where no common event reaches itself, every list is shallow**;
* `Game.acyclic_of_shallow` — where the common events are shallow, none reaches itself.
-/
import EventLayer.Proofs.Ending.Orderly

set_option autoImplicit false
set_option relaxedAutoImplicit false

namespace EventLayer

instance (L : List EventCommand → Prop) [DecidablePred L] (list : Json) : Decidable (ReadsAs L list) :=
  match h : (EventCommand.readList list).result with
  | .ok l => decidable_of_iff (L l) ⟨fun hl _ hl' => Except.ok.inj (h.symm.trans hl') ▸ hl,
      fun hreads => hreads l h⟩
  | .error _ => isTrue fun _ hl => nomatch h.symm.trans hl

namespace Game

/-! ### Calls -/

/-- The common event that is run to show a treasure, if there is one. -/
def displayEntry? (g : Game) : Option Json :=
  if g.config.treasureDisplay = 0 then none
  else g.database.commonEvent? (.int g.config.treasureDisplay)

/-- The common event that an instruction runs above its list, if it runs one. -/
def callees (g : Game) : Instruction → List Json
  | .callCommon id => (g.database.commonEvent? id).toList
  | i => if i.givesTreasure then g.displayEntry?.toList else []

/-- The common events that a list runs above itself. -/
def calleesOf (g : Game) (l : List EventCommand) : List Json :=
  l.flatMap fun c => g.callees c.instruction

/-- One common event runs another one. -/
def Runs (g : Game) (e e' : Json) : Prop :=
  ∃ l, (EventCommand.readList (CommonEvent.listOf e)).result = .ok l ∧ e' ∈ g.calleesOf l

/-- No common event reaches itself through what it runs. -/
def Acyclic (g : Game) : Prop := ∀ e ∈ g.database.commonEntries, ¬ Relation.TransGen g.Runs e e

/-- Above a list at most so many others are run, one above the other. -/
def Shallow (g : Game) : Nat → List EventCommand → Prop
  | 0, l => g.calleesOf l = []
  | n + 1, l => ∀ e ∈ g.calleesOf l, ReadsAs (g.Shallow n) (CommonEvent.listOf e)

variable {g : Game} {l : List EventCommand} {e e' : Json}

/-- What gives a treasure runs the common event that shows it. -/
theorem callees_of_givesTreasure {i : Instruction} (h : i.givesTreasure = true) :
    g.callees i = g.displayEntry?.toList := by
  cases i with
  | plugin call => simp only [callees, h, if_true]
  | _ => cases h

theorem mem_commonEntries_of_callee {i : Instruction} (h : e ∈ g.callees i) :
    e ∈ g.database.commonEntries := by
  unfold callees at h
  split at h
  · exact Database.mem_commonEntries (Option.mem_toList.1 h)
  · split at h
    · unfold displayEntry? at h
      split at h
      · simp at h
      · exact Database.mem_commonEntries (Option.mem_toList.1 h)
    · simp at h

theorem mem_commonEntries_of_calleesOf (h : e ∈ g.calleesOf l) : e ∈ g.database.commonEntries := by
  obtain ⟨c, -, hc⟩ := List.mem_flatMap.1 h
  exact mem_commonEntries_of_callee hc

theorem mem_commonEntries_of_reached (h : Relation.TransGen g.Runs e e') :
    e' ∈ g.database.commonEntries := by
  have hrun : ∀ e₁ e₂ : Json, g.Runs e₁ e₂ → e₂ ∈ g.database.commonEntries := by
    rintro e₁ e₂ ⟨l, -, hl⟩
    exact mem_commonEntries_of_calleesOf hl
  cases h with
  | single h => exact hrun _ _ h
  | tail _ h => exact hrun _ _ h

/-! ### Shallow lists -/

theorem Shallow.succ {n : Nat} (h : g.Shallow n l) : g.Shallow (n + 1) l := by
  induction n generalizing l with
  | zero =>
      intro e he
      rw [show g.calleesOf l = [] from h] at he
      cases he
  | succ n ih =>
      intro e he l' hl'
      exact ih (h e he l' hl')

theorem Shallow.mono {n m : Nat} (h : g.Shallow n l) (hnm : n ≤ m) : g.Shallow m l := by
  induction hnm with
  | refl => exact h
  | step _ ih => exact ih.succ

theorem shallow_nil (n : Nat) : g.Shallow n [] := by
  cases n with
  | zero => rfl
  | succ n =>
      intro e he
      cases he

/-- A list is shallow if all that can be run from it stands in a short list of common events: each of them
can be left out when it runs, since it does not reach itself. -/
theorem Acyclic.shallow_of_within (h : g.Acyclic) {n : Nat} {within : List Json}
    (hn : within.length = n) (hl : ∀ e ∈ g.calleesOf l, e ∈ within ∧
      ∀ e', Relation.TransGen g.Runs e e' → e' ∈ within) : g.Shallow n l := by
  induction n generalizing within l with
  | zero =>
      obtain rfl := List.eq_nil_of_length_eq_zero hn
      refine List.eq_nil_iff_forall_not_mem.2 ?_
      intro e he
      exact absurd (hl e he).1 (by simp)
  | succ n ih =>
      intro e he l' hl'
      obtain ⟨hmem, hreached⟩ := hl e he
      obtain ⟨before, behind, rfl⟩ := List.append_of_mem hmem
      have hentry : e ∈ g.database.commonEntries := mem_commonEntries_of_calleesOf he
      -- what runs from this common event is another one, and stands among the others
      have hothers : ∀ e', Relation.TransGen g.Runs e e' → e' ∈ before ++ behind := by
        intro e' he'
        have hin : e' ∈ before ++ e :: behind := hreached e' he'
        have hne : e' ≠ e := by
          rintro rfl
          exact h e' hentry he'
        simp only [List.mem_append, List.mem_cons, hne, false_or] at hin
        exact List.mem_append.2 hin
      have hlength : (before ++ behind).length = n := by
        simp only [List.length_append, List.length_cons] at hn ⊢
        omega
      refine ih hlength ?_
      intro e' he'
      have hrun : g.Runs e e' := ⟨l', hl', he'⟩
      refine ⟨hothers e' (.single hrun), ?_⟩
      intro e'' he''
      exact hothers e'' (.trans (.single hrun) he'')

/-- **Where no common event reaches itself, every list is shallow.** -/
theorem Acyclic.shallow (h : g.Acyclic) (l : List EventCommand) :
    g.Shallow g.database.commonEntries.length l := by
  refine h.shallow_of_within rfl ?_
  intro e he
  refine ⟨mem_commonEntries_of_calleesOf he, ?_⟩
  intro e' he'
  exact mem_commonEntries_of_reached he'

/-- What reaches something runs something first. -/
theorem exists_runs_of_reaches (h : Relation.TransGen g.Runs e e') :
    ∃ e'', g.Runs e e'' ∧ (e'' = e' ∨ Relation.TransGen g.Runs e'' e') := by
  induction h with
  | single hrun => exact ⟨_, hrun, Or.inl rfl⟩
  | tail _ hrun ih =>
      obtain ⟨e'', hfirst, rfl | hreaches⟩ := ih
      · exact ⟨_, hfirst, Or.inr (.single hrun)⟩
      · exact ⟨e'', hfirst, Or.inr (hreaches.tail hrun)⟩

/-- **Where the common events are shallow, none reaches itself.** -/
theorem acyclic_of_shallow {n : Nat}
    (h : ∀ e ∈ g.database.commonEntries, ReadsAs (g.Shallow n) (CommonEvent.listOf e)) :
    g.Acyclic := by
  have hnone : ∀ (n : Nat) (e : Json), ReadsAs (g.Shallow n) (CommonEvent.listOf e) →
      ¬ Relation.TransGen g.Runs e e := by
    intro n
    induction n with
    | zero =>
        intro e he hcycle
        obtain ⟨e', ⟨l, hl, hmem⟩, -⟩ := exists_runs_of_reaches hcycle
        rw [show g.calleesOf l = [] from he l hl] at hmem
        cases hmem
    | succ n ih =>
        intro e he hcycle
        obtain ⟨e', hrun, hback⟩ := exists_runs_of_reaches hcycle
        obtain ⟨l, hl, hmem⟩ := hrun
        refine ih e' (he l hl e' hmem) ?_
        rcases hback with rfl | hback
        · exact hcycle
        · exact hback.tail ⟨l, hl, hmem⟩
  intro e he
  exact hnone n e (h e he)

/-! ### Deciding it -/

/-- Whether a list is shallow can be decided. -/
instance Shallow.decidable (g : Game) : (n : Nat) → DecidablePred (g.Shallow n)
  | 0 => fun l => decidable_of_iff (g.calleesOf l).isEmpty List.isEmpty_iff
  | n + 1 => fun l =>
      have := Shallow.decidable g n
      inferInstanceAs (Decidable (∀ e ∈ g.calleesOf l, ReadsAs (g.Shallow n) (CommonEvent.listOf e)))

/-- Whether a common event reaches itself can be decided. -/
instance (g : Game) : Decidable g.Acyclic :=
  decidable_of_iff (∀ e ∈ g.database.commonEntries,
      ReadsAs (g.Shallow g.database.commonEntries.length) (CommonEvent.listOf e))
    ⟨acyclic_of_shallow, fun h _ _ l _ => h.shallow l⟩

end Game

end EventLayer
