/-
**One entry per entry, and none per transfer.**

What a host does with a game is watched, one step after another, in any order: steps and routes of the player,
transfers, frames, runs of command lists, and whatever else, also where it fails.  A region is entered only
while an arrival on a tile of it is looked into, and only where the look before saw another region.  Between
two entries into a region another one was therefore looked at, unless there was a transfer; and a transfer
into a region counts as a look at it, also for a step that was made before the transfer and is looked into
after it.

Main definitions:

* `Session.Watches` — what a host does, with what is noted;
* `Watched.Trace` — the notes of one step after another, with the regions recorded before and after them;
* `Watched.EntersOnce` — notes that tell of one entry per entry;
* `Sighting.Looks`, `Watched.LooksLast` — looks at the player's region, and which region the last one saw.

Main results:

* `Watched.Trace.looksLast` — **what is recorded is what the last look saw**;
* `Watched.Trace.enters` — **a region is entered after an arrival, and after a look at another region**;
* `Session.Watches.enters_once` — **one entry per entry, and none per transfer**.
-/
import EventLayer.Proofs.Regions.Watching

set_option autoImplicit false
set_option relaxedAutoImplicit false

namespace EventLayer

/-- A look at the player's region, or the end of a transfer, which looks at it too. -/
def Sighting.Looks (x : Sighting) : Prop := x.occasion = .checked ∨ x.occasion = .transferred

namespace Watched

variable {r q p : Int} {l m before after : List Sighting} {c : Session}

/-- Notes that tell of one entry per entry, and of none per transfer. -/
structure EntersOnce (l : List Sighting) : Prop where
  /-- A region is entered only while an arrival on a tile of it is looked into. -/
  arriving : ∀ before r c after, l = before ++ ⟨.entered r, c⟩ :: after →
    ∃ k a, before = k ++ [⟨.arrived, a⟩, ⟨.checked, c⟩] ∧ a.StandsIn r ∧ c.StandsIn r
  /-- Between two entries into a region without a transfer another region is looked at. -/
  again : ∀ before r c between c' after,
    l = before ++ ⟨.entered r, c⟩ :: (between ++ ⟨.entered r, c'⟩ :: after) →
      (∀ x ∈ between, x.occasion ≠ .transferred) →
        ∃ x ∈ between, x.occasion = .checked ∧ ∃ q, x.session.StandsIn q ∧ q ≠ r
  /-- Between a transfer into a region and an entry into it there is another transfer, or another region is
  looked at. -/
  transferred : ∀ before r c between c' after,
    l = before ++ ⟨.transferred, c⟩ :: (between ++ ⟨.entered r, c'⟩ :: after) → c.StandsIn r →
      ∃ x ∈ between, x.occasion = .transferred ∨
        (x.occasion = .checked ∧ ∃ q, x.session.StandsIn q ∧ q ≠ r)

/-! ### The last look -/

/-- The last look in a list of notes saw a region; if there is none, it is the one before. -/
def LooksLast (r : Int) (l : List Sighting) (q : Int) : Prop :=
  (q = r ∧ ∀ x ∈ l, ¬x.Looks) ∨
    ∃ before x after, l = before ++ x :: after ∧ x.Looks ∧ x.session.StandsIn q ∧ ∀ y ∈ after, ¬y.Looks

theorem LooksLast.append (h : LooksLast r l q) (h' : LooksLast q m p) : LooksLast r (l ++ m) p := by
  rcases h' with ⟨rfl, hm⟩ | ⟨before, x, after, rfl, hx, hstands, hafter⟩
  · rcases h with ⟨rfl, hl⟩ | ⟨before, x, after, rfl, hx, hstands, hafter⟩
    · exact Or.inl ⟨rfl, List.forall_mem_append.2 ⟨hl, hm⟩⟩
    · refine Or.inr ⟨before, x, after ++ m, ?_, hx, hstands, List.forall_mem_append.2 ⟨hafter, hm⟩⟩
      rw [List.append_assoc, List.cons_append]
  · exact Or.inr ⟨l ++ before, x, after, (List.append_assoc ..).symm, hx, hstands, hafter⟩

/-- A step records what its last look saw. -/
theorem Marks.looksLast (h : Marks r m q) : LooksLast r m q := by
  have hnone : ∀ y ∈ ([] : List Sighting), ¬y.Looks := List.forall_mem_nil _
  cases h with
  | nothing => exact Or.inl ⟨rfl, hnone⟩
  | arrived a => exact Or.inl ⟨rfl, List.forall_mem_singleton.2 (by simp [Sighting.Looks])⟩
  | stayed ha hc => exact Or.inr ⟨_, _, [], (List.singleton_append ..).symm, Or.inl rfl, hc, hnone⟩
  | entered hnew ha hc =>
      refine Or.inr ⟨_, _, [⟨.entered q, _⟩], (List.singleton_append ..).symm, Or.inl rfl, hc, ?_⟩
      exact List.forall_mem_singleton.2 (by simp [Sighting.Looks])
  | checked hc => exact Or.inr ⟨[], _, [], rfl, Or.inl rfl, hc, hnone⟩
  | transferred hc => exact Or.inr ⟨[], _, [], rfl, Or.inr rfl, hc, hnone⟩

/-- A step in which a region is entered has looked into an arrival on a tile of it, and at nothing else. -/
theorem Marks.enters (h : Marks r m q) (hm : m = before ++ ⟨.entered p, c⟩ :: after) :
    ∃ a, before = [⟨.arrived, a⟩, ⟨.checked, c⟩] ∧ r ≠ p ∧ a.StandsIn p ∧ c.StandsIn p := by
  have hmem : (⟨.entered p, c⟩ : Sighting) ∈ m := by
    rw [hm]
    exact List.mem_append_right _ List.mem_cons_self
  cases h with
  | nothing => cases hmem
  | arrived | stayed | checked | transferred => simp at hmem
  | entered hnew ha hc =>
      rcases before with - | ⟨first, - | ⟨second, - | ⟨third, rest⟩⟩⟩
      · cases hm
      · cases hm
      · cases hm
        exact ⟨_, rfl, hnew.symm, ha, hc⟩
      · simp at hm

/-- The notes of one step after another, with the regions that are recorded before and after them. -/
inductive Trace (r : Int) : List Sighting → Int → Prop
  | nil : Trace r [] r
  | snoc {l m : List Sighting} {q p : Int} (h : Trace r l q) (hstep : Marks q m p) : Trace r (l ++ m) p

/-- **What is recorded is what the last look saw.** -/
theorem Trace.looksLast (h : Trace r l q) : LooksLast r l q := by
  induction h with
  | nil => exact Or.inl ⟨rfl, List.forall_mem_nil _⟩
  | snoc _ hstep ih => exact ih.append hstep.looksLast

/-- **A region is entered after an arrival on a tile of it, and after a look at another region.** -/
theorem Trace.enters (h : Trace r l q) (hl : l = before ++ ⟨.entered p, c⟩ :: after) :
    ∃ k a p', before = k ++ [⟨.arrived, a⟩, ⟨.checked, c⟩] ∧ Trace r k p' ∧ p' ≠ p ∧
      a.StandsIn p ∧ c.StandsIn p := by
  induction h generalizing after with
  | nil => exact absurd hl (by simp)
  | snoc h hstep ih =>
      rcases List.append_eq_append_iff.1 hl with ⟨within, rfl, hwithin⟩ | ⟨within, rfl, hwithin⟩
      · obtain ⟨a, rfl, hnew, ha, hc⟩ := hstep.enters hwithin
        exact ⟨_, a, _, rfl, h, hnew, ha, hc⟩
      · rcases List.cons_eq_append_iff.1 hwithin with ⟨rfl, hm⟩ | ⟨rest, rfl, -⟩
        · rw [← List.nil_append (⟨.entered p, c⟩ :: after)] at hm
          obtain ⟨a, hbefore, -⟩ := hstep.enters hm
          cases hbefore
        · exact ih rfl

/-- Of two members of a list one comes behind the other, unless they are the same. -/
theorem same_or_behind {x y : Sighting} {between first rest : List Sighting}
    (h : before ++ x :: between = first ++ y :: rest) : x = y ∨ x ∈ rest ∨ y ∈ between := by
  rcases List.append_eq_append_iff.1 h with ⟨within, -, hwithin⟩ | ⟨within, -, hwithin⟩
  · rcases List.cons_eq_append_iff.1 hwithin with ⟨-, hsame⟩ | ⟨others, -, hothers⟩
    · exact Or.inl (List.cons.inj hsame).1.symm
    · refine Or.inr (Or.inr ?_)
      rw [hothers]
      exact List.mem_append_right _ List.mem_cons_self
  · rcases List.cons_eq_append_iff.1 hwithin with ⟨-, hsame⟩ | ⟨others, -, hothers⟩
    · exact Or.inl (List.cons.inj hsame).1
    · refine Or.inr (Or.inl ?_)
      rw [hothers]
      exact List.mem_append_right _ List.mem_cons_self

/-- Between a look at a region and the time when another one is recorded lies a look at that one. -/
theorem Trace.looksBetween {x : Sighting} {between : List Sighting} (h : Trace r (before ++ x :: between) q)
    (hx : x.Looks) (hstands : x.session.StandsIn p) (hother : q ≠ p) :
    ∃ y ∈ between, y.Looks ∧ y.session.StandsIn q := by
  rcases h.looksLast with ⟨-, hnone⟩ | ⟨first, y, rest, hsplit, hy, hq, hrest⟩
  · exact absurd hx (hnone x (List.mem_append_right _ List.mem_cons_self))
  rcases same_or_behind hsplit with rfl | hbehind | hbehind
  · exact absurd (hq.unique hstands) hother
  · exact absurd hx (hrest x hbehind)
  · exact ⟨y, hbehind, hy, hq⟩

/-- After something that is no part of an arrival, an arrival is noted as a whole. -/
theorem split_arrival {x a b : Sighting} {k between : List Sighting} (hxa : x.occasion ≠ a.occasion)
    (hxb : x.occasion ≠ b.occasion) (h : before ++ x :: between = k ++ [a, b]) :
    ∃ rest, between = rest ++ [a, b] ∧ k = before ++ x :: rest := by
  rcases List.append_eq_append_iff.1 h with ⟨within, hk, hwithin⟩ | ⟨within, -, hwithin⟩
  · rcases List.cons_eq_append_iff.1 hwithin with ⟨-, hsame⟩ | ⟨rest, rfl, hrest⟩
    · cases hsame
      exact absurd rfl hxa
    · exact ⟨rest, hrest, hk⟩
  · rcases within with - | ⟨first, - | ⟨second, others⟩⟩
    · cases hwithin
      exact absurd rfl hxa
    · cases hwithin
      exact absurd rfl hxb
    · simp at hwithin

end Watched

namespace Session

open Watched

/-- What a host does, one thing after another, with what is noted meanwhile. -/
inductive Watches (s : Session) : List Sighting → Session → Prop
  | nil : Watches s [] s
  | snoc {α : Type} {l : List Sighting} {t : Session} {act : Play α} {w : Watched α}
      (h : Watches s l t) (hact : Hosts act w) : Watches s (w.after (t, l)).2 (act.after t)

variable {s t : Session} {l : List Sighting}

/-- The session that is left is the one that the watched operation leaves. -/
theorem Watches.next {α : Type} {act : Play α} {w : Watched α} {p : Session × List Sighting}
    (h : s.Watches p.2 p.1) (hact : Hosts act w) : s.Watches (w.after p).2 (w.after p).1 := by
  rw [hact.shows.after_fst]
  exact h.snoc hact

theorem Watches.trace (h : s.Watches l t) : Trace s.player.lastRegion l t.player.lastRegion := by
  induction h with
  | nil => exact .nil
  | @snoc α l t act w h hact ih =>
      obtain ⟨u, m, hafter, hmarks⟩ := hact.isStep t l
      have hsession : act.after t = u := by rw [← hact.shows.after_fst (t, l), hafter]
      rw [hafter, hsession]
      exact ih.snoc hmarks

/-- **One entry per entry, and none per transfer**, whatever a host does, and in whatever order. -/
theorem Watches.enters_once (h : s.Watches l t) : EntersOnce l := by
  have htrace := h.trace
  refine ⟨fun before r c after hl => ?_, fun before r c between c' after hl hnone => ?_,
    fun before r c between c' after hl hstands => ?_⟩
  · obtain ⟨k, a, -, hbefore, -, -, ha, hc⟩ := htrace.enters hl
    exact ⟨k, a, hbefore, ha, hc⟩
  · obtain ⟨k, a, -, rfl, -, -, -, hc⟩ := htrace.enters hl
    rw [← List.cons_append, ← List.append_assoc] at hl
    obtain ⟨k', a', q, hsplit, hk', hother, -⟩ := htrace.enters hl
    obtain ⟨rest, rfl, rfl⟩ := split_arrival (by simp) (by simp) hsplit
    -- the first entry follows a look at the region, and takes none itself
    have hlooked : k ++ [⟨.arrived, a⟩, ⟨.checked, c⟩] ++ ⟨.entered r, c⟩ :: rest =
        (k ++ [⟨.arrived, a⟩]) ++ ⟨.checked, c⟩ :: ⟨.entered r, c⟩ :: rest := by simp
    rw [hlooked] at hk'
    obtain ⟨x, hx, hlooks, hq⟩ := hk'.looksBetween (Or.inl rfl) hc hother
    have hrest : x ∈ rest := by
      rcases List.mem_cons.1 hx with rfl | hrest
      · simp [Sighting.Looks] at hlooks
      · exact hrest
    have hmem := List.mem_append_left [⟨.arrived, a'⟩, ⟨.checked, c'⟩] hrest
    exact ⟨x, hmem, hlooks.resolve_right (hnone x hmem), q, hq, hother⟩
  · rw [← List.cons_append, ← List.append_assoc] at hl
    obtain ⟨k, a, q, hsplit, hk, hother, -⟩ := htrace.enters hl
    obtain ⟨rest, rfl, rfl⟩ := split_arrival (by simp) (by simp) hsplit
    obtain ⟨x, hx, hlooks, hq⟩ := hk.looksBetween (Or.inr rfl) hstands hother
    refine ⟨x, List.mem_append_left _ hx, ?_⟩
    rcases hlooks with hchecked | htransferred
    · exact Or.inr ⟨hchecked, q, hq, hother⟩
    · exact Or.inl htransferred

/-! ### A stroll along a strip -/

/-- A game with a map of three tiles in a row, of which the last two lie in region seven. -/
def stripGame : Game where
  mapFile := fun _ =>
    .ok (some (.obj [("width", 3), ("height", 1),
      ("data", .arr [0, 0, 0, 0, 0, 0, 0, 0, 0, 0, 0, 0, 0, 0, 0, 0, 7, 7]), ("events", .arr [])]))

/-- The game on its map, with the player on the first tile. -/
def onStrip : Session := (Play.setupMap 1).after (Session.begin stripGame {})

/-- A step of the player to the right. -/
def stepRight : Play Bool := liftM (Act.moveStraight .player Direction.right)

/-- A step looks at no region: it puts the player on another tile. -/
theorem not_looksAtRegion_stepRight : ¬Play.LooksAtRegion stepRight := by
  have hcases : ∀ {α : Type} {act : Play α}, Play.LooksAtRegion act →
      α = Unit ∨ HEq act Play.regionChanged := by
    intro α act h
    cases h with
    | regionChanged => exact Or.inr HEq.rfl
    | advance | advancePlayer | transfer | newGame | load | enterRegion => exact Or.inl rfl
  intro h
  rcases hcases h with htype | hsame
  · have hone : ∀ a b : Bool, a = b := htype ▸ fun _ _ => rfl
    exact Bool.false_ne_true (hone _ _)
  · have hleft : (stepRight.after onStrip).player.body.x = (Play.regionChanged.after onStrip).player.body.x := by
      rw [eq_of_heq hsame]
    revert hleft
    decide +kernel

/-- The player steps into the region, where it is entered; takes another step, and is transferred within the
region before this is looked into. -/
def strolled : Session × List Sighting :=
  let p := advancePlayer.after ((play stepRight).after (onStrip, []))
  advancePlayer.after ((transfer 1 ⟨1, 0⟩ 0).after ((play stepRight).after p))

theorem watches_strolled : onStrip.Watches strolled.2 strolled.1 := by
  have hstep : Hosts stepRight (play stepRight) :=
    .other (.moveStraight .player Direction.right) not_looksAtRegion_stepRight
  have harrived : onStrip.Watches _ _ := (Watches.next (p := (onStrip, [])) .nil hstep).next .advancePlayer
  exact ((harrived.next hstep).next (.transfer 1 ⟨1, 0⟩ 0)).next .advancePlayer

/-- The region is entered once. -/
theorem enters_once_strolled : strolled.2.map (·.occasion) =
    [.arrived, .checked, .entered 7, .transferred, .arrived, .checked] ∧ EntersOnce strolled.2 :=
  ⟨by decide +kernel, watches_strolled.enters_once⟩

end Session

end EventLayer
