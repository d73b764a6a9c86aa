/-
**Passes through a route.**

A pass goes through a route frame by frame, and in between something else may happen that leaves the
course of the character alone.  What a frame does is determined: of two ways from the same place one
begins with the other, up to where no line is passed.  A pass that is under way has a next frame.

Main definitions:

* `Leg` — a pass through a route so far: the session, the commands taken, and how far it has come;
* `Leg.Frame`, `Leg.Aside` — one frame of a pass, and what happens between two frames.

Main results:

* `Play.Halts.of_move`, `Play.Halts.of_script`, `Play.Halts.of_end` — how a frame ends where its lines stop;
* `Play.Strides.continues` — **the way of a frame is determined**;
* `Leg.exists_frame` — a pass that is under way has a next frame.
-/
import EventLayer.Proofs.Route.Abreast

set_option autoImplicit false
set_option relaxedAutoImplicit false

namespace EventLayer

open Play Session

/-! ### Passes -/

/-- How far a pass through a route has come. -/
inductive Progress where
  | underway
  | ended
  | failed (e : Fault)
deriving DecidableEq

/-- A pass through a route so far. -/
structure Leg where
  session : Session
  /-- The positions of the commands taken, markers left out. -/
  taken : List Nat := []
  progress : Progress := .underway

namespace Play

/-- Where the lines of a frame stop, with the outcome of the frame: at a step, at the end of the
route, or at a fault. -/
inductive Halts (who : CharacterId) (r : Route) (s : Session) :
    EStateM.Result Fault Session Unit → Progress → Prop
  | step {result : EStateM.Result Fault Session Unit} (h : TakesStep who r s result) :
      Halts who r s result .underway
  | ended {result : EStateM.Result Fault Session Unit} (h : r.EndsAt (place who s)) :
      Halts who r s result .ended
  | failed {e : Fault} {t : Session} (h : Raises who r s (.error e t)) :
      Halts who r s (.error e t) (.failed e)

end Play

/-- One frame of a pass: the character waits, or passes lines up to where the frame stops. -/
inductive Leg.Frame (who : CharacterId) (r : Route) : Leg → Leg → Prop
  | wait {s : Session} {l : List Nat} (h : 0 < (s.character who).waitCount) :
      Frame who r ⟨s, l, .underway⟩ ⟨(walk who).after s, l, .underway⟩
  | go {s u : Session} {l : List Nat} {way : List Visit} {p : Progress}
      (h : (s.character who).waitCount = 0) (strides : Strides who r s way u) (once : .again ∉ way)
      (halts : Halts who r u (walk who s) p) :
      Frame who r ⟨s, l, .underway⟩
        ⟨(walk who).after s, l ++ (r.taken way ++ [place who u].filter r.takes), p⟩

/-- What happens between two frames leaves the course of the character alone. -/
inductive Leg.Aside (who : CharacterId) : Leg → Leg → Prop
  | mk {s t : Session} (l : List Nat) (h : t.course? who = s.course? who) :
      Aside who ⟨s, l, .underway⟩ ⟨t, l, .underway⟩

/-! ### The way of a frame is determined -/

namespace Play

variable {who : CharacterId} {r : Route} {s u u' : Session} {l l' : List Visit}

/-- No line is passed from here. -/
def Halted (who : CharacterId) (r : Route) (s : Session) : Prop :=
  ∀ (line : RouteInstruction) (next : Nat) (t : Session), r.steps[place who s]? = some (.script line) →
    runLine who r (place who s) line s ≠ .ok next t

section Halts

variable {result : EStateM.Result Fault Session Unit} {p : Progress}

/-- At a step a frame takes it. -/
theorem Halts.of_move {m : Move} (h : Halts who r s result p)
    (hline : r.steps[place who s]? = some (.move m)) :
    (∃ t, takeStep who m s = .ok () t ∧ p = .underway ∧ result = .ok ()
      (if (t.character who).moveSucceeded || r.skippable
        then t.updateCharacter who fun c => { c with routeIndex := c.routeIndex + 1 } else t)) ∨
      ∃ e t, takeStep who m s = .error e t ∧ p = .failed e := by
  cases h with
  | step h =>
      cases h with
      | step hline' run =>
          rw [hline] at hline'
          cases hline'
          exact .inl ⟨_, run, rfl, rfl⟩
  | ended h => rcases h with h | h <;> rw [hline] at h <;> cases h
  | failed h =>
      cases h with
      | line hline' _ => rw [hline] at hline'; cases hline'
      | step hline' run =>
          rw [hline] at hline'
          cases hline'
          exact .inr ⟨_, _, run, rfl⟩

/-- At a script line a frame stops for a fault. -/
theorem Halts.of_script {line : RouteInstruction} (h : Halts who r s result p)
    (hline : r.steps[place who s]? = some (.script line)) :
    ∃ e t, runLine who r (place who s) line s = .error e t ∧ p = .failed e := by
  cases h with
  | step h => cases h with | step hline' _ => rw [hline] at hline'; cases hline'
  | ended h => rcases h with h | h <;> rw [hline] at h <;> cases h
  | failed h =>
      cases h with
      | line hline' run =>
          rw [hline] at hline'
          cases hline'
          exact ⟨_, _, run, rfl⟩
      | step hline' _ => rw [hline] at hline'; cases hline'

/-- At the end of the route a pass is over. -/
theorem Halts.of_end (h : Halts who r s result p) (hend : r.EndsAt (place who s)) : p = .ended := by
  cases h with
  | step h => cases h with | step hline _ => rcases hend with he | he <;> rw [he] at hline <;> cases hline
  | ended h => rfl
  | failed h =>
      cases h <;> rename_i hline _ <;> rcases hend with he | he <;> rw [he] at hline <;> cases hline

theorem Halts.halted (h : Halts who r s result p) : Halted who r s := by
  intro line next t hline hrun
  obtain ⟨e, t', herror, -⟩ := h.of_script hline
  rw [hrun] at herror
  cases herror

end Halts

/-- Where no line is passed a way is at its end, unless the route starts over. -/
theorem Strides.eq_nil (h : Strides who r s l u) (once : .again ∉ l) (hs : Halted who r s) :
    l = [] ∧ u = s := by
  cases h with
  | here _ => exact ⟨rfl, rfl⟩
  | line hline run rest => exact absurd run (hs _ _ _ hline)
  | again hend hrep rest => exact absurd List.mem_cons_self once

/-- A way begins with every other way from the same place, up to where no line is passed. -/
theorem Strides.continues (h : Strides who r s l u) (h' : Strides who r s l' u') (once : .again ∉ l)
    (once' : .again ∉ l') (hu : Halted who r u') :
    ∃ more, l' = l ++ more ∧ Strides who r u more u' := by
  induction h generalizing l' with
  | here s => exact ⟨l', rfl, h'⟩
  | line hline run rest ih =>
      cases h' with
      | here _ => exact absurd run (hu _ _ _ hline)
      | line hline' run' rest' =>
          rw [hline] at hline'
          cases hline'
          rw [run] at run'
          cases run'
          obtain ⟨more, rfl, hmore⟩ := ih rest' (fun hin => once (List.mem_cons_of_mem _ hin))
            fun hin => once' (List.mem_cons_of_mem _ hin)
          exact ⟨more, rfl, hmore⟩
      | again hend hrep rest' => exact absurd List.mem_cons_self once'
  | again hend hrep rest ih => exact absurd List.mem_cons_self once

/-- The commands taken on a way stand from where it begins on. -/
theorem Strides.place_le (hr : r.Paired) (h : Strides who r s l u) (hs : On who r s)
    (once : .again ∉ l) : (∀ i ∈ r.taken l, place who s ≤ i) ∧ place who s ≤ place who u := by
  induction h with
  | here s => exact ⟨nofun, le_rfl⟩
  | line hline run rest ih =>
      obtain ⟨c, hc⟩ := hs
      obtain ⟨hon, hplace⟩ := hc.line run
      obtain ⟨hall, hend⟩ := ih ⟨c, hon⟩ fun hin => once (List.mem_cons_of_mem _ hin)
      have hforward := (runLine_forward hr hline run).1
      rw [hplace] at hall hend
      refine ⟨fun i hi => ?_, by omega⟩
      rw [Route.taken_cons_line] at hi
      split at hi
      · rcases List.mem_cons.1 hi with rfl | hi
        · exact le_rfl
        · exact hforward.le.trans (hall i hi)
      · exact hforward.le.trans (hall i hi)
  | again hend hrep rest ih => exact absurd List.mem_cons_self once

/-- A way that stays on the route. -/
theorem Strides.on (h : Strides who r s l u) (hs : On who r s) : On who r u := by
  obtain ⟨c, hc⟩ := hs
  exact ⟨c, h.standsOn hc⟩

/-! ### Every pass has a next frame -/

/-- A way that passes the end of a route has a first part up to it. -/
theorem Strides.exists_once (h : Strides who r s l u) :
    (.again ∉ l) ∨ ∃ way t, Strides who r s way t ∧ .again ∉ way ∧ r.EndsAt (place who t) := by
  by_cases hagain : .again ∈ l
  · obtain ⟨way, more, rfl, honce⟩ := List.eq_append_cons_of_mem hagain
    obtain ⟨t, hway, hmore⟩ := h.split
    cases hmore with
    | again hend _ _ => exact .inr ⟨way, t, hway, honce, hend⟩
  · exact .inl hagain

theorem Raises.halts {result : EStateM.Result Fault Session Unit} (h : Raises who r s result) :
    ∃ e, Halts who r s result (.failed e) := by
  cases h with
  | line hline run => exact ⟨_, .failed (.line hline run)⟩
  | step hline run => exact ⟨_, .failed (.step hline run)⟩

theorem EndsRoute.endsAt {result : EStateM.Result Fault Session Unit} (h : EndsRoute who r s result) :
    r.EndsAt (place who s) := by
  cases h with
  | ended hrep hend => exact hend.imp And.left And.left

end Play

/-- **A pass that is under way has a next frame.** -/
theorem Leg.exists_frame {who : CharacterId} {r : Route} (hr : r.Paired) {s : Session} (l : List Nat)
    (hs : On who r s) (hin : place who s ≤ r.length) :
    ∃ b, Leg.Frame who r ⟨s, l, .underway⟩ b := by
  by_cases hwait : 0 < (s.character who).waitCount
  · exact ⟨_, .wait hwait⟩
  · obtain ⟨c, hc⟩ := hs
    have hzero : (s.character who).waitCount = 0 := by omega
    obtain ⟨way, u, hway, hstop⟩ := walkLines_strides (r.length + 1) hc
    have hwalk : walk who s = walkLines who r (r.length + 1) s := by
      rw [walk_apply, if_neg hwait, activeRoute_standsOn hc]
    rw [← hwalk] at hstop
    rcases hway.exists_once with honce | ⟨way', t, hway', honce, hend⟩
    · rcases hstop with ⟨hlength, -⟩ | hraise | hstep | hover
      · obtain ⟨a, b, rfl, -⟩ := hway.comesRound hr hc hin hlength
        exact absurd (List.mem_append_right _ List.mem_cons_self) honce
      · obtain ⟨e, hhalts⟩ := hraise.halts
        exact ⟨_, .go hzero hway honce hhalts⟩
      · exact ⟨_, .go hzero hway honce (.step hstep)⟩
      · exact ⟨_, .go hzero hway honce (.ended hover.endsAt)⟩
    · exact ⟨_, .go hzero hway' honce (.ended hend)⟩

end EventLayer
