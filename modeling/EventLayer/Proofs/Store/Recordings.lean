/-
**What was recorded last for exactly one event.**

Origins are kept under a text in which the numbers of the map and of the event stand side by side.  A
number is written without a blank, so that no two events share a text: a recording changes what is read
for its own event and nothing else.  Saving the origins and loading them again gives the same origins,
wherever that happens between two recordings.

Main definitions:

* `OriginStep` — a recording, or a trip through a save;
* `Origins.perform`, `OriginStep.lastPoint?` — what such steps come to, and the point recorded last.

Main results:

* `Origins.key_eq_iff` — **no two events share a text**;
* `Origins.read_saved` — a trip through a save succeeds and changes nothing;
* `Origins.origin?_performAll` — **what is read for an event after any steps**.
-/
import EventLayer.Proofs.Saving.Numeral
import EventLayer.Proofs.Saving.Stores
import Mathlib.Data.List.Basic

set_option autoImplicit false
set_option relaxedAutoImplicit false

namespace EventLayer

/-- What happens to the recorded origins: a recording, or a trip through a save. -/
inductive OriginStep where
  | record (map event : Int) (p : Point)
  | reload

namespace OriginStep

/-- The point that a step records for an event of a map, if it records one. -/
def point? (map event : Int) : OriginStep → Option Point
  | .record map' event' p => if map' = map ∧ event' = event then some p else none
  | .reload => none

/-- The point that was recorded last for an event of a map. -/
def lastPoint? (map event : Int) (steps : List OriginStep) : Option Point :=
  steps.reverse.findSome? (point? map event)

theorem lastPoint?_cons (map event : Int) (step : OriginStep) (steps : List OriginStep) :
    lastPoint? map event (step :: steps) =
      (lastPoint? map event steps).or (step.point? map event) := by
  simp [lastPoint?, List.findSome?_append]

end OriginStep

namespace Origins

variable {o u : Origins} {map event map' event' : Int} {p : Point}

/-! ### One recording -/

/-- **No two events share a text.** -/
theorem key_eq_iff : key map event = key map' event' ↔ map = map' ∧ event = event' := by
  constructor
  · intro h
    have hchars := congrArg String.toList h
    simp only [key, String.toList_append, List.append_assoc] at hchars
    -- the first blank parts the two numbers
    have hparts := (List.append_cons_inj_of_notMem (Text.blank_notMem_toString map)
      (Text.blank_notMem_toString event)).mp hchars
    have hmap := Text.toString_injective (String.toList_inj.mp hparts.1)
    have hevent := Text.toString_injective (String.toList_inj.mp hparts.2.2)
    exact ⟨hmap, hevent⟩
  · rintro ⟨rfl, rfl⟩
    rfl

/-- A recording is read for its own event, and every other event keeps its origin. -/
theorem origin?_record (o : Origins) (map event : Int) (p : Point) :
    (o.record map event p).origin? map' event' =
      if map = map' ∧ event = event' then some p else o.origin? map' event' := by
  rw [origin?, record, OrderedMap.get?_insert]
  by_cases h : map = map' ∧ event = event'
  · rw [if_pos h, key_eq_iff.mpr h]
    simp
  · have hkey : key map event ≠ key map' event' := fun hkey => h (key_eq_iff.mp hkey)
    rw [if_neg h, if_neg (by simpa using hkey)]
    rfl

/-! ### Trips through a save -/

theorem foldlM_readEntry (entries : List (String × Point)) (o : Origins) :
    (entries.map fun e => (e.1, Json.obj [("x", .int e.2.x), ("y", .int e.2.y)])).foldlM readEntry o =
      .ok (entries.foldl (fun o e => ⟨o.points.insert e.1 e.2⟩) o) := by
  induction entries generalizing o with
  | nil => rfl
  | cons e rest ih =>
      rw [List.map_cons, List.foldlM_cons, List.foldl_cons, ← ih]
      rfl

/-- A trip through a save succeeds and changes nothing. -/
theorem read_saved (hd : o.points.Distinct) : read o.toJson = .ok o := by
  have hread : ∃ u, read o.toJson = .ok u := by
    rw [read, toJson, Json.orElse_obj]
    exact ⟨_, foldlM_readEntry o.points.entries {}⟩
  obtain ⟨u, hu⟩ := hread
  rw [hu, read_toJson hd hu]

/-! ### Any number of steps -/

/-- What a step makes of the recorded origins. -/
def perform (o : Origins) : OriginStep → Except Fault Origins
  | .record map event p => .ok (o.record map event p)
  | .reload => read o.toJson

/-- What several steps make of the recorded origins. -/
def performAll (o : Origins) (steps : List OriginStep) : Except Fault Origins :=
  steps.foldlM perform o

/-- A step succeeds, and is read for the event it records. -/
theorem exists_perform (hd : o.points.Distinct) (step : OriginStep) :
    ∃ u, o.perform step = .ok u ∧ u.points.Distinct ∧
      ∀ map event, u.origin? map event = (step.point? map event).or (o.origin? map event) := by
  cases step with
  | record map event p =>
      refine ⟨_, rfl, hd.insert _ _, fun map' event' => ?_⟩
      rw [origin?_record, OriginStep.point?]
      split <;> rfl
  | reload => exact ⟨o, read_saved hd, hd, fun _ _ => rfl⟩

/-- **What is read for an event after any steps**: the point that they recorded last for exactly this
event, or else what was read before. -/
theorem origin?_performAll (hd : o.points.Distinct) (steps : List OriginStep) :
    ∃ u, o.performAll steps = .ok u ∧ u.points.Distinct ∧ ∀ map event,
      u.origin? map event = (OriginStep.lastPoint? map event steps).or (o.origin? map event) := by
  induction steps generalizing o with
  | nil => exact ⟨o, rfl, hd, fun _ _ => rfl⟩
  | cons step rest ih =>
      obtain ⟨t, ht, htd, hpoint⟩ := exists_perform hd step
      obtain ⟨u, hu, hud, hlast⟩ := ih htd
      refine ⟨u, ?_, hud, fun map event => ?_⟩
      · rw [performAll, List.foldlM_cons, ht]
        exact hu
      · rw [hlast, hpoint, OriginStep.lastPoint?_cons, Option.or_assoc]

end Origins

end EventLayer
