/-
**What a new origin is measured from.**

A location that is relative to an event is measured from the event that a list acts for, if that event
stands on the current map.  An event of another map stands nowhere here: instead of the origin that is
recorded for it, or its tile in the file of its map, the running event is measured from.  What is recorded
then is right only if it happens to name the same tile.

Main definitions:

* `Location.seenFrom` — the tile that a location names, measured from a pose;
* `Session.IsHere`, `Session.OwnPose` — an event of the current map, and where an event itself is;
* `Session.runnerPose?` — where the event is that a list runs for.

Main results:

* `Play.setOrigin_of_reference` — **what is recorded**, for a location relative to an event;
* `Session.OwnPose.seenFrom_eq` — what is measured from an event of another map;
* `Session.links_elsewhere` — the running event is measured from only under a link to another map;
* `Play.setOrigin_measures_own_iff` — **when a new origin is measured from the addressed event**.
-/
import EventLayer.Proofs.Map.Spawning

set_option autoImplicit false
set_option relaxedAutoImplicit false

namespace EventLayer

/-! ### Relative locations -/

namespace Location

variable {spec : Location}

/-- The tile that a location names, measured from a pose. -/
def seenFrom (spec : Location) (pose : Pose) : Point :=
  Point.shift ⟨pose.x + spec.x, pose.y + spec.y⟩ pose.direction spec.forward spec.rightward

/-- Nothing lies ahead or to the right of what faces nowhere. -/
theorem seenFrom_of_unfacing (spec : Location) (x y : Int) :
    spec.seenFrom ⟨x, y, 0⟩ = ⟨x + spec.x, y + spec.y⟩ := by
  have hstill : Direction.offset 0 = ⟨0, 0⟩ := rfl
  have hright : Direction.rightOf 0 = 0 := rfl
  simp [seenFrom, Point.shift, hright, hstill]

theorem resolve_some (h : spec.relativity = .event) (pose : Pose) (player : Option Pose) :
    spec.resolve (some pose) player = pure (some (spec.seenFrom pose)) := by
  rw [resolve, h]
  rfl

theorem resolve_none (h : spec.relativity = .event) (player : Option Pose) :
    spec.resolve none player = ⟨[.referenceMissing], .ok none⟩ := by
  rw [resolve, h]
  rfl

end Location

/-! ### Where an event is -/

namespace Session

variable {s : Session} {scope : Scope} {map : Int} {d : Nat}

/-- An event that stands on the current map. -/
def IsHere (s : Session) (scope : Scope) : Prop :=
  scope.map.isInt s.map.id = true ∧ (s.event? scope.entity).isSome = true

/-- Where an event itself is: where it stands and what it faces on the current map; elsewhere the origin that
is recorded for it, or else its tile in the file of its map. -/
inductive OwnPose (s : Session) (scope : Scope) (map : Int) : Pose → Prop
  | live {e : MapEvent} : scope.map.isInt s.map.id = true → s.event? scope.entity = some e →
      OwnPose s scope map e.body.pose
  | recorded {p : Point} : ¬s.IsHere scope → s.stores.origins.origin? map scope.entity = some p →
      OwnPose s scope map ⟨p.x, p.y, 0⟩
  | filed {data : Json} {entries : List Json} {fields : List (String × Json)} {p : Point} :
      ¬s.IsHere scope → s.stores.origins.origin? map scope.entity = none →
      s.game.mapFile scope.map = .ok (some data) → data.eventEntries = .ok entries →
      .obj fields ∈ entries → Json.IsPlacedAt scope.entity p fields → OwnPose s scope map ⟨p.x, p.y, 0⟩

/-- Where the event is that a list runs for, if it is on the current map. -/
def runnerPose? (s : Session) (d : Nat) : Option Pose := (s.characterNamed d 0).bind s.poseOf

/-- Where an event of the current map stands and what it faces. -/
def herePose? (s : Session) (scope : Scope) : Option Pose :=
  if scope.map.isInt s.map.id then s.poseOf (.event scope.entity) else none

theorem herePose?_of_event? {e : MapEvent} (hmap : scope.map.isInt s.map.id = true)
    (he : s.event? scope.entity = some e) : s.herePose? scope = some e.body.pose := by
  rw [herePose?, if_pos hmap, poseOf, character?, he]
  rfl

theorem herePose?_eq_none_iff : s.herePose? scope = none ↔ ¬s.IsHere scope := by
  unfold herePose? IsHere poseOf character?
  split
  · next hmap => cases he : s.event? scope.entity <;> simp [hmap, he]
  · next hmap => simp [hmap]

/-- An event is where it stands, if it stands on the current map. -/
theorem OwnPose.eq_herePose? {own : Pose} (h : s.OwnPose scope map own) (hhere : s.IsHere scope) :
    s.herePose? scope = some own := by
  cases h with
  | live hmap he => exact herePose?_of_event? hmap he
  | recorded hnot => exact absurd hhere hnot
  | filed hnot => exact absurd hhere hnot

/-- An event that is not here faces nowhere: only the offset of a location counts. -/
theorem OwnPose.seenFrom_eq {own : Pose} (h : s.OwnPose scope map own) (hnot : ¬s.IsHere scope)
    (spec : Location) : spec.seenFrom own = ⟨own.x + spec.x, own.y + spec.y⟩ := by
  cases h with
  | live hmap he =>
      refine absurd ⟨hmap, ?_⟩ hnot
      rw [he]
      rfl
  | recorded | filed => exact spec.seenFrom_of_unfacing _ _

/-- **Only under a link to another map** is there a running event beside an addressed one that is not here. -/
theorem links_elsewhere (hnot : ¬s.IsHere (s.resolve d)) {pose : Pose} (h : s.runnerPose? d = some pose) :
    s.linkHolds (s.frame d).link = true ∧ (s.frame d).link.map.isInt s.map.id = false := by
  obtain ⟨who, hwho, -⟩ := Option.bind_eq_some_iff.1 h
  have hrunner : s.map.id = (s.frame d).map ∧ (s.event? (s.frame d).event).isSome = true := by
    unfold characterNamed at hwho
    dsimp only at hwho
    rw [if_neg (by decide), if_pos rfl] at hwho
    split at hwho
    · cases hwho
    · next hmap =>
        split at hwho
        · next hevent => exact ⟨not_not.1 hmap, hevent.2⟩
        · cases hwho
  by_cases hholds : s.linkHolds (s.frame d).link = true
  · refine ⟨hholds, ?_⟩
    by_contra hlocal
    rw [Bool.not_eq_false] at hlocal
    refine hnot ?_
    rw [resolve, resolveFrame, if_pos hholds]
    refine ⟨hlocal, ?_⟩
    simp only [linkHolds, isLocal, hlocal, Bool.and_true, Bool.and_eq_true, Bool.or_eq_true,
      Bool.not_eq_true', Option.any_eq_true] at hholds
    obtain ⟨hset, hunset | ⟨e, he, -⟩⟩ := hholds
    · rw [hset] at hunset
      cases hunset
    · rw [he]
      rfl
  · refine absurd ?_ hnot
    rw [resolve, resolveFrame, if_neg hholds]
    exact ⟨by rw [Json.isInt_int, hrunner.1]; exact beq_self_eq_true _, hrunner.2⟩

end Session

namespace Play

open Session

variable {s : Session} {d : Nat} {spec : Location} {map : Int}

/-- For an event, a location is measured from the addressed event, if it stands on the current map, or else
from the running one. -/
theorem setOrigin_apply (hentity : 0 < (s.resolve d).entity) (spec : Location) : setOrigin d spec s = (do
    if let some p ← spec.resolve ((s.herePose? (s.resolve d)).or (s.runnerPose? d)) (s.poseOf .player) then
      modify (recordOrigin (← (s.resolve d).map.toInt) (s.resolve d).entity p) : Play Unit) s := by
  rw [setOrigin, get_bind_apply]
  dsimp only
  rw [if_neg (Int.not_le.2 hentity)]
  rfl

/-- **What is recorded** for a location relative to an event: the tile that it names, measured from the event
that is there to be measured from. -/
theorem setOrigin_of_reference (hentity : 0 < (s.resolve d).entity) (hrelative : spec.relativity = .event)
    (hmap : (s.resolve d).map.toInt = .ok map) {pose : Pose}
    (hpose : (s.herePose? (s.resolve d)).or (s.runnerPose? d) = some pose) :
    setOrigin d spec s = .ok () (s.recordOrigin map (s.resolve d).entity (spec.seenFrom pose)) := by
  rw [setOrigin_apply hentity, hpose, Location.resolve_some hrelative, bind_of_ok (lift_pure_reading_apply _ s)]
  dsimp only
  rw [hmap]
  rfl

/-- Without an event to measure from there is a notice only. -/
theorem setOrigin_of_no_reference (hentity : 0 < (s.resolve d).entity) (hrelative : spec.relativity = .event)
    (hnone : (s.herePose? (s.resolve d)).or (s.runnerPose? d) = none) :
    setOrigin d spec s = .ok () { s with notices := s.notices ++ [.referenceMissing] } := by
  rw [setOrigin_apply hentity, hnone, Location.resolve_none hrelative, bind_of_ok (lift_reading_of_ok rfl s)]
  rfl

/-- What is recorded can be told from the session. -/
theorem recordOrigin_injective {id : Int} {p q : Point} (h : s.recordOrigin map id p = s.recordOrigin map id q) :
    p = q := by
  have horigin := congrArg (fun t : Session => t.stores.origins.origin? map id) h
  simpa [recordOrigin] using horigin

/-- **When a new origin is measured from the addressed event.**  For a location relative to an event, the
tile that is recorded is the one measured from the addressed event itself exactly if that event stands on the
current map, or if the tile is the same measured from the running event.  An addressed event that is not here
faces nowhere, and it is never measured from: either nothing is recorded, or the list is linked to another
map, and the running event, which is here, is measured from. -/
theorem setOrigin_measures_own_iff (hentity : 0 < (s.resolve d).entity) (hrelative : spec.relativity = .event)
    (hmap : (s.resolve d).map.toInt = .ok map) {own : Pose} (hown : s.OwnPose (s.resolve d) map own) :
    (setOrigin d spec s = .ok () (s.recordOrigin map (s.resolve d).entity (spec.seenFrom own)) ↔
      s.IsHere (s.resolve d) ∨ ∃ pose, s.runnerPose? d = some pose ∧ spec.seenFrom pose = spec.seenFrom own) ∧
    (¬s.IsHere (s.resolve d) → spec.seenFrom own = ⟨own.x + spec.x, own.y + spec.y⟩) ∧
    (¬s.IsHere (s.resolve d) → (s.runnerPose? d = none ∧
        setOrigin d spec s = .ok () { s with notices := s.notices ++ [.referenceMissing] }) ∨
      ∃ pose, s.runnerPose? d = some pose ∧
        setOrigin d spec s = .ok () (s.recordOrigin map (s.resolve d).entity (spec.seenFrom pose)) ∧
        s.linkHolds (s.frame d).link = true ∧ (s.frame d).link.map.isInt s.map.id = false) := by
  by_cases hhere : s.IsHere (s.resolve d)
  · have hset := setOrigin_of_reference hentity hrelative hmap
      (show _ = some own by rw [hown.eq_herePose? hhere, Option.some_or])
    exact ⟨iff_of_true hset (.inl hhere), fun hnot => absurd hhere hnot, fun hnot => absurd hhere hnot⟩
  · have hstill : spec.seenFrom own = ⟨own.x + spec.x, own.y + spec.y⟩ := hown.seenFrom_eq hhere spec
    have hreference : (s.herePose? (s.resolve d)).or (s.runnerPose? d) = s.runnerPose? d := by
      rw [herePose?_eq_none_iff.2 hhere, Option.none_or]
    cases hrunner : s.runnerPose? d with
    | none =>
        have hset := setOrigin_of_no_reference hentity hrelative (hreference.trans hrunner)
        refine ⟨iff_of_false ?_ ?_, fun _ => hstill, fun _ => .inl ⟨rfl, hset⟩⟩
        · intro hrecorded
          -- the notice that is left tells the two sessions apart
          have hnotices := congrArg Session.notices (EStateM.Result.ok.inj (hset.symm.trans hrecorded)).2
          simp [recordOrigin] at hnotices
        · rintro (h | ⟨pose, ⟨⟩, -⟩)
          exact hhere h
    | some pose =>
        have hset := setOrigin_of_reference hentity hrelative hmap (hreference.trans hrunner)
        refine ⟨?_, fun _ => hstill, fun _ => .inr ⟨pose, rfl, hset, links_elsewhere hhere hrunner⟩⟩
        constructor
        · intro hrecorded
          have hsame := (EStateM.Result.ok.inj (hset.symm.trans hrecorded)).2
          exact .inr ⟨pose, rfl, recordOrigin_injective hsame⟩
        · rintro (h | ⟨pose', ⟨⟩, hsame⟩)
          · exact absurd h hhere
          · rw [← hsame]
            exact hset

/-! ### Two links -/

/-- A game on whose second map event 5 stands at (7, 7). -/
def farEvent : Game where
  mapFile := fun v =>
    .ok (if v.isInt 2 then some (.obj [("events", .arr [.obj (placedFields 5 ⟨7, 7⟩)])]) else none)

/-- A session on the first map, where event 1 stands at (2, 2) and event 2 at (5, 5), with a list of event 1
that is linked to an event. -/
def linkedTo (map event : Int) : Session where
  game := farEvent
  map.id := 1
  map.events := ⟨[(1, { id := 1, map := 1, body := Character.locate {} ⟨2, 2⟩ }),
    (2, { id := 2, map := 1, body := Character.locate {} ⟨5, 5⟩ })]⟩
  interpreter.root := { map := 1, event := 1, link := { map := .int map, event } }

/-- The tile to the right of an event. -/
def besideEvent : Location where
  x := 1
  relativity := .event

/-- Under a link on the map the new origin lies beside the linked event. -/
theorem setOrigin_measures_own_local : 0 < ((linkedTo 1 2).resolve 0).entity ∧
    besideEvent.relativity = .event ∧ ((linkedTo 1 2).resolve 0).map.toInt = .ok 1 ∧
    (∃ own, (linkedTo 1 2).OwnPose ((linkedTo 1 2).resolve 0) 1 own) ∧
    setOrigin 0 besideEvent (linkedTo 1 2) = .ok () ((linkedTo 1 2).recordOrigin 1 2 ⟨6, 5⟩) := by
  have hentity : 0 < ((linkedTo 1 2).resolve 0).entity := by decide
  have hown : (linkedTo 1 2).OwnPose ((linkedTo 1 2).resolve 0) 1 (Character.locate {} ⟨5, 5⟩).pose :=
    .live (e := { id := 2, map := 1, body := Character.locate {} ⟨5, 5⟩ }) rfl rfl
  obtain ⟨hmeasured, -⟩ := setOrigin_measures_own_iff hentity (show besideEvent.relativity = .event from rfl)
    (show ((linkedTo 1 2).resolve 0).map.toInt = .ok 1 from rfl) hown
  exact ⟨hentity, rfl, rfl, ⟨_, hown⟩, hmeasured.2 (.inl ⟨rfl, rfl⟩)⟩

/-- **Under a link to another map** the new origin does not lie beside the linked event, which is in the file of
its map, but beside the running one. -/
theorem not_measured_own_remote : (linkedTo 2 5).OwnPose ((linkedTo 2 5).resolve 0) 2 ⟨7, 7, 0⟩ ∧
    besideEvent.seenFrom ⟨7, 7, 0⟩ = ⟨8, 7⟩ ∧
    setOrigin 0 besideEvent (linkedTo 2 5) ≠ .ok () ((linkedTo 2 5).recordOrigin 2 5 ⟨8, 7⟩) ∧
    setOrigin 0 besideEvent (linkedTo 2 5) = .ok () ((linkedTo 2 5).recordOrigin 2 5 ⟨3, 2⟩) := by
  have hnot : ¬(linkedTo 2 5).IsHere ((linkedTo 2 5).resolve 0) := fun h => absurd h.1 (by decide)
  have hrecorded : setOrigin 0 besideEvent (linkedTo 2 5) =
      .ok () ((linkedTo 2 5).recordOrigin 2 5 ⟨3, 2⟩) := rfl
  refine ⟨.filed hnot rfl rfl rfl List.mem_cons_self (isPlacedAt_placedFields 5 ⟨7, 7⟩), by decide, ?_, hrecorded⟩
  intro hbeside
  have hsame := (EStateM.Result.ok.inj (hrecorded.symm.trans hbeside)).2
  exact absurd (recordOrigin_injective hsame) (by decide)

end Play

end EventLayer
