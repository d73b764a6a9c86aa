/-
**What the movement of one character keeps.**

A character that moves writes little: its draws, sounds and balloons, what its route has come to, and,
where it takes a step, the step itself.  Everything but the step leaves the character on its tile and
no more in the way than before, forces no route on it and turns it to face somewhere.  A property that
these writes and the steps leave is left by every movement, up to a whole frame of a route.

Main definitions:

* `Character.Adjusts` — a change of a character that is no step;
* `Move.heading?`, `Route.HeadsAlong` — where a route steps and turns;
* `Route.StepsAlong` — a route whose steps go in directions of a certain kind;
* `Play.Roaming` — properties that the single writes of a movement leave.

Main results:

* `Route.headsAlong_read` — a route that was read steps and turns in the four directions;
* `Play.Roaming.moveRandom`, `Play.Roaming.moveTowardPoint` — one lemma a kind of movement;
* `Play.Roaming.walk` — **a frame of a route keeps what single movements keep**.
-/
import EventLayer.Proofs.Movement.Resting

set_option autoImplicit false
set_option relaxedAutoImplicit false

namespace EventLayer

/-! ### Changes of a character -/

/-- A change of a character that is no step.  It leaves its looks, forces no route, and turns nobody to
face nowhere. -/
structure Character.Adjusts (f : Character → Character) : Prop where
  point : ∀ c, (f c).point = c.point
  image : ∀ c, (f c).image = c.image
  through : ∀ c, (f c).through = c.through
  priority : ∀ c, (f c).priority = c.priority
  forcing : ∀ c, (f c).forcing = true → c.forcing = true
  direction : ∀ c, c.direction ≠ 0 → (f c).direction ≠ 0

namespace Character

/-- What neither moves nor turns a character is no step. -/
theorem Lingers.adjusts {f : Character → Character} (h : Lingers f) : Adjusts f where
  point := fun c => congrArg Pose.point (h.pose c)
  image := h.image
  through := h.through
  priority := h.priority
  forcing := h.forcing
  direction := fun c hd => by
    have hsame : (f c).direction = c.direction := congrArg Pose.direction (h.pose c)
    rwa [hsame]

theorem face_direction_ne_zero {c : Character} (h : c.direction ≠ 0) (d : Int) :
    (c.face d).direction ≠ 0 := by
  unfold face
  split
  · exact h
  · assumption

theorem point_face (c : Character) (d : Int) : (c.face d).point = c.point := by
  unfold face
  split <;> rfl

theorem adjusts_face (d : Int) : Adjusts fun c => c.face d where
  point := fun c => point_face c d
  image := fun c => by
    unfold face
    split <;> rfl
  through := fun c => by
    unfold face
    split <;> rfl
  priority := fun c => by
    unfold face
    split <;> rfl
  forcing := fun c hf => by
    unfold face at hf
    split at hf <;> exact hf
  direction := fun c hd => face_direction_ne_zero hd d

/-- A step that fails is none. -/
theorem adjusts_stuck (d : Int) : Adjusts fun c => Session.stuck c d :=
  have hface := adjusts_face d
  ⟨hface.point, hface.image, hface.through, hface.priority, hface.forcing, hface.direction⟩

end Character

/-! ### Directions -/

theorem Direction.reverse_ne_zero {d : Int} (h : d ≠ 0) : reverse d ≠ 0 := by
  unfold reverse isFourWay down left right up
  grind

/-- The direction that a step names, whether it goes or only turns there. -/
def Move.heading? : Move → Option Int
  | .step d => some d
  | .turn d => some d
  | _ => none

namespace Route

/-- A route that steps and turns in directions of a certain kind. -/
def HeadsAlong (D : Int → Prop) (r : Route) : Prop :=
  ∀ m d, .move m ∈ r.steps → m.heading? = some d → D d

/-- A route whose steps go in directions of a certain kind. -/
def StepsAlong (D : Int → Prop) (r : Route) : Prop := ∀ d, .move (.step d) ∈ r.steps → D d

variable {D : Int → Prop} {m : Move} {d : Int}

theorem HeadsAlong.stepsAlong {r : Route} (h : r.HeadsAlong D) : r.StepsAlong D :=
  fun d hd => h (.step d) d hd rfl

theorem headsAlong_nil : HeadsAlong D {} := nofun

/-- A direction that is read is one of the four. -/
theorem isFourWay_read {code : Option Int} {params : Json} (h : Move.read code params = .ok m)
    (hd : m.heading? = some d) : Direction.isFourWay d = true := by
  unfold Move.read at h
  split at h
  case h_9 =>
    obtain ⟨_, -, h⟩ := Except.bind_eq_ok h
    obtain ⟨_, -, h⟩ := Except.bind_eq_ok h
    cases h
    cases hd
  case h_14 =>
    obtain ⟨found, -, h⟩ := Except.bind_eq_ok h
    cases found with
    | none =>
        cases h
        cases hd
    | some v =>
        obtain ⟨sound, -, h⟩ := Except.bind_eq_ok h
        cases sound <;> cases h <;> cases hd
  case h_15 =>
    obtain ⟨_, -, h⟩ := Except.bind_eq_ok h
    cases h
    cases hd
  all_goals
    cases h
    cases hd
  all_goals rfl

theorem isFourWay_ofFields {fields : List (String × Json)}
    (hd : (Move.ofFields fields).heading? = some d) : Direction.isFourWay d = true := by
  unfold Move.ofFields at hd
  dsimp only at hd
  split at hd
  · next m hm =>
      cases hcode : ((OrderedMap.find "code" fields).getD .null).asKey with
      | error e =>
          rw [hcode] at hm
          cases hm
      | ok code =>
          rw [hcode] at hm
          exact isFourWay_read hm hd
  · cases hd

theorem isFourWay_readStep {i : Nat} {command : Json}
    (h : (readStep i command).result = .ok (.move m)) (hd : m.heading? = some d) :
    Direction.isFourWay d = true := by
  cases command with
  | obj fields =>
      unfold readStep at h
      dsimp only at h
      split at h
      · obtain ⟨_, -, h⟩ := Reading.bind_eq_ok h
        obtain ⟨found, -, h⟩ := Reading.bind_eq_ok h
        cases found with
        | some line => cases h
        | none =>
            cases h
            exact isFourWay_ofFields hd
      · split at h
        · cases h
        · cases h
          exact isFourWay_ofFields hd
  | null | bool | int | float | str | arr => cases h

theorem isFourWay_readSteps {list : List Json} {i : Nat} {steps : List RouteStep}
    (h : (readSteps i list).result = .ok steps) (hmem : .move m ∈ steps)
    (hd : m.heading? = some d) : Direction.isFourWay d = true := by
  induction list generalizing i steps with
  | nil =>
      cases h
      cases hmem
  | cons c rest ih =>
      obtain ⟨step, hstep, h⟩ := Reading.bind_eq_ok h
      obtain ⟨others, hothers, h⟩ := Reading.bind_eq_ok h
      cases h
      rcases List.mem_cons.mp hmem with rfl | hmem
      · exact isFourWay_readStep hstep hd
      · exact ih hothers hmem

theorem headsAlong_ofFields {fields : List (String × Json)} {r : Route}
    (h : (ofFields fields).result = .ok r) :
    r.HeadsAlong fun d => Direction.isFourWay d = true := by
  unfold ofFields at h
  dsimp only at h
  split at h
  · cases h
  · next found hfound =>
      cases h
      intro m d hmem hd
      obtain ⟨list, -, hlist⟩ := Reading.bind_eq_ok hfound
      exact isFourWay_readSteps hlist hmem hd

/-- **A route that was read steps and turns in the four directions.** -/
theorem headsAlong_read {v : Json} {r : Option Route} (h : (read v).result = .ok r) :
    (r.getD {}).HeadsAlong fun d => Direction.isFourWay d = true := by
  have hblank : ∀ v : Json, (if v.truthy then throw .notAnObject else return some {} :
      Reading (Option Route)).result = .ok r →
      (r.getD {}).HeadsAlong fun d => Direction.isFourWay d = true := by
    intro v hv
    split at hv
    · cases hv
    · cases hv
      exact headsAlong_nil
  cases v with
  | null =>
      cases h
      exact headsAlong_nil
  | obj fields =>
      obtain ⟨route, hroute, h⟩ := Reading.bind_eq_ok h
      cases h
      exact headsAlong_ofFields hroute
  | bool b => exact hblank _ h
  | int n => exact hblank _ h
  | float x => exact hblank _ h
  | str s => exact hblank _ h
  | arr items => exact hblank _ h

end Route

/-! ### Movements -/

namespace Play

open Session Character

/-- A property of sessions that the single writes of a character's movement leave, its steps in
directions of a certain kind, and those in the direction that it faces. -/
structure Roaming (who : CharacterId) (D : Int → Prop) (P : Session → Prop) : Prop where
  aside : ∀ {s : Session} (draws : Draws) (balloons : List (CharacterId × Int)) (audio : List Sound)
    (notices : List Notice), P s →
      P { s with draws, scratch.balloons := balloons, audio := audio, notices := notices }
  adjust : ∀ {s : Session} {f : Character → Character}, Adjusts f → P s → P (s.updateCharacter who f)
  moveStraight : ∀ {s : Session} {d : Int}, D d ∨ d = (s.character who).direction → P s →
    P (Act.moveStraight who d s).2
  somewhere : ∀ d, d ≠ 0 → D d

namespace Roaming

variable {who : CharacterId} {D : Int → Prop} {P : Session → Prop} {s : Session}

/-! ### Single writes -/

theorem change (h : Roaming who D P) {f : Character → Character} (hf : Adjusts f) :
    (Play.onCharacter who f).Preserves P :=
  preserves_modify fun _ hs => h.adjust hf hs

/-- What single movements leave, a resting character leaves. -/
theorem resting (h : Roaming who D P) : Resting who P := ⟨h.aside, fun hf hs => h.adjust hf.adjusts hs⟩

/-! ### Steps -/

theorem moveRandom (h : Roaming who D P) (hs : P s) : P (Act.moveRandom who s).2 := by
  have hdrawn : P { s with draws := (s.draws.below 4).2 } := h.resting.setDraws _ hs
  have hn : 0 ≤ (s.draws.below 4).1 := s.draws.below_nonneg (by decide)
  simp only [Act.moveRandom]
  split
  · exact h.moveStraight (Or.inl (h.somewhere _ (by omega))) hdrawn
  · have hstuck := h.resting.linger (f := fun c => { c with moveSucceeded := false })
      (.of_footing fun _ => rfl) hdrawn
    exact hstuck

theorem moveForward (h : Roaming who D P) (hs : P s) : P (Act.moveForward who s).2 :=
  h.moveStraight (Or.inr rfl) hs

theorem moveTowardPoint (h : Roaming who D P) (hs : P s) (p : Point) :
    P (Act.moveTowardPoint who p s).2 := by
  simp only [Act.moveTowardPoint]
  split
  · exact hs
  · next hd => exact h.moveStraight (Or.inl (h.somewhere _ hd)) hs

theorem moveAwayFromPoint (h : Roaming who D P) (hs : P s) (p : Point) :
    P (Act.moveAwayFromPoint who p s).2 := by
  simp only [Act.moveAwayFromPoint]
  split
  · exact hs
  · next hd => exact h.moveStraight (Or.inl (h.somewhere _ (Direction.reverse_ne_zero hd))) hs

theorem moveTowardPlayer (h : Roaming who D P) (hs : P s) : P (Act.moveTowardPlayer who s).2 := by
  simp only [Act.moveTowardPlayer]
  split
  · exact h.moveRandom hs
  · exact h.moveTowardPoint hs _

theorem moveAwayFromPlayer (h : Roaming who D P) (hs : P s) :
    P (Act.moveAwayFromPlayer who s).2 := by
  simp only [Act.moveAwayFromPlayer]
  split
  · exact h.moveRandom hs
  · exact h.moveAwayFromPoint hs _

theorem takeMoved (h : Roaming who D P) (hs : P s) : P (Act.takeMoved who s).2 :=
  h.resting.linger (.of_footing fun _ => rfl) hs

/-! ### Routes -/

theorem takeStep (h : Roaming who D P) {m : Move} (hm : ∀ d, m = .step d → D d) :
    (Play.takeStep who m).Preserves P := by
  refine Preserves.bind (h.resting.keep fun _ => rfl) fun _ => ?_
  cases m with
  | step d => exact (preserves_act fun _ hs => h.moveStraight (Or.inl (hm d rfl)) hs).discard
  | random => exact (preserves_act fun _ hs => h.moveRandom hs).discard
  | towardPlayer => exact (preserves_act fun _ hs => h.moveTowardPlayer hs).discard
  | awayFromPlayer => exact (preserves_act fun _ hs => h.moveAwayFromPlayer hs).discard
  | forward => exact (preserves_act fun _ hs => h.moveForward hs).discard
  | wait frames => exact h.resting.keep fun _ => rfl
  | turn d => exact h.change (adjusts_face d)
  | playSound sound => exact h.resting.playSound _
  | idle => exact preserves_pure ()
  | faulty e => exact preserves_throw e

theorem walkLines (h : Roaming who D P) {route : Route} (hroute : route.StepsAlong D) (budget : Nat) :
    (Play.walkLines who route budget).Preserves P := by
  induction budget with
  | zero => exact preserves_pure ()
  | succ budget ih =>
      have hfinish : (do
          if ← Play.finishRoute who then return
          Play.walkLines who route budget : Play Unit).Preserves P :=
        h.resting.finishRoute.bind fun done => (preserves_pure ()).ite ih
      refine preserves_getBind fun s => ?_
      dsimp only
      split
      · exact hfinish
      · exact Preserves.bind (h.resting.keep fun _ => rfl) fun _ => hfinish
      · refine (h.resting.runLine route _ _).bind fun next => ?_
        exact Preserves.bind (h.resting.keep fun _ => rfl) fun _ => ih
      · next m hm =>
          have hstep : ∀ d, m = .step d → D d := by
            rintro d rfl
            exact hroute d (List.mem_of_getElem? hm)
          refine (h.takeStep hstep).bind fun _ => preserves_getBind fun s => ?_
          exact Preserves.ite (h.resting.keep fun _ => rfl) (preserves_pure ())

/-- **A frame of a route keeps what single movements keep.** -/
theorem walk (h : Roaming who D P) (hroute : (s.character who).activeRoute.StepsAlong D) (hs : P s) :
    P ((Play.walk who).after s) := by
  have hwalk : ∀ n : Nat, (if 0 < n then
        Play.onCharacter who fun c => { c with waitCount := c.waitCount - 1 }
      else Play.walkLines who (s.character who).activeRoute
        ((s.character who).activeRoute.length + 1) : Play Unit).Preserves P := by
    intro n
    exact Preserves.ite (h.resting.keep fun _ => rfl) (h.walkLines hroute _)
  exact hwalk (s.character who).waitCount s hs

end Roaming

end Play

end EventLayer
