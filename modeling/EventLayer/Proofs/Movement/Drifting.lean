/-
**Where a movement leads somebody who goes through everything.**

Somebody who goes through everything is held back by the edge of the map and by nothing else.  So where a
movement leads can be told beforehand: a step goes to the next tile or, at the edge, only turns; a step at
random at the edge does not even turn; other parts of a route lead nowhere.  A frame of a route goes past
script lines, which leave everybody in place, and leads where the one move leads that it comes to.

Main definitions:

* `Pose.face`, `Pose.step` — a pose that is turned, and the next one;
* `Session.goal` — **the pose that a move leads to**;
* `Session.Floats` — an event that goes through everything, in a pose;
* `Play.ComesTo` — a frame of a route comes to a move.

Main results:

* `Session.Floats.takeStep` — a move of such an event leads to its goal;
* `Play.floats_walkLines`, `Play.floats_walk` — **a frame of a route leads elsewhere exactly if it comes
  to a move whose goal is elsewhere**.
-/
import EventLayer.Proofs.Map.Erasing
import EventLayer.Proofs.Movement.Attempts
import EventLayer.Proofs.Route.Strides

set_option autoImplicit false
set_option relaxedAutoImplicit false

namespace EventLayer

/-! ### Poses -/

namespace Pose

/-- A pose that is turned; the code `0` leaves it as it is. -/
def face (p : Pose) (d : Int) : Pose := if d = 0 then p else { p with direction := d }

/-- The pose after a step. -/
def step (p : Pose) (d : Int) : Pose :=
  { p.face d with x := (p.point.step d).x, y := (p.point.step d).y }

@[simp] theorem face_zero (p : Pose) : p.face 0 = p := rfl

@[simp] theorem step_zero (p : Pose) : p.step 0 = p := by
  obtain ⟨x, y, d⟩ := p
  simp [step, point, Point.step, Direction.offset, Direction.down, Direction.left, Direction.right,
    Direction.up]

end Pose

theorem Character.pose_face (c : Character) (d : Int) : (c.face d).pose = c.pose.face d := by
  unfold Character.face Pose.face
  split <;> rfl

theorem Session.pose_stepped (c : Character) (d : Int) : (stepped c d).pose = c.pose.step d :=
  congrArg (fun p : Pose => { p with x := (c.point.step d).x, y := (c.point.step d).y }) (c.pose_face d)

theorem Session.pose_stuck (c : Character) (d : Int) : (stuck c d).pose = c.pose.face d := c.pose_face d

namespace Session

/-! ### Goals -/

/-- The direction that is drawn next. -/
def drawn (s : Session) : Int := 2 + 2 * (s.draws.below 4).1

/-- The direction in which a character has the player. -/
def playerward (s : Session) (who : CharacterId) : Int :=
  Direction.toward (s.character who).point s.player.body.point

/-- The pose that a step leads to: at the edge of the map it only turns. -/
def stepGoal (s : Session) (who : CharacterId) (d : Int) : Pose :=
  if s.map.isValid ((s.character who).point.step d) then (s.character who).pose.step d
  else (s.character who).pose.face d

/-- The pose that a step at random leads to: at the edge of the map it does nothing. -/
def randomGoal (s : Session) (who : CharacterId) : Pose :=
  if s.map.isValid ((s.character who).point.step s.drawn) then (s.character who).pose.step s.drawn
  else (s.character who).pose

/-- The pose that a move leads to, for somebody who is held back by nothing but the edge of the map. -/
def goal (s : Session) (who : CharacterId) : Move → Pose
  | .step d => s.stepGoal who d
  | .random => s.randomGoal who
  | .towardPlayer =>
    if s.ignoresPlayer who then s.randomGoal who else s.stepGoal who (s.playerward who)
  | .awayFromPlayer =>
    if s.ignoresPlayer who then s.randomGoal who
    else s.stepGoal who (Direction.reverse (s.playerward who))
  | .forward => s.stepGoal who (s.character who).direction
  | .turn d => (s.character who).pose.face d
  | .wait _ | .playSound _ | .idle | .faulty _ => (s.character who).pose

/-- A step in no direction leads nowhere. -/
@[simp] theorem stepGoal_zero (s : Session) (who : CharacterId) :
    s.stepGoal who 0 = (s.character who).pose := by
  simp [stepGoal]

/-! ### Events that go through everything -/

/-- An event that goes through everything, in a pose. -/
def Floats (id : Int) (p : Pose) (s : Session) : Prop :=
  ∃ e, s.event? id = some e ∧ e.body.through = true ∧ e.body.pose = p

variable {s t : Session} {id : Int} {p q : Pose}

theorem Floats.character (h : s.Floats id p) : (s.character (.event id)).through = true ∧
    (s.character (.event id)).pose = p := by
  obtain ⟨e, he, hthrough, hpose⟩ := h
  rw [character_of_event he]
  exact ⟨hthrough, hpose⟩

theorem Floats.of_events (h : s.Floats id p) (hevents : t.map.events = s.map.events) :
    t.Floats id p := by
  obtain ⟨e, he, hbody⟩ := h
  exact ⟨e, (congrArg (OrderedMap.get? · id) hevents).trans he, hbody⟩

theorem Floats.update (h : s.Floats id p) {f : MapEvent → MapEvent}
    (hthrough : ∀ e, (f e).body.through = e.body.through) (hpose : ∀ e, (f e).body.pose = e.body.pose) :
    (s.updateEvent id f).Floats id p := by
  obtain ⟨e, he, hbody⟩ := h
  refine ⟨f e, ?_, (hthrough e).trans hbody.1, (hpose e).trans hbody.2⟩
  rw [event?_updateEvent, he]
  rfl

theorem Floats.turn (h : s.Floats id p) {f : Character → Character} (g : Pose → Pose)
    (hthrough : ∀ c, (f c).through = c.through) (hpose : ∀ c, (f c).pose = g c.pose) :
    (s.updateCharacter (.event id) f).Floats id (g p) := by
  obtain ⟨e, he, hbody⟩ := h
  refine ⟨{ e with body := f e.body }, ?_, (hthrough _).trans hbody.1, ?_⟩
  · rw [updateCharacter, event?_updateEvent, he]
    rfl
  · exact (hpose e.body).trans (congrArg g hbody.2)

theorem Floats.unique (h : s.Floats id p) (h' : s.Floats id q) : p = q := by
  obtain ⟨e, he, -, rfl⟩ := h
  obtain ⟨e', he', -, rfl⟩ := h'
  rw [he] at he'
  cases he'
  rfl

/-- What an event bumps into is started without being moved, and so is the event. -/
theorem Floats.touch (h : s.Floats id p) (q : Point) : (s.touch (.event id) q).Floats id p := by
  simp only [Session.touch, eventTouch]
  split
  · exact h
  · split
    · split
      · exact h.update (fun e => by rw [MapEvent.body_startIfAny]) fun e => by rw [MapEvent.body_startIfAny]
      · exact h
    · exact h

end Session

/-! ### Single moves -/

namespace Play

open Session

/-- Whatever an event does on its tile leaves it in its pose. -/
theorem resting_floats (id : Int) (p : Pose) : Resting (.event id) (Floats id p) where
  aside := fun _ _ _ _ h => h
  linger := fun hf h => h.turn (fun p => p) hf.through hf.pose

end Play

namespace Session

variable {s t : Session} {id : Int} {p q : Pose}

/-- Nothing but the edge of the map is in the way of somebody who goes through everything. -/
theorem Floats.canPass (h : s.Floats id p) (q : Point) (d : Int) :
    s.canPass (.event id) q d = s.map.isValid (q.step d) := by
  simp only [Session.canPass, h.character.1, Bool.true_or, Bool.and_true]

/-- **A step leads to its goal.** -/
theorem Floats.moveStraight (h : s.Floats id p) (d : Int) :
    (Act.moveStraight (.event id) d s).2.Floats id (s.stepGoal (.event id) d) := by
  simp only [Act.moveStraight, h.canPass, stepGoal]
  have hpose := h.character.2
  split
  · rw [hpose]
    refine h.turn (·.step d) (fun c => ?_) fun c => pose_stepped c d
    exact (Character.adjusts_face d).through c
  · rw [hpose]
    refine Floats.touch (h.turn (·.face d) (fun c => ?_) fun c => pose_stuck c d) _
    exact (Character.adjusts_stuck d).through c

theorem Floats.moveRandom (h : s.Floats id p) :
    (Act.moveRandom (.event id) s).2.Floats id (s.randomGoal (.event id)) := by
  have hdrawn : Floats id p { s with draws := (s.draws.below 4).2 } := h
  have hpass := hdrawn.canPass (s.character (.event id)).point s.drawn
  rw [randomGoal]
  by_cases hvalid : s.map.isValid ((s.character (.event id)).point.step s.drawn) = true
  · have hmove : Act.moveRandom (.event id) s =
        Act.moveStraight (.event id) s.drawn { s with draws := (s.draws.below 4).2 } :=
      if_pos (hpass.trans hvalid)
    have hgoal : stepGoal { s with draws := (s.draws.below 4).2 } (.event id) s.drawn =
        (s.character (.event id)).pose.step s.drawn := if_pos hvalid
    rw [if_pos hvalid, hmove, ← hgoal]
    exact hdrawn.moveStraight s.drawn
  · have hmove : Act.moveRandom (.event id) s = (false, ({ s with draws := (s.draws.below 4).2 } :
        Session).updateCharacter (.event id) fun c => { c with moveSucceeded := false }) :=
      if_neg fun hpassed => hvalid (hpass.symm.trans hpassed)
    rw [if_neg hvalid, hmove, h.character.2]
    exact hdrawn.turn (fun p => p) (fun _ => rfl) fun _ => rfl

theorem Floats.moveTowardPlayer (h : s.Floats id p) :
    (Act.moveTowardPlayer (.event id) s).2.Floats id (s.goal (.event id) .towardPlayer) := by
  simp only [Act.moveTowardPlayer, goal]
  split
  · exact h.moveRandom
  · simp only [Act.moveToward, Act.moveTowardPoint]
    split
    · next hnone =>
        have hzero : s.playerward (.event id) = 0 := hnone
        rw [hzero, stepGoal_zero, h.character.2]
        exact h
    · exact h.moveStraight _

theorem Floats.moveAwayFromPlayer (h : s.Floats id p) :
    (Act.moveAwayFromPlayer (.event id) s).2.Floats id (s.goal (.event id) .awayFromPlayer) := by
  simp only [Act.moveAwayFromPlayer, goal]
  split
  · exact h.moveRandom
  · simp only [Act.moveAway, Act.moveAwayFromPoint]
    split
    · next hnone =>
        have hzero : s.playerward (.event id) = 0 := hnone
        have hreverse : Direction.reverse 0 = 0 := rfl
        rw [hzero, hreverse, stepGoal_zero, h.character.2]
        exact h
    · exact h.moveStraight _

/-- Being ready for a move does not change where it leads. -/
theorem goal_readied (h : s.Floats id p) (m : Move) :
    (s.readied (.event id)).goal (.event id) m = s.goal (.event id) m := by
  obtain ⟨e, he, -⟩ := h
  have hready : (s.readied (.event id)).event? id =
      some { e with body := { e.body with moveSucceeded := true } } := by
    rw [readied, updateCharacter, event?_updateEvent, he]
    rfl
  have hbefore := character_of_event he
  have hafter := character_of_event hready
  cases m <;> simp only [goal, stepGoal, randomGoal, playerward, hbefore, hafter] <;> rfl

/-- **A move of an event that goes through everything leads to its goal.** -/
theorem Floats.takeStep (h : s.Floats id p) (m : Move) :
    ((Play.takeStep (.event id) m).after s).Floats id (s.goal (.event id) m) := by
  have hready : (s.readied (.event id)).Floats id p := h.turn (fun p => p) (fun _ => rfl) fun _ => rfl
  have hrest := Play.resting_floats id p
  have hact : ∀ {a : Act Bool}, m.act? (.event id) = some a →
      (a (s.readied (.event id))).2.Floats id ((s.readied (.event id)).goal (.event id) m) →
        ((Play.takeStep (.event id) m).after s).Floats id (s.goal (.event id) m) := by
    intro a ha hgoes
    rw [Play.after_of_ok (Play.takeStep_of_act ha s), ← goal_readied h]
    exact hgoes
  have hpose := h.character.2
  cases m with
  | step d => exact hact rfl (hready.moveStraight d)
  | random => exact hact rfl hready.moveRandom
  | towardPlayer => exact hact rfl hready.moveTowardPlayer
  | awayFromPlayer => exact hact rfl hready.moveAwayFromPlayer
  | forward => exact hact rfl (hready.moveStraight _)
  | turn d =>
      rw [goal, hpose]
      exact hready.turn (·.face d) (Character.adjusts_face d).through fun c => c.pose_face d
  | wait frames =>
      rw [goal, hpose]
      exact hrest.linger (f := fun c => { c with waitCount := frames }) (.of_footing fun _ => rfl) hready
  | playSound sound =>
      rw [goal, hpose]
      exact hrest.playSound _ _ hready
  | idle =>
      rw [goal, hpose]
      exact hready
  | faulty e =>
      rw [goal, hpose]
      exact hready

end Session

/-! ### Frames of a route -/

namespace Play

open Session

variable {id : Int} {p q : Pose} {r : Route} {c : Course} {s t u : Session} {n : Nat} {m : Move}

/-- A frame of a route comes to a move, past fewer lines than it may pass. -/
def ComesTo (who : CharacterId) (r : Route) (n : Nat) (s : Session) (m : Move) (u : Session) : Prop :=
  ∃ l, Strides who r s l u ∧ l.length < n ∧ r.steps[place who u]? = some (.move m)

theorem comesTo_line {who : CharacterId} {line : RouteInstruction} {next : Nat}
    (hline : r.steps[place who s]? = some (.script line))
    (run : runLine who r (place who s) line s = .ok next t) :
    ComesTo who r (n + 1) s m u ↔ ComesTo who r n (goTo who next t) m u := by
  constructor
  · rintro ⟨l, hl, hlength, hm⟩
    cases hl with
    | here => rw [hline] at hm; cases hm
    | line hline' run' rest =>
        rw [hline] at hline'
        cases hline'
        rw [run] at run'
        cases run'
        exact ⟨_, rest, Nat.lt_of_succ_lt_succ hlength, hm⟩
    | again hend _ _ =>
        rcases hend with hend | hend <;> rw [hline] at hend <;> cases hend
  · rintro ⟨l, hl, hlength, hm⟩
    exact ⟨_, .line hline run hl, Nat.succ_lt_succ hlength, hm⟩

theorem comesTo_again {who : CharacterId} (hend : r.EndsAt (place who s)) (hr : r.repeats = true) :
    ComesTo who r (n + 1) s m u ↔ ComesTo who r n (startOver who s) m u := by
  constructor
  · rintro ⟨l, hl, hlength, hm⟩
    cases hl with
    | here => rcases hend with hend | hend <;> rw [hend] at hm <;> cases hm
    | line hline _ _ => rcases hend with hend | hend <;> rw [hend] at hline <;> cases hline
    | again _ _ rest => exact ⟨_, rest, Nat.lt_of_succ_lt_succ hlength, hm⟩
  · rintro ⟨l, hl, hlength, hm⟩
    exact ⟨_, .again hend hr hl, Nat.succ_lt_succ hlength, hm⟩

theorem not_comesTo_of_over {who : CharacterId} (hend : r.EndsAt (place who s)) (hr : r.repeats = false) :
    ¬ComesTo who r n s m u := by
  rintro ⟨l, hl, -, hm⟩
  cases hl with
  | here => rcases hend with hend | hend <;> rw [hend] at hm <;> cases hm
  | line hline _ _ => rcases hend with hend | hend <;> rw [hend] at hline <;> cases hline
  | again _ hrep _ => rw [hr] at hrep; cases hrep

theorem not_comesTo_of_error {who : CharacterId} {line : RouteInstruction} {e : Fault}
    (hline : r.steps[place who s]? = some (.script line))
    (run : runLine who r (place who s) line s = .error e t) : ¬ComesTo who r n s m u := by
  rintro ⟨l, hl, -, hm⟩
  cases hl with
  | here => rw [hline] at hm; cases hm
  | line hline' run' _ =>
      rw [hline] at hline'
      cases hline'
      rw [run] at run'
      cases run'
  | again hend _ _ => rcases hend with hend | hend <;> rw [hline] at hend <;> cases hend

theorem comesTo_move {who : CharacterId} {m' : Move} (hm : r.steps[place who s]? = some (.move m)) :
    ComesTo who r (n + 1) s m' u ↔ m' = m ∧ u = s := by
  constructor
  · rintro ⟨l, hl, -, hm'⟩
    cases hl with
    | here =>
        rw [hm] at hm'
        cases hm'
        exact ⟨rfl, rfl⟩
    | line hline _ _ => rw [hm] at hline; cases hline
    | again hend _ _ => rcases hend with hend | hend <;> rw [hm] at hend <;> cases hend
  · rintro ⟨rfl, rfl⟩
    exact ⟨[], .here _, Nat.succ_pos n, hm⟩

/-- A frame that may pass so many lines leads an event elsewhere exactly if it comes to a move whose goal
is elsewhere. -/
def LeadsAway (id : Int) (r : Route) (n : Nat) (p : Pose) (s t : Session) : Prop :=
  ∃ q, t.Floats id q ∧
    (q ≠ p ↔ ∃ m u, ComesTo (.event id) r n s m u ∧ u.goal (.event id) m ≠ p)

/-- A frame that comes to no move leaves the event where it is. -/
theorem LeadsAway.of_stays (h : t.Floats id p) (hnone : ∀ m u, ¬ComesTo (.event id) r n s m u) :
    LeadsAway id r n p s t :=
  ⟨p, h, fun hne => absurd rfl hne, fun ⟨m, u, hto, _⟩ => absurd hto (hnone m u)⟩

theorem LeadsAway.congr {n' : Nat} {s' : Session} (h : LeadsAway id r n' p s' t)
    (hsame : ∀ m u, ComesTo (.event id) r n s m u ↔ ComesTo (.event id) r n' s' m u) :
    LeadsAway id r n p s t := by
  obtain ⟨q, hq, hne⟩ := h
  refine ⟨q, hq, hne.trans ?_⟩
  simp only [hsame]

/-- At a move a frame leads to its goal. -/
theorem LeadsAway.of_move (h : s.Floats id p) (hline : r.steps[place (.event id) s]? = some (.move m)) :
    LeadsAway id r (n + 1) p s ((walkLines (.event id) r (n + 1)).after s) := by
  have hstep := h.takeStep m
  rw [after, walkLines_of_move hline]
  refine ⟨s.goal (.event id) m, ?_, fun hne => ⟨m, s, (comesTo_move hline).2 ⟨rfl, rfl⟩, hne⟩, ?_⟩
  · refine holds_after_bind (P := Floats id (s.goal (.event id) m)) hstep fun _ t ht => ?_
    rw [after_of_ok ht] at hstep
    refine preserves_getBind (P := Floats id (s.goal (.event id) m)) (fun _ => ?_) t hstep
    exact Preserves.ite ((resting_floats id _).keep fun _ => rfl) (preserves_pure ())
  · rintro ⟨m', u, hto, hne⟩
    obtain ⟨rfl, rfl⟩ := (comesTo_move hline).1 hto
    exact hne

section Lines

variable (ih : ∀ {s : Session}, StandsOn (.event id) r c s → s.Floats id p →
  LeadsAway id r n p s ((walkLines (.event id) r n).after s))

include ih

/-- At the end of its route a frame is over, or it goes on with the lines that are left. -/
theorem LeadsAway.of_end (hs : StandsOn (.event id) r c s) (h : s.Floats id p)
    (ht : StandsOn (.event id) r c t) (hfloats : t.Floats id p)
    (hover : startOver (.event id) t = startOver (.event id) s) (hend : r.EndsAt (place (.event id) s)) :
    LeadsAway id r (n + 1) p s ((passEnd (.event id) r n).after t) := by
  have hrest := resting_floats id p
  have hactive := activeRoute_standsOn ht
  cases hrep : r.repeats with
  | true =>
      have hpass : (passEnd (.event id) r n).after t =
          (walkLines (.event id) r n).after (startOver (.event id) s) := by
        rw [after, passEnd, bind_of_ok (finishRoute_of_repeats (hactive ▸ hrep)), ← hover]
        rfl
      rw [hpass]
      have hstart : (startOver (.event id) s).Floats id p :=
        hrest.linger (f := fun c => { c with routeIndex := 0, branches := [true] })
          (.of_footing fun _ => rfl) h
      exact (ih hs.startOver hstart).congr fun m u => comesTo_again hend hrep
  | false =>
      refine .of_stays ?_ fun m u => not_comesTo_of_over hend hrep
      rw [after_of_ok (passEnd_of_over (hactive ▸ hrep))]
      split
      · exact hrest.restoreRoute t hfloats
      · exact hfloats

/-- Past a script line a frame goes on with the lines that are left, unless the line fails. -/
theorem LeadsAway.of_script (hs : StandsOn (.event id) r c s) (h : s.Floats id p)
    {line : RouteInstruction} (hline : r.steps[place (.event id) s]? = some (.script line)) :
    LeadsAway id r (n + 1) p s ((walkLines (.event id) r (n + 1)).after s) := by
  have hrest := resting_floats id p
  have hran := hrest.runLine r (place (.event id) s) line s h
  rw [after, walkLines_of_script hline]
  cases run : runLine (.event id) r (place (.event id) s) line s with
  | error e t =>
      rw [show (s.character (.event id)).routeIndex = place (.event id) s from rfl, bind_of_error run]
      exact .of_stays (after_of_error run ▸ hran) fun m u => not_comesTo_of_error hline run
  | ok next t =>
      rw [show (s.character (.event id)).routeIndex = place (.event id) s from rfl, bind_of_ok run]
      have hgone : (goTo (.event id) next t).Floats id p :=
        hrest.linger (f := fun c => { c with routeIndex := next })
          (.of_footing fun _ => rfl) (after_of_ok run ▸ hran)
      exact (ih (hs.line run).1 hgone).congr fun m u => comesTo_line hline run

end Lines

/-- **The lines of a route that a frame passes lead elsewhere exactly if they come to a move whose goal is
elsewhere**, by induction on the lines that are left. -/
theorem floats_walkLines (n : Nat) {s : Session} (hs : StandsOn (.event id) r c s)
    (h : s.Floats id p) : LeadsAway id r n p s ((walkLines (.event id) r n).after s) := by
  induction n generalizing s with
  | zero => exact .of_stays h fun m u ⟨l, _, hlength, _⟩ => absurd hlength (Nat.not_lt_zero _)
  | succ n ih =>
      cases hline : r.steps[place (.event id) s]? with
      | none =>
          rw [after, walkLines_of_none hline]
          exact .of_end ih hs h hs h rfl (.inl hline)
      | some step =>
          cases step with
          | finish =>
              have hgone : (goTo (.event id) r.length s).Floats id p :=
                (resting_floats id p).linger (f := fun c => { c with routeIndex := r.length })
                  (.of_footing fun _ => rfl) h
              rw [after, walkLines_of_finish hline]
              exact .of_end ih hs h (hs.goTo r.length) hgone (startOver_goTo _ r.length s) (.inr hline)
          | script line => exact .of_script ih hs h hline
          | move m => exact .of_move h hline

/-- **A frame of a route leads an event elsewhere exactly if it comes to a move whose goal is elsewhere.**
A character that waits comes to none. -/
theorem floats_walk {s : Session} {e : MapEvent} (he : s.event? id = some e) (hthrough : e.body.through = true) :
    ∃ q, ((walk (.event id)).after s).Floats id q ∧ (q ≠ e.body.pose ↔ e.body.waitCount = 0 ∧
      ∃ m u, ComesTo (.event id) e.body.activeRoute (e.body.activeRoute.length + 1) s m u ∧
        u.goal (.event id) m ≠ e.body.pose) := by
  have hbody := character_of_event he
  have h : s.Floats id e.body.pose := ⟨e, he, hthrough, rfl⟩
  by_cases hwait : 0 < e.body.waitCount
  · refine ⟨e.body.pose, ?_, fun hne => absurd rfl hne, fun hway => absurd hway.1 (Nat.pos_iff_ne_zero.1 hwait)⟩
    rw [after, walk_apply, hbody, if_pos hwait]
    exact (resting_floats id _).linger (f := fun c => { c with waitCount := c.waitCount - 1 })
      (.of_footing fun _ => rfl) h
  · have hcourse : s.course? (.event id) = some e.body.course := by
      rw [course?_def, character?, he]
      rfl
    have hs : StandsOn (.event id) e.body.activeRoute e.body.course s :=
      ⟨⟨_, hcourse, .refl _⟩, rfl⟩
    obtain ⟨q, hq, hne⟩ := floats_walkLines (e.body.activeRoute.length + 1) hs h
    refine ⟨q, ?_, hne.trans ⟨fun hway => ⟨Nat.eq_zero_of_not_pos hwait, hway⟩, And.right⟩⟩
    rw [after, walk_apply, hbody, if_neg hwait]
    exact hq

end Play

end EventLayer
