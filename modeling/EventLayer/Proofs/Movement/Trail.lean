/-
**The followers retrace the leader.**

A step of the player shifts the line of its party: the player goes to a neighbouring tile, and everyone
behind takes the tile of the one ahead.  Nothing else that a movement does shifts the line, and one frame
of a route takes one step at most.  From a transfer on, which puts the whole party on one tile, the line
is therefore the path of the player read backward: a follower stands where the player stood as many steps
ago as there are members ahead of it.

Main definitions:

* `Session.line` — the tiles of the party, the leader's first;
* `Session.Stands`, `Session.Files` — a party that stays, and one that stays or is shifted by one step;
* `Session.Answers` — a movement whose answer tells which of both;
* `Session.MovesTo`, `Session.Treads` — a movement, and the tiles that the player leaves along several;
* `Session.Trails` — a party that stands along a path.

Main results:

* `Session.answers_moveStraight` — a step of the player, and what its answer tells;
* `Play.files_walk` — a frame of a route takes one step at most;
* `Session.Trails.files` — a shift of the line is a step of the path;
* `Session.Treads.retraces` — **the followers retrace the leader**.
-/
import EventLayer.Proofs.Character.Course
import EventLayer.Proofs.Movement.Apart
import EventLayer.Proofs.Saving.Reload
import Mathlib.Data.List.Chain

set_option autoImplicit false
set_option relaxedAutoImplicit false

namespace EventLayer

/-! ### Steps in the four directions -/

/-- A step in one of the four directions leads to a tile next to the one before. -/
theorem Point.taxiDistance_step {d : Int} (hd : Direction.isFourWay d = true) (p : Point) :
    (p.step d).taxiDistance p = 1 := by
  simp only [Direction.isFourWay, Bool.or_eq_true, beq_iff_eq] at hd
  rcases hd with ((rfl | rfl) | rfl) | rfl <;>
  · simp only [taxiDistance, step, Direction.offset, Direction.down, Direction.left, Direction.right,
      Direction.up, Int.reduceEq, if_true, if_false]
    omega

@[simp] theorem Point.taxiDistance_self (p : Point) : p.taxiDistance p = 0 := by simp [taxiDistance]

/-- Whoever is next to a tile is not on it. -/
theorem Point.ne_of_taxiDistance {p q : Point} (h : p.taxiDistance q = 1) : p ≠ q := by
  rintro rfl
  simp at h

namespace Direction

theorem isFourWay_toward {a b : Point} (h : toward a b ≠ 0) : isFourWay (toward a b) = true := by
  revert h
  unfold toward
  dsimp only
  split_ifs <;> intro h <;> first | rfl | exact absurd rfl h

theorem isFourWay_reverse {d : Int} (h : isFourWay d = true) : isFourWay (reverse d) = true := by
  simp only [isFourWay, Bool.or_eq_true, beq_iff_eq] at h
  rcases h with ((rfl | rfl) | rfl) | rfl <;> rfl

/-- The direction that is drawn at random. -/
theorem isFourWay_drawn (draws : Draws) : isFourWay (2 + 2 * (draws.below 4).1) = true := by
  have hlow : 0 ≤ (draws.below 4).1 := draws.below_nonneg (by decide)
  have hhigh : (draws.below 4).1 < (4 : Nat) := draws.below_lt (by decide)
  generalize (draws.below 4).1 = n at hlow hhigh
  obtain rfl | rfl | rfl | rfl : n = 0 ∨ n = 1 ∨ n = 2 ∨ n = 3 := by omega
  all_goals rfl

end Direction

/-- A character that turns to one of the four directions, or stays turned to one, faces one. -/
theorem Character.isFourWay_face {c : Character} {d : Int}
    (hc : Direction.isFourWay c.direction = true) (hd : d = 0 ∨ Direction.isFourWay d = true) :
    Direction.isFourWay (c.face d).direction = true := by
  unfold face
  split
  · exact hc
  · next h => exact hd.resolve_left h

/-- Followers stand where those ahead of them stood. -/
theorem map_point_followTrail (trail : Point) (l : List Character) :
    (followTrail trail l).map Character.point = (trail :: l.map Character.point).dropLast := by
  induction l generalizing trail with
  | nil => rfl
  | cons c rest ih =>
      have hhere : ∀ d : Int, ({ (c.face d).locate trail with moved := true } : Character).point =
          trail := fun _ => rfl
      simp only [followTrail, List.map_cons, ih]
      split
      · next h =>
          rw [← h]
          rfl
      · rw [hhere]
        rfl

/-! ### The line of the party -/

namespace Session

/-- The tiles that the party stands on, the leader's first. -/
def line (s : Session) : List Point := s.player.body.point :: s.player.followers.map Character.point

/-- The player faces one of the four directions. -/
def IsHeaded (s : Session) : Prop := Direction.isFourWay s.player.body.direction = true

/-- The party stands as before, and the player faces the same way. -/
structure Stands (s t : Session) : Prop where
  line : t.line = s.line
  direction : t.player.body.direction = s.player.body.direction

/-- The line is shifted by one step: the player has gone to a tile next to its own, and everyone behind
to the tile of the one ahead. -/
def Shifts (s t : Session) : Prop :=
  ∃ q : Point, q.taxiDistance s.player.body.point = 1 ∧ t.line = q :: s.line.dropLast

/-- The party stands as before, or its line is shifted by one step; the player faces one of the four
directions. -/
structure Files (s t : Session) : Prop where
  headed : t.IsHeaded
  line : t.line = s.line ∨ s.Shifts t

variable {s t u : Session}

theorem Stands.refl (s : Session) : s.Stands s := ⟨rfl, rfl⟩

theorem Stands.trans (h : s.Stands t) (h' : t.Stands u) : s.Stands u :=
  ⟨h'.line.trans h.line, h'.direction.trans h.direction⟩

theorem Stands.of_player (h : t.player = s.player) : s.Stands t :=
  ⟨by rw [Session.line, h, Session.line], by rw [h]⟩

theorem Stands.headed (h : s.Stands t) (hs : s.IsHeaded) : t.IsHeaded := by
  unfold IsHeaded
  rw [h.direction]
  exact hs

theorem Stands.files (h : s.Stands t) (hs : s.IsHeaded) : s.Files t := ⟨h.headed hs, Or.inl h.line⟩

theorem point_eq_of_line (h : t.line = s.line) : t.player.body.point = s.player.body.point :=
  (List.cons.inj h).1

/-- Standing before and after a movement changes nothing about it. -/
theorem Files.between {v : Session} (h : s.Stands t) (hmove : t.Files u) (h' : u.Stands v) :
    s.Files v := by
  refine ⟨h'.headed hmove.headed, ?_⟩
  rw [h'.line]
  rcases hmove.line with hstay | ⟨q, hq, hshift⟩
  · exact Or.inl (hstay.trans h.line)
  · refine Or.inr ⟨q, ?_, ?_⟩
    · rw [← point_eq_of_line h.line]
      exact hq
    · rw [h'.line, hshift, h.line]

theorem Files.after_stands (h : s.Stands t) (hmove : t.Files u) : s.Files u := .between h hmove (.refl u)

theorem length_line_pos (s : Session) : 0 < s.line.length := by simp [Session.line]

/-- The line gains and loses nobody. -/
theorem Files.length_line (h : s.Files t) : t.line.length = s.line.length := by
  have hpos := s.length_line_pos
  rcases h.line with hstay | ⟨q, -, hshift⟩
  · rw [hstay]
  · rw [hshift, List.length_cons, List.length_dropLast]
    omega

/-- A line that is shifted has its leader on the tile that it has gone to. -/
theorem Shifts.goes (h : s.Shifts t) : t.player.body.point.taxiDistance s.player.body.point = 1 ∧
    t.line = t.player.body.point :: s.line.dropLast := by
  obtain ⟨q, hq, hshift⟩ := h
  obtain rfl : t.player.body.point = q := (List.cons.inj hshift).1
  exact ⟨hq, hshift⟩

/-- The player has gone if the line was shifted. -/
theorem Files.goes (h : s.Files t) (hgone : t.player.body.point ≠ s.player.body.point) : s.Shifts t :=
  h.line.resolve_left fun hstay => hgone (point_eq_of_line hstay)

/-- The party stands as before if the player has not gone. -/
theorem Files.stays (h : s.Files t) (hstay : t.player.body.point = s.player.body.point) :
    t.line = s.line :=
  h.line.resolve_right fun hshift => Point.ne_of_taxiDistance hshift.goes.1 hstay

/-! ### Steps of the player -/

theorem stands_adjusted {f : Character → Character} (hf : Character.Lingers f) (s : Session) :
    s.Stands (s.updateCharacter .player f) := by
  have hpoint : (f s.player.body).point = s.player.body.point := congrArg Pose.point (hf.pose _)
  refine ⟨?_, congrArg Pose.direction (hf.pose s.player.body)⟩
  change (f s.player.body).point :: _ = _
  rw [hpoint]
  rfl

/-- What a bump of the player starts moves nobody of the party. -/
theorem stands_playerTouch (s : Session) (p : Point) : s.Stands (s.touch .player p) := by
  apply Stands.of_player
  simp only [touch, playerTouch]
  split <;> rfl

theorem line_steppedPlayer {d : Int} (hd : Direction.isFourWay d = true) (s : Session) :
    (s.steppedPlayer d).line = s.player.body.point.step d :: s.line.dropLast := by
  have hface : (s.player.body.face d).direction = d := face_direction (Or.inl (ne_zero_of_isFourWay hd))
  have hfollowers : (s.steppedPlayer d).player.followers =
      followTrail s.player.body.point s.player.followers := by
    rw [← trail_of_face hface]
    rfl
  rw [Session.line, hfollowers, map_point_followTrail]
  rfl

/-- A movement of the player shifts the line by one step at most, and its answer tells whether the player
has gone. -/
structure Answers (s : Session) (r : Bool × Session) : Prop where
  files : s.Files r.2
  tells : r.1 = true ↔ r.2.player.body.point ≠ s.player.body.point

theorem Stands.answers (h : s.Stands t) (hs : s.IsHeaded) : s.Answers (false, t) := by
  refine ⟨h.files hs, ?_⟩
  constructor
  · intro hfalse
    cases hfalse
  · intro hgone
    exact absurd (point_eq_of_line h.line) hgone

theorem Answers.after_stands {r : Bool × Session} (h : s.Stands t) (hmove : t.Answers r) :
    s.Answers r := by
  refine ⟨.after_stands h hmove.files, ?_⟩
  rw [← point_eq_of_line h.line]
  exact hmove.tells

/-- **A step of the player in one of the four directions shifts the line**, or fails and leaves everybody
in place. -/
theorem answers_moveStraight {d : Int} (hd : Direction.isFourWay d = true) (s : Session) :
    s.Answers (Act.moveStraight .player d s) := by
  have hne : d ≠ 0 := ne_zero_of_isFourWay hd
  have hturned : Direction.isFourWay (s.player.body.face d).direction = true := by
    rw [face_direction (Or.inl hne)]
    exact hd
  have hnext : (s.player.body.point.step d).taxiDistance s.player.body.point = 1 :=
    Point.taxiDistance_step hd _
  simp only [Act.moveStraight]
  split
  · refine ⟨⟨hturned, Or.inr ⟨_, hnext, line_steppedPlayer hd s⟩⟩, ?_⟩
    exact ⟨fun _ => Point.ne_of_taxiDistance hnext, fun _ => rfl⟩
  · -- the player turns, and what it bumps into may start
    have htouch := (s.updateCharacter .player fun c => stuck c d).stands_playerTouch
      (s.player.body.point.step d)
    have hline : ((s.updateCharacter .player fun c => stuck c d).touch .player
        (s.player.body.point.step d)).line = s.line := by
      refine htouch.line.trans ?_
      change (s.player.body.face d).point :: _ = _
      rw [Character.point_face]
      rfl
    refine ⟨⟨htouch.headed hturned, Or.inl hline⟩, ?_⟩
    constructor
    · intro hfalse
      cases hfalse
    · intro hgone
      exact absurd (point_eq_of_line hline) hgone

theorem answers_moveRandom (hs : s.IsHeaded) : s.Answers (Act.moveRandom .player s) := by
  have hdrawn : s.Stands { s with draws := (s.draws.below 4).2 } := .of_player rfl
  simp only [Act.moveRandom]
  split
  · exact .after_stands hdrawn (answers_moveStraight (Direction.isFourWay_drawn s.draws) _)
  · have hstuck := hdrawn.trans
      (stands_adjusted (f := fun c => { c with moveSucceeded := false }) (.of_footing fun _ => rfl) _)
    exact hstuck.answers hs

theorem answers_moveForward (hs : s.IsHeaded) : s.Answers (Act.moveForward .player s) :=
  answers_moveStraight hs s

theorem answers_moveTowardPoint (hs : s.IsHeaded) (p : Point) :
    s.Answers (Act.moveTowardPoint .player p s) := by
  simp only [Act.moveTowardPoint]
  split
  · exact (Stands.refl s).answers hs
  · next hd => exact answers_moveStraight (Direction.isFourWay_toward hd) s

theorem answers_moveAwayFromPoint (hs : s.IsHeaded) (p : Point) :
    s.Answers (Act.moveAwayFromPoint .player p s) := by
  simp only [Act.moveAwayFromPoint]
  split
  · exact (Stands.refl s).answers hs
  · next hd =>
      exact answers_moveStraight (Direction.isFourWay_reverse (Direction.isFourWay_toward hd)) s

theorem answers_moveTowardPlayer (hs : s.IsHeaded) :
    s.Answers (Act.moveTowardPlayer .player s) := by
  simp only [Act.moveTowardPlayer]
  split
  · exact answers_moveRandom hs
  · exact answers_moveTowardPoint hs _

theorem answers_moveAwayFromPlayer (hs : s.IsHeaded) :
    s.Answers (Act.moveAwayFromPlayer .player s) := by
  simp only [Act.moveAwayFromPlayer]
  split
  · exact answers_moveRandom hs
  · exact answers_moveAwayFromPoint hs _

end Session

/-! ### Routes of the player -/

namespace Play

open Session

variable {α β : Type} {s : Session}

/-- A resting player leaves the party where it stands. -/
theorem resting_stands (s : Session) : Resting .player (s.Stands ·) where
  aside := fun _ _ _ _ ht => ht.trans (.of_player rfl)
  linger := fun {t} _ hf ht => ht.trans (stands_adjusted hf t)

/-- What leaves the party in place may come before a movement. -/
theorem files_bind {act : Play α} {k : α → Play β} (hs : s.IsHeaded)
    (hact : act.Preserves (s.Stands ·))
    (hk : ∀ (a : α) (t : Session), t.IsHeaded → t.Files ((k a).after t)) :
    s.Files ((act >>= k).after s) := by
  have hfirst : s.Stands (act.after s) := hact s (.refl s)
  refine holds_after_bind (hfirst.files hs) fun a t ht => ?_
  have hstands : s.Stands t := hact.of_ok (.refl s) ht
  exact .after_stands hstands (hk a t (hstands.headed hs))

/-- What leaves the party in place may come behind a movement. -/
theorem files_bind_stands {act : Play α} {k : α → Play β} (hact : s.Files (act.after s))
    (hk : ∀ (a : α) (t : Session), t.Stands ((k a).after t)) : s.Files ((act >>= k).after s) := by
  refine holds_after_bind hact fun a t ht => ?_
  rw [after_of_ok ht] at hact
  exact .between (.refl s) hact (hk a t)

/-- **A step of a route shifts the line by one step at most.** -/
theorem files_takeStep {m : Move} (hm : ∀ d, m.heading? = some d → Direction.isFourWay d = true)
    (hs : s.IsHeaded) : s.Files ((takeStep .player m).after s) := by
  have hrest := resting_stands s
  refine files_bind hs (hrest.keep fun _ => rfl) fun _ t ht => ?_
  cases m with
  | step d => exact (answers_moveStraight (hm d rfl) t).files
  | random => exact (answers_moveRandom ht).files
  | towardPlayer => exact (answers_moveTowardPlayer ht).files
  | awayFromPlayer => exact (answers_moveAwayFromPlayer ht).files
  | forward => exact (answers_moveForward ht).files
  | wait frames =>
      have hwaits := stands_adjusted (f := fun c => { c with waitCount := frames })
        (.of_footing fun _ => rfl) t
      exact hwaits.files ht
  | playSound sound => exact ((resting_stands t).playSound _ t (.refl t)).files ht
  | idle => exact (Stands.refl t).files ht
  | faulty e => exact (Stands.refl t).files ht
  | turn d =>
      refine ⟨Character.isFourWay_face ht (Or.inr (hm d rfl)), Or.inl ?_⟩
      change (t.player.body.face d).point :: _ = _
      rw [Character.point_face]
      rfl

/-- The lines of a route that a frame passes take one step at most, since a step ends the frame. -/
theorem files_walkLines {route : Route}
    (hroute : route.HeadsAlong fun d => Direction.isFourWay d = true) (budget : Nat)
    (hs : s.IsHeaded) : s.Files ((walkLines .player route budget).after s) := by
  induction budget generalizing s with
  | zero => exact (Stands.refl s).files hs
  | succ budget ih =>
      have hend : ∀ {t : Session}, t.IsHeaded →
          t.Files ((passEnd .player route budget).after t) := by
        intro t ht
        refine files_bind ht (resting_stands t).finishRoute fun finished u hu => ?_
        cases finished with
        | true => exact (Stands.refl u).files hu
        | false => exact ih hu
      have hrest := resting_stands s
      cases hline : route.steps[(s.character .player).routeIndex]? with
      | none =>
          unfold after
          rw [walkLines_of_none hline]
          exact hend hs
      | some step =>
          cases step with
          | finish =>
              have hpassed := stands_adjusted (f := fun c => { c with routeIndex := route.length })
                (.of_footing fun _ => rfl) s
              unfold after
              rw [walkLines_of_finish hline]
              exact .after_stands hpassed (hend (hpassed.headed hs))
          | script line =>
              unfold after
              rw [walkLines_of_script hline]
              refine files_bind hs (hrest.runLine route _ line) fun next t ht => ?_
              exact files_bind ht ((resting_stands t).keep fun _ => rfl) fun _ u hu => ih hu
          | move m =>
              have hm : ∀ d, m.heading? = some d → Direction.isFourWay d = true :=
                fun d hd => hroute m d (List.mem_of_getElem? hline) hd
              unfold after
              rw [walkLines_of_move hline]
              refine files_bind_stands (files_takeStep hm hs) fun _ t => ?_
              refine preserves_getBind (P := (t.Stands ·)) (fun v => ?_) t (.refl t)
              exact Preserves.ite ((resting_stands t).keep fun _ => rfl) (preserves_pure _)

/-- **A frame of a route shifts the line by one step at most.** -/
theorem files_walk
    (hroute : (s.character .player).activeRoute.HeadsAlong fun d => Direction.isFourWay d = true)
    (hs : s.IsHeaded) : s.Files ((walk .player).after s) := by
  by_cases hwait : 0 < (s.character .player).waitCount
  · have hstands := stands_adjusted (f := fun c => { c with waitCount := c.waitCount - 1 })
      (.of_footing fun _ => rfl) s
    rw [after_of_ok (by rw [walk_apply, if_pos hwait])]
    exact hstands.files hs
  · unfold after
    rw [walk_apply, if_neg hwait]
    exact files_walkLines hroute _ hs

/-- A movement of an event leaves the player alone. -/
theorem roaming_player (id : Int) (p : Player) : Roaming (.event id) (fun _ => True) (·.player = p) where
  aside := fun _ _ _ _ hs => hs
  adjust := fun _ hs => hs
  somewhere := fun _ _ => trivial
  moveStraight := fun {s} {d} _ hs => by
    simp only [Act.moveStraight]
    split
    · exact hs
    · simp only [touch, eventTouch]
      split
      · exact hs
      · split
        · split <;> exact hs
        · exact hs

end Play

/-! ### Runs -/

namespace Session

variable {s t u : Session}

/-- A movement of an event or of the player, or a route that is forced on one of them. -/
inductive MovesTo (s : Session) : Session → Prop
  | steps {t : Session} (h : s.StepsTo t) : MovesTo s t
  | forces (who : CharacterId) (hwho : who.IsMover) (v : Json) :
      MovesTo s ((Play.forceRoute who v).after s)

/-- A run of movements, with the tiles that the player has left along it, the latest first.  A step that
fails leaves no tile. -/
inductive Treads (s : Session) : List Point → Session → Prop
  | start : Treads s [] s
  | stay {path : List Point} {t u : Session} (h : Treads s path t) (hmove : t.MovesTo u)
      (hstay : u.player.body.point = t.player.body.point) : Treads s path u
  | step {path : List Point} {t u : Session} (h : Treads s path t) (hmove : t.MovesTo u)
      (hgone : u.player.body.point ≠ t.player.body.point) :
      Treads s (t.player.body.point :: path) u

/-- **A movement shifts the line by one step at most**, and only one of the player does. -/
theorem StepsTo.files (h : s.StepsTo t) (hs : s.IsHeaded) : s.Files t := by
  have hevent : ∀ {u : Session}, u.player = s.player → s.Files u :=
    fun hu => (Stands.of_player hu).files hs
  cases h with
  | straight who hwho hd =>
      cases who with
      | player => exact (answers_moveStraight hd s).files
      | event id => exact hevent ((Play.roaming_player id _).moveStraight (Or.inl trivial) rfl)
      | follower place => exact hwho.elim
  | random who hwho =>
      cases who with
      | player => exact (answers_moveRandom hs).files
      | event id => exact hevent ((Play.roaming_player id _).moveRandom rfl)
      | follower place => exact hwho.elim
  | toward who hwho other =>
      cases who with
      | player => exact (answers_moveTowardPoint hs _).files
      | event id => exact hevent ((Play.roaming_player id _).moveTowardPoint rfl _)
      | follower place => exact hwho.elim
  | away who hwho other =>
      cases who with
      | player => exact (answers_moveAwayFromPoint hs _).files
      | event id => exact hevent ((Play.roaming_player id _).moveAwayFromPoint rfl _)
      | follower place => exact hwho.elim
  | towardPlayer who hwho =>
      cases who with
      | player => exact (answers_moveTowardPlayer hs).files
      | event id => exact hevent ((Play.roaming_player id _).moveTowardPlayer rfl)
      | follower place => exact hwho.elim
  | awayFromPlayer who hwho =>
      cases who with
      | player => exact (answers_moveAwayFromPlayer hs).files
      | event id => exact hevent ((Play.roaming_player id _).moveAwayFromPlayer rfl)
      | follower place => exact hwho.elim
  | forward who hwho =>
      cases who with
      | player => exact (answers_moveForward hs).files
      | event id => exact hevent ((Play.roaming_player id _).moveForward rfl)
      | follower place => exact hwho.elim
  | frame who hwho hroute =>
      have hheads := Route.headsAlong_read hroute
      cases who with
      | player => exact Play.files_walk hheads hs
      | event id => exact hevent ((Play.roaming_player id _).walk (fun _ _ => trivial) rfl)
      | follower place => exact hwho.elim

/-- A route that is forced on somebody moves nobody. -/
theorem stands_forceRoute {who : CharacterId} (hwho : who.IsMover) (v : Json) (s : Session) :
    s.Stands ((Play.forceRoute who v).after s) := by
  have hforced : ∀ (r : Option Route) (t : Session), s.Stands t →
      s.Stands (t.updateCharacter who (·.forceRoute r)) := by
    intro r t ht
    cases who with
    | event id => exact ht.trans (.of_player rfl)
    | follower place => exact hwho.elim
    | player =>
        have hpose : (t.player.body.forceRoute r).pose = t.player.body.pose := by
          unfold Character.forceRoute
          dsimp only
          split <;> rfl
        have hpoint : (t.player.body.forceRoute r).point = t.player.body.point :=
          congrArg Pose.point hpose
        refine ht.trans ⟨?_, congrArg Pose.direction hpose⟩
        change (t.player.body.forceRoute r).point :: _ = _
        rw [hpoint]
        rfl
  have hread : ∀ r : Reading (Option Route), (liftM r : Play (Option Route)).Preserves (s.Stands ·) :=
    fun r => Play.preserves_reading (fun t _ ht => ht.trans (.of_player rfl)) r
  exact ((hread _).bind fun r => Play.preserves_modify fun t ht => hforced r t ht) s (.refl s)

theorem MovesTo.files (h : s.MovesTo t) (hs : s.IsHeaded) : s.Files t := by
  cases h with
  | steps h => exact h.files hs
  | forces who hwho v => exact (stands_forceRoute hwho v s).files hs

/-! ### The line along a path -/

/-- The party stands along the path of its leader, which has come from a tile: each member where the
leader stood as many steps ago as there are members ahead, or on that tile. -/
structure Trails (p : Point) (path : List Point) (s : Session) : Prop where
  headed : s.IsHeaded
  line : ∀ k q, s.line[k]? = some q → q = (s.player.body.point :: path).getD k p
  near : ∀ k, ((s.player.body.point :: path).getD k p).taxiDistance
    ((s.player.body.point :: path).getD (k + 1) p) ≤ 1

variable {p : Point} {path : List Point}

theorem Trails.stays (hs : s.Trails p path) (ht : t.IsHeaded) (hline : t.line = s.line) :
    t.Trails p path := by
  have hpoint : t.player.body.point = s.player.body.point := point_eq_of_line hline
  constructor
  · exact ht
  · rw [hline, hpoint]
    exact hs.line
  · rw [hpoint]
    exact hs.near

/-- **A shift of the line is a step of the path.** -/
theorem Trails.shifts (hs : s.Trails p path) (ht : t.IsHeaded) (h : s.Shifts t) :
    t.Trails p (s.player.body.point :: path) := by
  obtain ⟨hnear, hline⟩ := h.goes
  constructor
  · exact ht
  · intro k q hq
    rw [hline] at hq
    cases k with
    | zero => exact (Option.some.inj hq).symm
    | succ k =>
        rw [List.getElem?_cons_succ, List.getElem?_dropLast] at hq
        split at hq
        · rw [List.getD_cons_succ]
          exact hs.line k q hq
        · cases hq
  · intro k
    cases k with
    | zero => exact hnear.le
    | succ k => exact hs.near k

/-- **Along a run the party stands along the path of its leader.** -/
theorem Treads.trails (h : s.Treads path t) (hs : s.Trails p []) :
    t.Trails p path ∧ t.line.length = s.line.length := by
  induction h with
  | start => exact ⟨hs, rfl⟩
  | stay _ hmove hstay ih =>
      have hfiles := hmove.files ih.1.headed
      exact ⟨ih.1.stays hfiles.headed (hfiles.stays hstay), hfiles.length_line.trans ih.2⟩
  | step _ hmove hgone ih =>
      have hfiles := hmove.files ih.1.headed
      exact ⟨ih.1.shifts hfiles.headed (hfiles.goes hgone), hfiles.length_line.trans ih.2⟩

/-- Neighbours in a line along a path are next to each other. -/
theorem Trails.isChain (h : s.Trails p path) :
    s.line.IsChain fun q q' => q.taxiDistance q' ≤ 1 := by
  rw [List.isChain_iff_getElem]
  intro k hk
  rw [h.line k _ (List.getElem?_eq_getElem (by omega)), h.line (k + 1) _ (List.getElem?_eq_getElem hk)]
  exact h.near k

/-- A party that was put on one tile stands along the empty path. -/
theorem trails_placeParty {d : Int} (hs : s.IsHeaded) (hd : d = 0 ∨ Direction.isFourWay d = true)
    (p : Point) : (s.placeParty p d).Trails p [] ∧ (s.placeParty p d).line.length = s.line.length := by
  have hplaced : ∀ (c : Character) (d : Int), ((c.locate p).face d).point = p := fun c d =>
    Character.point_face _ d
  have hleader : (s.placeParty p d).player.body.point = p := hplaced s.player.body d
  constructor
  · constructor
    · exact Character.isFourWay_face (c := s.player.body.locate p) hs hd
    · intro k q hq
      have hmem : q ∈ (s.placeParty p d).line := List.mem_of_getElem? hq
      have hhere : q = p := by
        rcases List.mem_cons.mp hmem with rfl | hmem
        · exact hleader
        · obtain ⟨c, hc, rfl⟩ := List.mem_map.mp hmem
          obtain ⟨c', -, rfl⟩ := List.mem_map.mp hc
          exact hplaced c' _
      cases k <;> simp [hhere, hleader]
    · intro k
      cases k <;> simp [hleader]
  · simp [Session.line, placeParty]

end Session

/-- A transfer puts the party on one tile. -/
theorem Play.trails_transfer {s t : Session} {map : Int} {p : Point} {d : Int} (hs : s.IsHeaded)
    (hd : d = 0 ∨ Direction.isFourWay d = true) (h : transfer map p d s = .ok () t) :
    t.Trails p [] ∧ t.line.length = s.line.length := by
  have hplace : ∀ u : Session, u.player = s.player → (do
      modify (Session.placeParty p d)
      let region ← playerRegion
      modify fun s => { s with player.lastRegion := region } : Play Unit) u = .ok () t →
      t.Trails p [] ∧ t.line.length = s.line.length := by
    intro u hu h
    have hheaded : u.IsHeaded := (Session.Stands.of_player hu).headed hs
    obtain ⟨htrails, hlength⟩ := Session.trails_placeParty hheaded hd p
    rw [modify_bind_apply] at h
    obtain ⟨region, v, hv, h⟩ := bind_eq_ok h
    obtain rfl := playerRegion_eq_ok hv
    cases h
    refine ⟨htrails.stays htrails.headed rfl, hlength.trans ?_⟩
    rw [Session.line, hu, Session.line]
  rw [transfer, get_bind_apply] at h
  split at h
  · obtain ⟨_, u, hu, h⟩ := bind_eq_ok h
    obtain ⟨-, -, hplayer, -⟩ := (setupMap_reads hu).1
    exact hplace u hplayer h
  · exact hplace s rfl h

namespace Session

/-- **The followers retrace the leader.**  After a transfer, however events and the player move, each
follower stands where the player stood as many steps ago as it has members ahead, or on the tile of the
transfer where the player has taken fewer steps; and two neighbours in the line are one step apart at
most. -/
theorem Treads.retraces {s t u : Session} {map : Int} {p : Point} {d : Int} {path : List Point}
    (hfacing : Direction.isFourWay s.player.body.direction = true)
    (hd : d = 0 ∨ Direction.isFourWay d = true) (harrive : Play.transfer map p d s = .ok () t)
    (h : t.Treads path u) :
    u.player.followers.length = s.player.followers.length ∧
      (∀ k c, u.player.followers[k]? = some c → c.point = path.getD k p) ∧
      (u.player.body.point :: u.player.followers.map Character.point).IsChain
        fun q q' => q.taxiDistance q' ≤ 1 := by
  obtain ⟨hstart, hlength⟩ := Play.trails_transfer hfacing hd harrive
  obtain ⟨htrails, hsame⟩ := h.trails hstart
  refine ⟨?_, ?_, htrails.isChain⟩
  · have hlines : u.line.length = s.line.length := hsame.trans hlength
    simpa [Session.line] using hlines
  · intro k c hc
    have hline : u.line[k + 1]? = some c.point := by simp [Session.line, hc]
    exact htrails.line (k + 1) c.point hline

/-! ### A walk around a corner -/

/-- A meadow with a party of three, which the player leads. -/
def meadow : Session where
  map := { id := 1, width := 4, height := 4 }
  player := { followers := [{ through := true }, { through := true }] }

/-- The meadow after the party was put on a tile. -/
def meadowEntered : Session := (Play.transfer 1 ⟨1, 1⟩ Direction.right).after meadow

/-- The meadow after a step to the right, and one down. -/
def meadowCrossed : Session :=
  (Act.moveStraight .player Direction.down (Act.moveForward .player meadowEntered).2).2

/-- Around the corner the first follower stands where the player turned, the second one where it came
from. -/
theorem retraces_meadow : Direction.isFourWay meadow.player.body.direction = true ∧
    Direction.isFourWay Direction.right = true ∧
    Play.transfer 1 ⟨1, 1⟩ Direction.right meadow = .ok () meadowEntered ∧
    meadowEntered.Treads [⟨2, 1⟩, ⟨1, 1⟩] meadowCrossed ∧
    meadowCrossed.player.body.point = ⟨2, 2⟩ ∧
    ∀ k c, meadowCrossed.player.followers[k]? = some c →
      c.point = ([⟨2, 1⟩, ⟨1, 1⟩] : List Point).getD k ⟨1, 1⟩ := by
  have harrive : Play.transfer 1 ⟨1, 1⟩ Direction.right meadow = .ok () meadowEntered :=
    Play.eq_ok_of_succeeds rfl
  have htreads : meadowEntered.Treads [⟨2, 1⟩, ⟨1, 1⟩] meadowCrossed := by
    refine .step (t := (Act.moveForward .player meadowEntered).2) ?_ ?_ ?_
    · exact .step .start (.steps (.forward _ .player trivial)) (by decide)
    · exact .steps (.straight _ .player trivial (by decide))
    · decide
  have hretraced := htreads.retraces (by decide) (Or.inr (by decide)) harrive
  exact ⟨by decide, by decide, harrive, htreads, by decide, hretraced.2.1⟩

end Session

end EventLayer
