/-
**What a character does on its tile.**

Most of what a character does on its way is no movement: it asks conditions, plays sounds, shows
balloons and keeps account of its route.  These writes leave it on its tile, facing the same way and
looking the same, no more in the way than before, and force no route on it.  A property that such writes leave is left by
every script line of a route, and by its end.

Main definitions:

* `Character.Lingers` — a change of a character that neither moves nor turns it;
* `Play.Resting` — properties that the writes of a resting character leave.

Main results:

* `Play.Resting.runLine` — **a script line keeps what a resting character keeps**;
* `Play.Resting.restoreRoute`, `Play.Resting.finishRoute` — and so does the end of a route.
-/
import EventLayer.Proofs.Preserves
import EventLayer.Proofs.Results
import EventLayer.Session.Walking

set_option autoImplicit false
set_option relaxedAutoImplicit false

namespace EventLayer

/-! ### Changes of a character -/

/-- How a character stands to others, and how it looks. -/
def Character.footing (c : Character) : Character :=
  { x := c.x, y := c.y, direction := c.direction, through := c.through, priority := c.priority,
    image := c.image, forcing := c.forcing }

/-- A character that is put on a route stands and looks as before. -/
theorem Character.footing_forceRoute (c : Character) (route : Option Route) :
    (c.forceRoute route).footing = { c.footing with forcing := true } := by
  simp only [forceRoute, footing]
  split <;> rfl

/-- A change of a character that neither moves nor turns it, leaves it as much in the way and with the
same looks, and forces no route on it. -/
structure Character.Lingers (f : Character → Character) : Prop where
  pose : ∀ c, (f c).pose = c.pose
  image : ∀ c, (f c).image = c.image
  through : ∀ c, (f c).through = c.through
  priority : ∀ c, (f c).priority = c.priority
  forcing : ∀ c, (f c).forcing = true → c.forcing = true

namespace Character

theorem Lingers.of_footing {f : Character → Character} (h : ∀ c, (f c).footing = c.footing) :
    Lingers f where
  pose := fun c => by
    have hsame : (f c).footing.pose = c.footing.pose := congrArg Character.pose (h c)
    exact hsame
  image := fun c => congrArg (·.image) (h c)
  through := fun c => congrArg (·.through) (h c)
  priority := fun c => congrArg (·.priority) (h c)
  forcing := fun c hf => (congrArg (·.forcing) (h c)).symm.trans hf

/-- A route that is taken up again is not forced. -/
theorem lingers_restoreRoute : Lingers restoreRoute where
  pose := fun _ => rfl
  image := fun _ => rfl
  through := fun _ => rfl
  priority := fun _ => rfl
  forcing := fun _ hf => by cases hf

end Character

/-! ### Writes on a tile -/

namespace Play

open Session Character

/-- A property of sessions that the writes of a character leave while it rests on its tile. -/
structure Resting (who : CharacterId) (P : Session → Prop) : Prop where
  aside : ∀ {s : Session} (draws : Draws) (balloons : List (CharacterId × Int)) (audio : List Sound)
    (notices : List Notice), P s →
      P { s with draws, scratch.balloons := balloons, audio := audio, notices := notices }
  linger : ∀ {s : Session} {f : Character → Character}, Lingers f → P s → P (s.updateCharacter who f)

namespace Resting

variable {who : CharacterId} {P : Session → Prop} {s : Session}

theorem keep (h : Resting who P) {f : Character → Character}
    (hf : ∀ c, (f c).footing = c.footing) : (Play.onCharacter who f).Preserves P :=
  preserves_modify fun _ hs => h.linger (.of_footing hf) hs

theorem setDraws (h : Resting who P) (draws : Draws) (hs : P s) : P { s with draws } :=
  h.aside draws s.scratch.balloons s.audio s.notices hs

theorem addNotices (h : Resting who P) (notices : List Notice) (hs : P s) : P { s with notices } :=
  h.aside s.draws s.scratch.balloons s.audio notices hs

theorem note (h : Resting who P) (n : Notice) : (Play.note n).Preserves P :=
  preserves_modify fun _ hs => h.addNotices _ hs

/-! ### Sounds, balloons and conditions -/

theorem playSound (h : Resting who P) (v : Json) : (Play.playSound v).Preserves P := by
  refine (preserves_except _).bind fun sound => ?_
  split
  · exact preserves_modify fun s hs => h.aside s.draws s.scratch.balloons _ s.notices hs
  · exact preserves_pure ()

theorem changeSound (h : Resting who P) (name : String) (volume pitch : Int) :
    (Play.changeSound who name volume pitch).Preserves P := by
  refine preserves_getBind fun s => Preserves.ite ?_ (preserves_pure ())
  exact (h.playSound _).bind fun _ => h.keep fun _ => rfl

theorem requestBalloon (h : Resting who P) (hs : P s) (id : Int) : P (s.requestBalloon who id) := by
  have hshown : P (s.updateCharacter who fun c => { c with balloon := id }) :=
    h.linger (.of_footing fun _ => rfl) hs
  exact h.aside _ _ _ _ hshown

theorem showBalloon (h : Resting who P) (id : Int) : (Play.showBalloon who id).Preserves P :=
  Preserves.bind (preserves_modify fun _ hs => h.requestBalloon hs id) fun _ => h.keep fun _ => rfl

theorem changeBalloon (h : Resting who P) (id : Int) : (Play.changeBalloon who id).Preserves P :=
  preserves_getBind fun _ => (h.showBalloon id).ite (preserves_pure ())

/-- Asking whether a condition holds may take a draw, nothing else. -/
theorem holds (h : Resting who P) (c : RouteCondition) : (c.holds who).Preserves P := by
  intro s hs
  cases c with
  | const v => exact hs
  | switchIs id expected => exact hs
  | selfSwitchIs channel expected => exact hs
  | variableIs id relation operand => exact preserves_except _ s hs
  | playerWithin distance inside => exact hs
  | facing d => exact hs
  | chance p => exact h.setDraws _ hs

/-! ### Script lines -/

theorem enter (h : Resting who P) (taken : Bool) (i j : Nat) :
    (if taken then do
        Play.onCharacter who fun h => { h with branches := true :: h.branches.tail }
        return i
      else return j : Play Nat).Preserves P :=
  Preserves.ite (Preserves.bind (h.keep fun _ => rfl) fun _ => preserves_pure _) (preserves_pure _)

theorem openBranch (h : Resting who P) (route : Route) (i : Nat) (c : RouteCondition) :
    (Play.openBranch who route i c).Preserves P := by
  refine Preserves.bind (h.keep fun _ => rfl) fun _ => ?_
  exact (h.holds c).bind fun taken => h.enter taken _ _

theorem nextBranch (h : Resting who P) (route : Route) (i : Nat) (c : Option RouteCondition) :
    (Play.nextBranch who route i c).Preserves P := by
  refine preserves_getBind fun s => (preserves_pure _).ite ?_
  cases c with
  | none => exact h.enter true _ (route.failTarget i)
  | some c => exact (h.holds c).bind fun taken => h.enter taken _ _

theorem closeBranch (h : Resting who P) (i : Nat) : (Play.closeBranch who i).Preserves P := by
  refine preserves_getBind fun s => ?_
  dsimp only
  split
  · exact Preserves.bind (h.keep fun _ => rfl) fun _ => preserves_pure _
  · exact (h.note _).bind fun _ => preserves_pure _

/-- **A script line keeps what a resting character keeps.** -/
theorem runLine (h : Resting who P) (route : Route) (i : Nat) (line : RouteInstruction) :
    (Play.runLine who route i line).Preserves P := by
  cases line with
  | openIf c => exact h.openBranch route i c
  | orElse c => exact h.nextBranch route i c
  | endIf => exact h.closeBranch i
  | setSound name volume pitch => exact (h.changeSound name volume pitch).bind fun _ => preserves_pure _
  | unsetSound => exact Preserves.bind (h.keep fun _ => rfl) fun _ => preserves_pure _
  | setBalloon id => exact (h.changeBalloon id).bind fun _ => preserves_pure _
  | unsetBalloon => exact Preserves.bind (h.keep fun _ => rfl) fun _ => preserves_pure _
  | showBalloon id => exact (h.showBalloon id).bind fun _ => preserves_pure _

/-! ### The end of a route -/

theorem restoreRoute (h : Resting who P) : (Play.restoreRoute who).Preserves P := by
  refine preserves_getBind fun s => Preserves.bind (preserves_modify ?_) fun _ => ?_
  · intro t ht
    exact h.addNotices _ ht
  · exact preserves_modify fun _ ht => h.linger lingers_restoreRoute ht

theorem finishRoute (h : Resting who P) : (Play.finishRoute who).Preserves P := by
  refine preserves_getBind fun s => ?_
  dsimp only
  split
  · exact Preserves.bind (h.keep fun _ => rfl) fun _ => preserves_pure _
  · split
    · exact h.restoreRoute.bind fun _ => preserves_pure _
    · exact preserves_pure _

end Resting

end Play

end EventLayer
