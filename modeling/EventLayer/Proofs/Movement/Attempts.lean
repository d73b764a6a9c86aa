/-
**Attempted steps.**

A character tries to step onto a neighbouring tile in many ways: by a direct step, forward, at random,
toward a tile or away from it, toward the player or away from it, and by a line of a route.  All of them
come down to the one direct step.  Around it only little is written: the draws go on, and the character
notes whether it got ahead and how far its route has come.  None of this matters to who stands in whose
way, and to what is about to run.

Main definitions:

* `Character.Notes` — a character notes what has come of its route;
* `Move.act?` — the step that a line of a route takes;
* `Session.Attempts` — **a character tries to step in a direction**;
* `Session.StepsNoting` — a direct step between notes.

Main results:

* `Play.walkLines_of_act` — a line of a route that takes a step;
* `Session.Attempts.stepsNoting` — **an attempt is a direct step between notes**;
* `Session.isEventRunning_updateCharacter` — a change of a character starts nothing;
* `Session.canPass_noted` — notes make no difference to a step.
-/
import EventLayer.Proofs.Character.Course
import EventLayer.Proofs.Movement.Roaming

set_option autoImplicit false
set_option relaxedAutoImplicit false

namespace EventLayer

/-! ### Notes of a character -/

/-- A character notes whether it got ahead, and how far its route has come. -/
def Character.Notes (f : Character → Character) : Prop :=
  ∀ c, ∃ b i, f c = { c with moveSucceeded := b, routeIndex := i }

namespace Character

variable {f g : Character → Character}

theorem notes_id : Notes id := fun _ => ⟨_, _, rfl⟩

theorem Notes.comp (hg : Notes g) (hf : Notes f) : Notes fun c => g (f c) := by
  intro c
  obtain ⟨_, _, hc⟩ := hf c
  obtain ⟨b, i, hc'⟩ := hg (f c)
  exact ⟨b, i, hc'.trans (by rw [hc])⟩

/-- What looks neither at success nor at the route does not see the notes. -/
theorem Notes.keeps {β : Type} (hf : Notes f) (look : Character → β)
    (h : ∀ c b i, look { c with moveSucceeded := b, routeIndex := i } = look c) (c : Character) :
    look (f c) = look c := by
  obtain ⟨b, i, hc⟩ := hf c
  rw [hc, h]

end Character

/-- The step that a line of a route takes, if it takes one. -/
def Move.act? (who : CharacterId) : Move → Option (Act Bool)
  | .step d => some (Act.moveStraight who d)
  | .random => some (Act.moveRandom who)
  | .towardPlayer => some (Act.moveTowardPlayer who)
  | .awayFromPlayer => some (Act.moveAwayFromPlayer who)
  | .forward => some (Act.moveForward who)
  | _ => none

namespace Session

/-! ### Changes of a character -/

variable {s t : Session} {who : CharacterId} {d : Int}

/-- A character that is not changed. -/
theorem updateCharacter_id (who : CharacterId) (s : Session) : s.updateCharacter who id = s := by
  cases who with
  | player => rfl
  | follower place => rw [updateCharacter, List.modify_id]
  | event id =>
      have hwhole : ∀ m : OrderedMap Int MapEvent, m.mapValues (fun e => e) = m := fun m =>
        congrArg OrderedMap.mk (List.map_id m.entries)
      have hevents : s.map.events.modify id (fun e => e) = s.map.events := by
        rw [← hwhole (s.map.events.modify id _), OrderedMap.mapValues_modify fun _ => rfl, hwhole]
      exact congrArg (fun events => { s with map.events := events }) hevents

/-- The draws are no matter of the characters. -/
theorem updateCharacter_draws (f : Character → Character) (draws : Draws) (s : Session) :
    ({ s.updateCharacter who f with draws } : Session) =
      ({ s with draws } : Session).updateCharacter who f := by
  cases who <;> rfl

/-- A session in which a character is ready for the step of its route. -/
def readied (who : CharacterId) (s : Session) : Session :=
  s.updateCharacter who fun c => { c with moveSucceeded := true }

/-! ### Attempts -/

/-- A character tries to step in a direction, and this is what comes of it.  At random it tries only where
there is a way. -/
inductive Attempts (who : CharacterId) (d : Int) : Session → Session → Prop
  | straight (s : Session) : Attempts who d s (Act.moveStraight who d s).2
  | forward {s : Session} (hd : (s.character who).direction = d) :
      Attempts who d s (Act.moveForward who s).2
  | random {s : Session} (hd : 2 + 2 * (s.draws.below 4).1 = d)
      (hway : s.canPass who (s.character who).point d = true) : Attempts who d s (Act.moveRandom who s).2
  | toward {s : Session} (p : Point) (hd : Direction.toward (s.character who).point p = d) (h : d ≠ 0) :
      Attempts who d s (Act.moveTowardPoint who p s).2
  | away {s : Session} (p : Point) (h : Direction.toward (s.character who).point p ≠ 0)
      (hd : Direction.reverse (Direction.toward (s.character who).point p) = d) :
      Attempts who d s (Act.moveAwayFromPoint who p s).2
  | towardPlayer {s : Session} (hregard : s.ignoresPlayer who = false)
      (hd : Direction.toward (s.character who).point s.player.body.point = d) (h : d ≠ 0) :
      Attempts who d s (Act.moveTowardPlayer who s).2
  | awayFromPlayer {s : Session} (hregard : s.ignoresPlayer who = false)
      (h : Direction.toward (s.character who).point s.player.body.point ≠ 0)
      (hd : Direction.reverse (Direction.toward (s.character who).point s.player.body.point) = d) :
      Attempts who d s (Act.moveAwayFromPlayer who s).2
  -- a route has come to a line that takes a step
  | line {s : Session} {route : Route} {m : Move} {a : Act Bool} (budget : Nat)
      (hm : route.steps[(s.character who).routeIndex]? = some (.move m)) (ha : m.act? who = some a)
      (h : Attempts who d (s.readied who) (a (s.readied who)).2) :
      Attempts who d s ((Play.walkLines who route (budget + 1)).after s)

end Session

/-! ### Lines of a route -/

namespace Play

open Session

variable {who : CharacterId} {m : Move} {a : Act Bool}

theorem takeStep_of_act (ha : m.act? who = some a) (s : Session) :
    takeStep who m s = .ok () (a (s.readied who)).2 := by
  cases m with
  | step d => cases ha; rfl
  | random => cases ha; rfl
  | towardPlayer => cases ha; rfl
  | awayFromPlayer => cases ha; rfl
  | forward => cases ha; rfl
  | wait frames => cases ha
  | turn d => cases ha
  | playSound sound => cases ha
  | idle => cases ha
  | faulty e => cases ha

/-- **A line of a route that takes a step.**  Then the character notes how far its route has come. -/
theorem walkLines_of_act {s : Session} {route : Route}
    (hm : route.steps[(s.character who).routeIndex]? = some (.move m)) (ha : m.act? who = some a)
    (budget : Nat) : ∃ g, Character.Notes g ∧
      (walkLines who route (budget + 1)).after s = ((a (s.readied who)).2).updateCharacter who g := by
  have hwalk : walkLines who route (budget + 1) s = (do
      if ((← get).character who).moveSucceeded || route.skippable then
        onCharacter who fun c => { c with routeIndex := c.routeIndex + 1 } : Play Unit)
          (a (s.readied who)).2 := by
    rw [walkLines, get_bind_apply]
    simp only [hm]
    exact bind_of_ok (takeStep_of_act ha s)
  rw [after, hwalk, get_bind_apply]
  by_cases hon : (((a (s.readied who)).2.character who).moveSucceeded || route.skippable) = true
  · rw [if_pos hon]
    exact ⟨fun c => { c with routeIndex := c.routeIndex + 1 }, fun c => ⟨_, _, rfl⟩, rfl⟩
  · rw [if_neg hon]
    exact ⟨id, Character.notes_id, (updateCharacter_id who _).symm⟩

end Play

namespace Session

variable {s t : Session} {who : CharacterId} {d : Int}

/-- A direct step, before which something may be drawn, between notes of the character. -/
def StepsNoting (who : CharacterId) (d : Int) (s t : Session) : Prop :=
  ∃ draws f g, Character.Notes f ∧ Character.Notes g ∧
    t = ((Act.moveStraight who d
      (({ s with draws } : Session).updateCharacter who f)).2).updateCharacter who g

theorem stepsNoting_moveStraight (who : CharacterId) (d : Int) (s : Session) (draws : Draws) :
    StepsNoting who d s (Act.moveStraight who d { s with draws }).2 := by
  refine ⟨draws, id, id, Character.notes_id, Character.notes_id, ?_⟩
  rw [updateCharacter_id, updateCharacter_id]

/-- **An attempt is a direct step between notes.** -/
theorem Attempts.stepsNoting (h : s.Attempts who d t) : StepsNoting who d s t := by
  induction h with
  | straight s => exact stepsNoting_moveStraight who d s s.draws
  | @forward s hd =>
      subst hd
      exact stepsNoting_moveStraight who _ s s.draws
  | @random s hd hway =>
      subst hd
      have hstep : (Act.moveRandom who s).2 =
          (Act.moveStraight who (2 + 2 * (s.draws.below 4).1) { s with draws := (s.draws.below 4).2 }).2 :=
        congrArg Prod.snd (if_pos hway)
      rw [hstep]
      exact stepsNoting_moveStraight who _ s _
  | @toward s p hd h =>
      subst hd
      rw [Act.moveTowardPoint, if_neg h]
      exact stepsNoting_moveStraight who _ s s.draws
  | @away s p h hd =>
      subst hd
      rw [Act.moveAwayFromPoint, if_neg h]
      exact stepsNoting_moveStraight who _ s s.draws
  | @towardPlayer s hregard hd h =>
      subst hd
      have hstep : Act.moveTowardPlayer who s =
          Act.moveStraight who (Direction.toward (s.character who).point s.player.body.point) s := by
        rw [Act.moveTowardPlayer, hregard]
        exact if_neg h
      rw [hstep]
      exact stepsNoting_moveStraight who _ s s.draws
  | @awayFromPlayer s hregard h hd =>
      subst hd
      have hstep : Act.moveAwayFromPlayer who s = Act.moveStraight who
          (Direction.reverse (Direction.toward (s.character who).point s.player.body.point)) s := by
        rw [Act.moveAwayFromPlayer, hregard]
        exact if_neg h
      rw [hstep]
      exact stepsNoting_moveStraight who _ s s.draws
  | @line s route m a budget hm ha _ ih =>
      obtain ⟨g', hg', hwalk⟩ := Play.walkLines_of_act hm ha budget
      obtain ⟨draws, f, g, hf, hg, hstep⟩ := ih
      refine ⟨draws, _, _, hf.comp fun c => ⟨true, c.routeIndex, rfl⟩, hg'.comp hg, ?_⟩
      rw [hwalk, hstep, readied, updateCharacter_draws, updateCharacter_updateCharacter,
        updateCharacter_updateCharacter]

/-! ### What notes leave -/

variable {f : Character → Character}

/-- What looks at nothing but events, and not at their bodies, does not see a change of a character. -/
theorem any_eventList_updateCharacter {test : MapEvent → Bool}
    (h : ∀ e : MapEvent, test { e with body := f e.body } = test e) (who : CharacterId) (s : Session) :
    (s.updateCharacter who f).map.eventList.any test = s.map.eventList.any test := by
  cases who with
  | player => rfl
  | follower place => rfl
  | event id =>
      have hsame := congrArg OrderedMap.values (OrderedMap.mapValues_modify h s.map.events id)
      rw [OrderedMap.values_mapValues, OrderedMap.values_mapValues] at hsame
      have hany := congrArg (fun l : List Bool => l.any fun b => b) hsame
      simp only [List.any_map] at hany
      exact hany

/-- What is about to run is not changed with a character. -/
theorem isEventRunning_updateCharacter (who : CharacterId) (f : Character → Character) (s : Session) :
    (s.updateCharacter who f).isEventRunning = s.isEventRunning := by
  have hstarting : (s.updateCharacter who f).map.anyStarting = s.map.anyStarting :=
    any_eventList_updateCharacter (fun _ => rfl) who s
  rw [isEventRunning, hstarting]
  cases who <;> rfl

/-- Notes stand in nobody's way. -/
theorem eventBlocks_noted (hf : Character.Notes f) (s : Session) (who w : CharacterId) (p : Point) :
    (s.updateCharacter who f).eventBlocks w p = s.eventBlocks w p := by
  rw [eventBlocks, MapState.eventsAt, List.any_filter, eventBlocks, MapState.eventsAt, List.any_filter]
  refine any_eventList_updateCharacter (fun e => ?_) who s
  have hat : (f e.body).isAt p = e.body.isAt p :=
    hf.keeps (fun c => c.isAt p) (fun _ _ _ => rfl) e.body
  have hthrough := hf.keeps Character.through (fun _ _ _ => rfl) e.body
  have hnormal := hf.keeps Character.isNormal (fun _ _ _ => rfl) e.body
  simp only [MapEvent.isSolid, hat, hthrough, hnormal]

/-- What does not look at notes sees the character as before. -/
theorem character_noted {β : Type} (hf : Character.Notes f) (look : Character → β)
    (h : ∀ c b i, look { c with moveSucceeded := b, routeIndex := i } = look c) (s : Session)
    (who : CharacterId) : look ((s.updateCharacter who f).character who) = look (s.character who) := by
  rw [character, character?_updateCharacter_self, character]
  cases s.character? who with
  | none => rfl
  | some c => exact hf.keeps look h c

/-- **Notes make no difference to a step.** -/
theorem canPass_noted (hf : Character.Notes f) (s : Session) (who : CharacterId) (p : Point) (d : Int) :
    (s.updateCharacter who f).canPass who p d = s.canPass who p d := by
  have hmap : (s.updateCharacter who f).map.isValid = s.map.isValid ∧
      (s.updateCharacter who f).map.isPassable = s.map.isPassable := by
    cases who <;> exact ⟨rfl, rfl⟩
  have hthrough := character_noted hf Character.through (fun _ _ _ => rfl) s who
  have hnormal := character_noted hf Character.isNormal (fun _ _ _ => rfl) s who
  have hblocked : (s.updateCharacter who f).isBlockedBy who (p.step d) = s.isBlockedBy who (p.step d) := by
    have hevents := eventBlocks_noted hf s who who (p.step d)
    cases who with
    | player => exact hevents
    | follower place => exact hevents
    | event id =>
        rw [isBlockedBy, hevents, hnormal]
        rfl
  rw [canPass, canPass, hmap.1, hmap.2, hthrough, hblocked]

end Session

end EventLayer
