/-
**Who writes the course of a character.**

Of a character's fields six belong to its routes: the current route and the position in it, the
route that was put aside with its position, the mark of a forced route, and the branches taken in
the open chains.  Together they are its course.  Stepping, turning, bumping into something, showing
a balloon, playing a sound and asking whether a condition holds leave the course of every character
alone; only the script lines and the ends of a route, and the operations that hand a character a
route, write it.

Main definitions:

* `Course`, `Character.course`, `Session.course?` — the fields that belong to routes;
* `Play.SteersNobody` — an operation that leaves the course of every character as it was.

Main results:

* `Session.course?_updateCharacter`, `Session.course?_updateCharacter_self` — changing a character;
* `Play.steersNobody_takeStep`, `Play.steersNobody_holds` — **steps and conditions leave every
  course as it was**.
-/
import EventLayer.Proofs.OrderedMap
import EventLayer.Proofs.Preserves
import EventLayer.Session.Walking

set_option autoImplicit false
set_option relaxedAutoImplicit false

namespace EventLayer

/-- The part of a character that belongs to its routes. -/
@[ext] structure Course where
  route : Option Route
  index : Nat
  savedRoute : Option Route
  savedIndex : Nat
  forcing : Bool
  branches : List Bool

namespace Character

/-- The part of a character that belongs to its routes. -/
def course (c : Character) : Course :=
  ⟨c.route, c.routeIndex, c.savedRoute, c.savedIndex, c.forcing, c.branches⟩

@[simp] theorem course_face (c : Character) (d : Int) : (c.face d).course = c.course := by
  unfold face
  split <;> rfl

@[simp] theorem course_locate (c : Character) (p : Point) : (c.locate p).course = c.course := rfl

theorem course_stepped (c : Character) (d : Int) : (Session.stepped c d).course = c.course :=
  course_face c d

theorem course_stuck (c : Character) (d : Int) : (Session.stuck c d).course = c.course :=
  course_face c d

end Character

/-! ### Changing characters -/

namespace Session

/-- The course of the character that is meant, if there is one. -/
def course? (s : Session) (who : CharacterId) : Option Course :=
  (s.character? who).map Character.course

theorem course?_def (s : Session) (who : CharacterId) :
    s.course? who = (s.character? who).map Character.course := rfl

/-- A change of an event that keeps the course of its body keeps every course. -/
theorem course?_updateEvent {f : MapEvent → MapEvent} {id : Int} {s : Session}
    (h : ∀ e, (f e).body.course = e.body.course) : (s.updateEvent id f).course? = s.course? := by
  funext who
  cases who with
  | player => rfl
  | follower place => rfl
  | event id' =>
      simp only [course?_def, character?, event?, updateEvent, MapState.event?, MapState.update,
        OrderedMap.get?_modify]
      split
      · next hid =>
          obtain rfl : id = id' := by simpa using hid
          cases s.map.events.get? id with
          | none => rfl
          | some e => simp [h]
      · rfl

/-- A change of a character that keeps its course keeps every course. -/
theorem course?_updateCharacter {f : Character → Character} {who : CharacterId} {s : Session}
    (h : ∀ c, (f c).course = c.course) : (s.updateCharacter who f).course? = s.course? := by
  cases who with
  | event id => exact course?_updateEvent fun e => h e.body
  | player =>
      funext who'
      cases who' with
      | player => simp [course?_def, character?, updateCharacter, h]
      | event id => rfl
      | follower place => rfl
  | follower place =>
      funext who'
      cases who' with
      | player => rfl
      | event id => rfl
      | follower place' =>
          simp only [course?_def, character?, updateCharacter, List.getElem?_modify]
          cases s.player.followers[place' - 1]? with
          | none => rfl
          | some c =>
              by_cases hp : place - 1 = place' - 1
              · simp [hp, h]
              · simp [hp]

/-- The character that was changed. -/
theorem character?_updateCharacter_self (who : CharacterId) (f : Character → Character)
    (s : Session) :
    (s.updateCharacter who f).character? who = (s.character? who).map f := by
  cases who with
  | player => rfl
  | follower place =>
      simp [character?, updateCharacter]
  | event id =>
      simp only [character?, event?, updateCharacter, updateEvent, MapState.event?, MapState.update,
        OrderedMap.get?_modify]
      cases s.map.events.get? id with
      | none => simp
      | some e => simp

/-- Changing a character twice. -/
theorem updateCharacter_updateCharacter {who : CharacterId} (f g : Character → Character)
    (s : Session) :
    (s.updateCharacter who f).updateCharacter who g = s.updateCharacter who fun c => g (f c) := by
  cases who with
  | player => rfl
  | follower place =>
      simp only [updateCharacter, List.modify_modify_eq]
      rfl
  | event id => simp only [updateCharacter, updateEvent, MapState.update, OrderedMap.modify_modify]

/-- The course of the character that was changed. -/
theorem course?_updateCharacter_self {who : CharacterId} {f : Character → Character} {s : Session}
    {g : Course → Course} (h : ∀ c, (f c).course = g c.course) :
    (s.updateCharacter who f).course? who = (s.course? who).map g := by
  rw [course?_def, character?_updateCharacter_self, course?_def]
  cases s.character? who with
  | none => rfl
  | some c => simp [h]

theorem course_character {who : CharacterId} {s : Session} {c : Course}
    (h : s.course? who = some c) : (s.character who).course = c := by
  rw [course?_def, Option.map_eq_some_iff] at h
  obtain ⟨body, hb, rfl⟩ := h
  rw [character, hb]
  rfl

theorem course?_startWhere (test : MapEvent → Bool) (s : Session) :
    (s.startWhere test).course? = s.course? := by
  funext who
  cases who with
  | player => rfl
  | follower place => rfl
  | event id =>
      simp only [course?_def, character?, event?, startWhere, MapState.event?,
        OrderedMap.get?_mapValues]
      cases s.map.events.get? id with
      | none => rfl
      | some e => by_cases ht : test e <;> simp [ht]

theorem course?_touch (who : CharacterId) (p : Point) (s : Session) :
    (s.touch who p).course? = s.course? := by
  cases who with
  | follower place => rfl
  | player =>
      simp only [touch, playerTouch]
      split
      · rfl
      · exact course?_startWhere _ s
  | event id =>
      simp only [touch, eventTouch]
      split
      · rfl
      · split
        · next e _ =>
            split
            · exact course?_updateEvent fun e => by rw [MapEvent.body_startIfAny]
            · rfl
        · rfl

theorem map_course_followTrail (trail : Point) (l : List Character) :
    (followTrail trail l).map Character.course = l.map Character.course := by
  induction l generalizing trail with
  | nil => rfl
  | cons c rest ih =>
      have hc : ∀ p : Point, ({ (c.face (Direction.toward c.point trail)).locate p with
          moved := true } : Character).course = c.course := fun p =>
        (Character.course_locate _ p).trans (Character.course_face c _)
      simp only [followTrail, List.map_cons, ih]
      split
      · rfl
      · rw [hc]

theorem course?_followPlayer (s : Session) : s.followPlayer.course? = s.course? := by
  funext who
  cases who with
  | player => rfl
  | event id => rfl
  | follower place =>
      simp only [course?_def, character?, followPlayer, ← List.getElem?_map,
        map_course_followTrail]

theorem course?_afterStep (who : CharacterId) (s : Session) :
    (s.afterStep who).course? = s.course? := by
  cases who with
  | player => exact course?_followPlayer s
  | event id => rfl
  | follower place => rfl

end Session

/-! ### Steps -/

namespace Act

open Session

variable {α : Type}

/-- An operation that cannot fail and leaves the course of every character as it was. -/
def SteersNobody (a : Act α) : Prop := ∀ s : Session, (a s).2.course? = s.course?

theorem steersNobody_moveStraight (who : CharacterId) (d : Int) :
    SteersNobody (moveStraight who d) := by
  intro s
  simp only [moveStraight]
  split
  · rw [course?_afterStep]
    exact course?_updateCharacter fun c => c.course_stepped d
  · rw [course?_touch]
    exact course?_updateCharacter fun c => c.course_stuck d

theorem steersNobody_moveRandom (who : CharacterId) : SteersNobody (moveRandom who) := by
  intro s
  simp only [moveRandom]
  split
  · exact steersNobody_moveStraight who _ _
  · exact course?_updateCharacter fun _ => rfl

theorem steersNobody_moveForward (who : CharacterId) : SteersNobody (moveForward who) :=
  fun s => steersNobody_moveStraight who _ s

theorem steersNobody_moveTowardPoint (who : CharacterId) (p : Point) :
    SteersNobody (moveTowardPoint who p) := by
  intro s
  simp only [moveTowardPoint]
  split
  · rfl
  · exact steersNobody_moveStraight who _ s

theorem steersNobody_moveAwayFromPoint (who : CharacterId) (p : Point) :
    SteersNobody (moveAwayFromPoint who p) := by
  intro s
  simp only [moveAwayFromPoint]
  split
  · rfl
  · exact steersNobody_moveStraight who _ s

theorem steersNobody_moveTowardPlayer (who : CharacterId) :
    SteersNobody (moveTowardPlayer who) := by
  intro s
  simp only [moveTowardPlayer]
  split
  · exact steersNobody_moveRandom who s
  · exact steersNobody_moveTowardPoint who _ s

theorem steersNobody_moveAwayFromPlayer (who : CharacterId) :
    SteersNobody (moveAwayFromPlayer who) := by
  intro s
  simp only [moveAwayFromPlayer]
  split
  · exact steersNobody_moveRandom who s
  · exact steersNobody_moveAwayFromPoint who _ s

end Act

namespace Play

open Session

variable {α β : Type}

/-- An operation that leaves the course of every character as it was. -/
def SteersNobody (act : Play α) : Prop := ∀ s : Session, (act.after s).course? = s.course?

theorem SteersNobody.preserves {act : Play α} (h : act.SteersNobody)
    (P : (CharacterId → Option Course) → Prop) : act.Preserves fun s => P s.course? := by
  intro s hs
  rwa [h s]

/-- It is enough that an operation preserves every value of the courses. -/
theorem SteersNobody.of_preserves {act : Play α}
    (h : ∀ c, act.Preserves fun s => s.course? = c) : act.SteersNobody :=
  fun s => h s.course? s rfl

theorem SteersNobody.of_ok {act : Play α} (h : act.SteersNobody) {s t : Session} {a : α}
    (hs : act s = .ok a t) : t.course? = s.course? := by
  rw [← h s, after_of_ok hs]

theorem steersNobody_act {a : Act α} (h : a.SteersNobody) : (liftM a : Play α).SteersNobody := h

theorem steersNobody_onCharacter {who : CharacterId} {f : Character → Character}
    (h : ∀ c, (f c).course = c.course) : (onCharacter who f).SteersNobody :=
  fun _ => course?_updateCharacter h

theorem SteersNobody.bind {x : Play α} {f : α → Play β} (hx : x.SteersNobody)
    (hf : ∀ a, (f a).SteersNobody) : (x >>= f).SteersNobody :=
  .of_preserves fun c => Preserves.bind (hx.preserves (· = c)) fun a => (hf a).preserves (· = c)

theorem SteersNobody.discard {x : Play α} (hx : x.SteersNobody) :
    (Functor.discard x : Play PUnit).SteersNobody :=
  .of_preserves fun c => (hx.preserves (· = c)).discard

theorem SteersNobody.getBind {f : Session → Play β} (h : ∀ s, (f s).SteersNobody) :
    (get >>= f : Play β).SteersNobody := fun s => h s s

theorem steersNobody_pure (a : α) : (pure a : Play α).SteersNobody := fun _ => rfl

theorem steersNobody_except (r : Except Fault α) : (liftM r : Play α).SteersNobody := by
  cases r <;> exact fun _ => rfl

/-! ### Sounds, balloons and conditions -/

theorem steersNobody_playSound (v : Json) : (playSound v).SteersNobody := by
  refine SteersNobody.bind (fun s => ?_) fun found => ?_
  · unfold after
    cases hv : Sound.read v <;> rfl
  · cases found <;> exact fun _ => rfl

theorem steersNobody_changeSound (who : CharacterId) (name : String) (volume pitch : Int) :
    (changeSound who name volume pitch).SteersNobody := by
  refine SteersNobody.getBind fun s => ?_
  dsimp only
  split
  · exact SteersNobody.bind (steersNobody_playSound _)
      fun _ => steersNobody_onCharacter fun _ => rfl
  · exact steersNobody_pure ()

theorem steersNobody_showBalloon (who : CharacterId) (id : Int) :
    (showBalloon who id).SteersNobody := by
  refine SteersNobody.bind (fun s => ?_) fun _ => steersNobody_onCharacter fun _ => rfl
  exact course?_updateCharacter fun _ => rfl

theorem steersNobody_changeBalloon (who : CharacterId) (id : Int) :
    (changeBalloon who id).SteersNobody := by
  refine SteersNobody.getBind fun s => ?_
  split
  · exact steersNobody_showBalloon who id
  · exact steersNobody_pure ()

/-- Asking whether a condition holds may take a draw, nothing else. -/
theorem steersNobody_holds (c : RouteCondition) (who : CharacterId) :
    (c.holds who).SteersNobody := by
  intro s
  cases c with
  | const v => rfl
  | switchIs id expected => rfl
  | selfSwitchIs channel expected => rfl
  | variableIs id relation operand => exact steersNobody_except _ s
  | playerWithin distance inside => rfl
  | facing d => rfl
  | chance p => rfl

/-! ### Steps of a route -/

/-- **A step of a route leaves every course as it was.** -/
theorem steersNobody_takeStep (who : CharacterId) (m : Move) : (takeStep who m).SteersNobody := by
  refine SteersNobody.bind (steersNobody_onCharacter fun _ => rfl) fun _ => ?_
  cases m with
  | step d => exact (steersNobody_act (Act.steersNobody_moveStraight who d)).discard
  | random => exact (steersNobody_act (Act.steersNobody_moveRandom who)).discard
  | towardPlayer => exact (steersNobody_act (Act.steersNobody_moveTowardPlayer who)).discard
  | awayFromPlayer => exact (steersNobody_act (Act.steersNobody_moveAwayFromPlayer who)).discard
  | forward => exact (steersNobody_act (Act.steersNobody_moveForward who)).discard
  | wait frames => exact steersNobody_onCharacter fun _ => rfl
  | turn d => exact steersNobody_onCharacter fun c => c.course_face d
  | playSound sound => exact steersNobody_playSound _
  | idle => exact steersNobody_pure ()
  | faulty e => exact fun _ => rfl

/-! ### The end of a route -/

variable {who : CharacterId} {s : Session}

/-- The session in which a character has taken up the route that was put aside. -/
def resumed (who : CharacterId) (s : Session) : Session :=
  updateCharacter who Character.restoreRoute
    { s with notices := s.notices ++ ((s.character who).savedRoute.getD {}).notices }

theorem finishRoute_of_repeats (h : (s.character who).activeRoute.repeats = true) :
    finishRoute who s = .ok false
      (s.updateCharacter who fun c => { c with routeIndex := 0, branches := [true] }) := by
  rw [finishRoute, get_bind_apply, if_pos h]
  rfl

theorem finishRoute_of_forcing (hr : (s.character who).activeRoute.repeats = false)
    (hf : (s.character who).forcing = true) : finishRoute who s = .ok true (resumed who s) := by
  rw [finishRoute, get_bind_apply, if_neg (by simp [hr]), if_pos hf]
  rfl

theorem finishRoute_of_own (hr : (s.character who).activeRoute.repeats = false)
    (hf : (s.character who).forcing = false) : finishRoute who s = .ok true s := by
  rw [finishRoute, get_bind_apply, if_neg (by simp [hr]), if_neg (by simp [hf])]
  rfl

/-! ### Going along a route -/

variable {route : Route} {n : Nat}

/-- At the end of a route the frame is over, or it goes on with the lines that are left. -/
def passEnd (who : CharacterId) (route : Route) (n : Nat) : Play Unit := do
  if ← finishRoute who then return
  walkLines who route n

theorem walkLines_of_none (h : route.steps[(s.character who).routeIndex]? = none) :
    walkLines who route (n + 1) s = passEnd who route n s := by
  rw [walkLines, get_bind_apply, h]
  rfl

theorem walkLines_of_finish (h : route.steps[(s.character who).routeIndex]? = some .finish) :
    walkLines who route (n + 1) s =
      passEnd who route n (s.updateCharacter who fun c => { c with routeIndex := route.length }) := by
  rw [walkLines, get_bind_apply, h]
  rfl

theorem walkLines_of_script {line : RouteInstruction}
    (h : route.steps[(s.character who).routeIndex]? = some (.script line)) :
    walkLines who route (n + 1) s = (do
      let next ← runLine who route (s.character who).routeIndex line
      onCharacter who fun c => { c with routeIndex := next }
      walkLines who route n : Play Unit) s := by
  rw [walkLines, get_bind_apply, h]

theorem walkLines_of_move {m : Move}
    (h : route.steps[(s.character who).routeIndex]? = some (.move m)) :
    walkLines who route (n + 1) s = (do
      takeStep who m
      if ((← get).character who).moveSucceeded || route.skippable then
        onCharacter who fun c => { c with routeIndex := c.routeIndex + 1 } : Play Unit) s := by
  rw [walkLines, get_bind_apply, h]

/-- A frame in which a character waits, or goes along its route past so many lines at most. -/
theorem walk_apply (who : CharacterId) (s : Session) :
    walk who s = if 0 < (s.character who).waitCount then
        .ok () (s.updateCharacter who fun c => { c with waitCount := c.waitCount - 1 })
      else
        walkLines who (s.character who).activeRoute ((s.character who).activeRoute.length + 1) s := by
  rw [walk, get_bind_apply]
  split <;> rfl

end Play

/-! ### Routes handed to a character -/

namespace Course

/-- Another route is begun, and the current one put aside unless one has been already. -/
def interruptedBy (c : Course) (r : Option Route) : Course where
  route := r
  index := 0
  savedRoute := if c.savedRoute.isNone then c.route else c.savedRoute
  savedIndex := if c.savedRoute.isNone then c.index else c.savedIndex
  forcing := true
  branches := [true]

/-- A route of the character's own is begun. -/
def handed (c : Course) (r : Option Route) : Course :=
  { c with route := r, index := 0, forcing := false, branches := [true] }

end Course

namespace Play

open Session

variable {who : CharacterId} {s : Session} {c : Course} {v : Json}

theorem course?_setRoute {r : Option Route} (hv : (Route.read v).result = .ok r)
    (hc : s.course? who = some c) : ((setRoute who v).after s).course? who = some (c.handed r) := by
  rw [setRoute, after, bind_of_ok (lift_reading_of_ok hv s)]
  change (updateCharacter who _ _).course? who = _
  rw [course?_updateCharacter_self (g := (·.handed r)) fun _ => rfl]
  change (s.course? who).map _ = _
  rw [hc]
  rfl

theorem course_forceRoute (b : Character) (r : Option Route) :
    (b.forceRoute r).course = b.course.interruptedBy r := by
  cases hb : b.savedRoute <;> simp [Character.forceRoute, Character.course, Course.interruptedBy, hb]

theorem course?_forceRoute {r : Option Route} (hv : (Route.read v).result = .ok r)
    (hc : s.course? who = some c) :
    ((forceRoute who v).after s).course? who = some (c.interruptedBy r) := by
  rw [forceRoute, after, bind_of_ok (lift_reading_of_ok hv s)]
  change (updateCharacter who _ _).course? who = _
  rw [course?_updateCharacter_self (g := (·.interruptedBy r)) fun b => course_forceRoute b r]
  change (s.course? who).map _ = _
  rw [hc]
  rfl

end Play

end EventLayer
