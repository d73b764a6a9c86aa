/-
**Characters in lockstep.**

Where two sessions show the same, their characters take the same steps: they are stopped by the same
obstacles, touch the same events and go through their routes in the same way.  None of this touches
the ground.  A step, a condition or a line of a route is therefore in lockstep under every faithful
relation, and so is a frame of a whole route.

What a character played or showed last may differ and shows only in what nobody hears or sees
again.  Whether its latest step succeeded may differ as well, but a step that is taken says so anew.

Main definitions:

* `Act.Quiet` — an operation that cannot fail and leaves the ground.

Main results:

* `Act.quiet_moveStraight`, `Act.quiet_moveRandom`, `Act.quiet_moveTowardPlayer` — steps;
* `Play.Faithful.takeStep`, `Play.Faithful.tryStep` — a step of a route, and going on after it;
* `Play.Faithful.walk` — **a frame of a route is in lockstep**.
-/
import EventLayer.Proofs.Lockstep.Seen

set_option autoImplicit false
set_option relaxedAutoImplicit false

namespace EventLayer

open Session

/-! ### Steps -/

/-- An operation that cannot fail, leaves the ground, and follows from what is shown. -/
structure Act.Quiet {α : Type} (a : Act α) : Prop where
  value : ∀ s : Session, (a s.seen).1 = (a s).1
  seen : ∀ s : Session, (a s.seen).2.seen = (a s).2.seen
  stays : ∀ s : Session, s.Stays (a s).2

namespace Act

variable {α ι : Type}

theorem quiet_of {g : Session → Session} (hg : Session.Quiet g) (x : α) :
    Quiet fun s => (x, g s) :=
  ⟨fun _ => rfl, hg.seen, hg.stays⟩

/-- An operation after a quiet write. -/
theorem Quiet.after {a : Act α} (ha : Quiet a) {g : Session → Session} (hg : Session.Quiet g) :
    Quiet fun s => a (g s) where
  value := fun s => by rw [← ha.value, hg.seen, ha.value]
  seen := fun s => by rw [← ha.seen, hg.seen, ha.seen]
  stays := fun s => (hg.stays s).trans (ha.stays _)

/-- An operation that begins with a look at what is shown. -/
theorem quiet_look {a : ι → Act α} {f : Session → ι} (hf : ∀ s : Session, f s.seen = f s)
    (ha : ∀ i, Quiet (a i)) : Quiet fun s => a (f s) s where
  value := fun s => by rw [hf, (ha _).value]
  seen := fun s => by rw [hf, (ha _).seen]
  stays := fun s => (ha _).stays s

theorem Quiet.ite {a b : Act α} (ha : Quiet a) (hb : Quiet b) {c : Session → Bool}
    (hc : ∀ s : Session, c s.seen = c s) : Quiet fun s => if c s then a s else b s :=
  quiet_look (a := fun v s => if v then a s else b s) hc fun v => by
    cases v with
    | true => exact ha
    | false => exact hb

end Act

namespace Session

theorem point_character_seen (s : Session) (who : CharacterId) :
    (s.seen.character who).point = (s.character who).point := by
  cases who <;> rfl

theorem canPass_seen (s : Session) (who : CharacterId) (p : Point) (d : Int) :
    s.seen.canPass who p d = s.canPass who p d := by
  cases who <;> rfl

theorem ignoresPlayer_seen (s : Session) (who : CharacterId) :
    s.seen.ignoresPlayer who = s.ignoresPlayer who := by
  cases who <;> rfl

theorem quiet_afterStep (who : CharacterId) : Quiet (afterStep who) := by
  cases who with
  | player => exact ⟨fun _ => rfl, fun _ => ⟨rfl, rfl⟩⟩
  | event id => exact quiet_id
  | follower place => exact quiet_id

theorem quiet_eventTouch (id : Int) (p : Point) : Quiet (eventTouch id p) := by
  refine Quiet.ite (c := fun s => s.isEventRunning || s.ignoresPlayer (.event id)) (fun _ => rfl)
    quiet_id ?_
  have hstart : Quiet (updateEvent id MapEvent.startIfAny) := quiet_updateEvent paged_startIfAny id
  refine ⟨fun s => ?_, fun s => ?_⟩
  · have hevent : s.seen.event? id = s.event? id := rfl
    have htouches : ∀ e, s.seen.touches e p = s.touches e p := fun _ => rfl
    simp only [hevent, htouches]
    cases s.event? id with
    | none => rfl
    | some e =>
        dsimp only
        split
        · exact hstart.seen s
        · rfl
  · cases s.event? id with
    | none => exact Stays.refl s
    | some e =>
        dsimp only
        split
        · exact hstart.stays s
        · exact Stays.refl s

theorem quiet_playerTouch (p : Point) : Quiet (playerTouch p) := by
  refine Quiet.ite (c := isEventRunning) (fun _ => rfl) quiet_id ?_
  exact quiet_startWhere (p := fun _ e =>
    standsOn e p && e.body.isNormal && e.isStartedBy MapEvent.touchKinds) fun _ => rfl

/-- What starts when a character bumps into a tile. -/
theorem quiet_touch (who : CharacterId) (p : Point) : Quiet (touch who p) := by
  cases who with
  | player => exact quiet_playerTouch p
  | event id => exact quiet_eventTouch id p
  | follower place => exact quiet_id

theorem plain_face (c : Character) (d : Int) : (c.plain.face d).plain = (c.face d).plain := by
  unfold Character.face
  split <;> rfl

theorem plain_stepped (c : Character) (d : Int) :
    (stepped c.plain d).plain = (stepped c d).plain := by
  unfold stepped Character.face
  split <;> rfl

theorem plain_stuck (c : Character) (d : Int) : (stuck c.plain d).plain = (stuck c d).plain := by
  unfold stuck Character.face
  split <;> rfl

end Session

namespace Act

/-- **A step in a direction leaves the ground.** -/
theorem quiet_moveStraight (who : CharacterId) (d : Int) : Quiet (moveStraight who d) := by
  have hstep : Session.Quiet fun s => (s.updateCharacter who fun c => stepped c d).afterStep who :=
    (quiet_updateCharacter who fun c => plain_stepped c d).comp (quiet_afterStep who)
  have hbump : ∀ p, Session.Quiet fun s =>
      (s.updateCharacter who fun c => stuck c d).touch who p := fun p =>
    (quiet_updateCharacter who fun c => plain_stuck c d).comp (quiet_touch who p)
  refine quiet_look (f := fun s => (s.character who).point)
    (a := fun p s => if s.canPass who p d
      then (true, (s.updateCharacter who fun c => stepped c d).afterStep who)
      else (false, (s.updateCharacter who fun c => stuck c d).touch who (p.step d)))
    (fun s => point_character_seen s who) fun p => ?_
  exact Quiet.ite (quiet_of hstep true) (quiet_of (hbump _) false) fun s => canPass_seen s who p d

/-- A draw of a direction. -/
theorem quiet_drawn : Session.Quiet fun s => { s with draws := (s.draws.below 4).2 } :=
  ⟨fun _ => rfl, fun _ => ⟨rfl, rfl⟩⟩

theorem quiet_moveRandom (who : CharacterId) : Quiet (moveRandom who) := by
  have hfail : Session.Quiet (updateCharacter who fun c => { c with moveSucceeded := false }) :=
    quiet_updateCharacter who fun _ => rfl
  have htry : ∀ d, Quiet fun s : Session =>
      if s.canPass who (s.character who).point d then moveStraight who d s
      else (false, s.updateCharacter who fun c => { c with moveSucceeded := false }) := fun d =>
    Quiet.ite (c := fun s => s.canPass who (s.character who).point d) (quiet_moveStraight who d)
      (quiet_of hfail false) fun s => by rw [canPass_seen, point_character_seen]
  exact quiet_look (f := fun s => (s.draws.below 4).1) (fun _ => rfl) fun n =>
    (htry (2 + 2 * n)).after quiet_drawn

theorem quiet_moveForward (who : CharacterId) : Quiet (moveForward who) :=
  quiet_look (f := fun s => (s.character who).direction) (fun s => by cases who <;> rfl)
    fun d => quiet_moveStraight who d

/-- A step in a direction, unless there is none to go in. -/
theorem quiet_moveUnless (who : CharacterId) (d : Int) (turn : Int → Int) :
    Quiet fun s => if d = 0 then (false, s) else moveStraight who (turn d) s := by
  by_cases hd : d = 0
  · simp only [hd, if_true]
    exact quiet_of quiet_id false
  · simp only [hd, if_false]
    exact quiet_moveStraight who _

theorem quiet_moveTowardPoint (who : CharacterId) (p : Point) : Quiet (moveTowardPoint who p) :=
  quiet_look (f := fun s => Direction.toward (s.character who).point p)
    (fun s => by rw [point_character_seen]) fun d => quiet_moveUnless who d id

theorem quiet_moveAwayFromPoint (who : CharacterId) (p : Point) :
    Quiet (moveAwayFromPoint who p) :=
  quiet_look (f := fun s => Direction.toward (s.character who).point p)
    (fun s => by rw [point_character_seen]) fun d => quiet_moveUnless who d Direction.reverse

theorem quiet_moveToward (who other : CharacterId) : Quiet (moveToward who other) :=
  quiet_look (f := fun s => (s.character other).point) (fun s => point_character_seen s other)
    fun p => quiet_moveTowardPoint who p

theorem quiet_moveAway (who other : CharacterId) : Quiet (moveAway who other) :=
  quiet_look (f := fun s => (s.character other).point) (fun s => point_character_seen s other)
    fun p => quiet_moveAwayFromPoint who p

theorem quiet_moveTowardPlayer (who : CharacterId) : Quiet (moveTowardPlayer who) :=
  Quiet.ite (quiet_moveRandom who) (quiet_moveToward who .player) fun s => ignoresPlayer_seen s who

theorem quiet_moveAwayFromPlayer (who : CharacterId) : Quiet (moveAwayFromPlayer who) :=
  Quiet.ite (quiet_moveRandom who) (quiet_moveAway who .player) fun s => ignoresPlayer_seen s who

theorem quiet_takeMoved (who : CharacterId) : Quiet (takeMoved who) :=
  have hclear : Session.Quiet (updateCharacter who Character.clearMoved) :=
    quiet_updateCharacter (f := Character.clearMoved) who fun _ => rfl
  ⟨fun s => by cases who <;> rfl, hclear.seen, hclear.stays⟩

end Act

namespace Play.Faithful

variable {α : Type} {R : Session → Session → Prop}

theorem act (h : Faithful R) {a : Act α} (ha : Act.Quiet a) :
    (liftM a : Play α).Lockstep R R R := by
  refine lockstep_act fun s t hst => ⟨?_, h.stays hst (ha.stays s) (ha.stays t) ?_⟩
  · rw [← ha.value s, h.seen hst, ha.value t]
  · rw [← ha.seen s, h.seen hst, ha.seen t]

/-- An operation that leaves the ground and shows nothing. -/
theorem silent (h : Faithful R) {x : Play Unit}
    (hx : ∀ s, ∃ s', x s = .ok () s' ∧ s.Stays s' ∧ s'.seen = s.seen) : x.Lockstep R R R := by
  intro s t hst
  obtain ⟨s', hs, hstays, hseen⟩ := hx s
  obtain ⟨t', ht, htstays, htseen⟩ := hx t
  rw [hs, ht]
  exact .ok (h.stays hst hstays htstays (by rw [hseen, htseen, h.seen hst]))

/-! ### Sounds and balloons -/

theorem playSound (h : Faithful R) (v : Json) : (Play.playSound v).Lockstep R R R := by
  refine (lockstep_lift _).bind fun found => ?_
  cases found with
  | none => exact lockstep_value ()
  | some sound => exact h.quietly ⟨fun _ => rfl, fun _ => ⟨rfl, rfl⟩⟩

/-- A sound of numbers can always be played. -/
theorem playSound_ofNumbers (name : String) (volume pitch : Int) (s : Session) :
    ∃ audio, Play.playSound (.obj (Sound.ofNumbers name volume pitch)) s =
      .ok () { s with audio } := by
  have hread : Sound.read (.obj (Sound.ofNumbers name volume pitch)) =
      .ok (if (Json.str name).truthy then some (Sound.ofNumbers name volume pitch) else none) := rfl
  rw [Play.playSound, hread]
  split
  · exact ⟨_, rfl⟩
  · exact ⟨s.audio, rfl⟩

/-- What the leader played last is not seen: the sound may be played in one run only. -/
theorem changeSound (h : Faithful R) (who : CharacterId) (name : String) (volume pitch : Int) :
    (Play.changeSound who name volume pitch).Lockstep R R R := by
  have hplay : (do
      Play.playSound (.obj (Sound.ofNumbers name volume pitch))
      Play.onCharacter who fun c => { c with lastSound := some name } : Play Unit).Lockstep R R R :=
    (h.playSound _).bind fun _ => h.onCharacter fun _ => rfl
  cases who with
  | event id => exact h.look (fun _ => rfl) fun s => hplay.ite (lockstep_value ())
  | follower place => exact h.look (fun _ => rfl) fun s => hplay.ite (lockstep_value ())
  | player =>
      refine h.silent fun s => ?_
      rw [Play.changeSound, get_bind_apply]
      split
      · obtain ⟨audio, haudio⟩ := playSound_ofNumbers name volume pitch s
        rw [bind_of_ok haudio]
        exact ⟨_, rfl, ⟨rfl, rfl⟩, rfl⟩
      · exact ⟨s, rfl, Stays.refl s, rfl⟩

theorem requestBalloon (h : Faithful R) (who : CharacterId) (id : Int) :
    (modify (Session.requestBalloon who id) : Play PUnit).Lockstep R R R :=
  h.quietly ((quiet_updateCharacter (f := fun c => { c with balloon := id }) who fun _ => rfl).comp
    (k := fun s => { s with scratch.balloons := s.scratch.balloons ++ [(who, id)] })
    ⟨fun _ => rfl, fun _ => ⟨rfl, rfl⟩⟩)

theorem showBalloon (h : Faithful R) (who : CharacterId) (id : Int) :
    (Play.showBalloon who id).Lockstep R R R :=
  (h.requestBalloon who id).bind fun _ => h.onCharacter fun _ => rfl

theorem changeBalloon (h : Faithful R) (who : CharacterId) (id : Int) :
    (Play.changeBalloon who id).Lockstep R R R := by
  cases who with
  | event id' =>
      exact h.look (fun _ => rfl) fun s => (h.showBalloon _ id).ite (lockstep_value ())
  | follower place =>
      exact h.look (fun _ => rfl) fun s => (h.showBalloon _ id).ite (lockstep_value ())
  | player =>
      refine h.silent fun s => ?_
      rw [Play.changeBalloon, get_bind_apply]
      split
      · exact ⟨_, rfl, ⟨rfl, rfl⟩, rfl⟩
      · exact ⟨s, rfl, Stays.refl s, rfl⟩

/-! ### Conditions and script lines -/

/-- **Asking whether a condition holds takes the same draw in both runs**, if it takes one. -/
theorem holds (h : Faithful R) (c : RouteCondition) (who : CharacterId) :
    (c.holds who).Lockstep R R R := by
  have hscope : ∀ s : Session, s.seen.scopeOf who = s.scopeOf who := fun s => by cases who <;> rfl
  cases c with
  | const v => exact h.look (fun _ => rfl) fun s => lockstep_value v
  | switchIs id expected =>
      refine h.look (fun s => ?_) fun s => lockstep_value _
      rw [hscope]
      rfl
  | selfSwitchIs channel expected =>
      refine h.look (fun s => ?_) fun s => lockstep_value _
      rw [hscope]
      rfl
  | variableIs id relation operand =>
      refine h.look (fun s => ?_) fun s => lockstep_lift _
      rw [hscope]
      rfl
  | playerWithin distance inside =>
      exact h.look (fun s => by cases who <;> rfl) fun s => lockstep_value _
  | facing d => exact h.look (fun s => by cases who <;> rfl) fun s => lockstep_value _
  | chance p =>
      have htaken : Session.Quiet fun s => { s with draws := s.draws.fraction.2 } :=
        ⟨fun _ => rfl, fun _ => ⟨rfl, rfl⟩⟩
      have hdraw : (do
          let s ← get
          modify fun s => { s with draws := s.draws.fraction.2 }
          return (RouteCondition.percent s.draws.fraction.1).less p : Play Bool).Lockstep R R R :=
        h.look (fun _ => rfl) fun s => (h.quietly htaken).bind fun _ => lockstep_value _
      exact hdraw.congr fun _ => rfl

/-- A branch is entered, or the route goes on behind it. -/
theorem enter (h : Faithful R) (who : CharacterId) (taken : Bool) (i j : Nat) :
    (if taken then do
        Play.onCharacter who fun c => { c with branches := true :: c.branches.tail }
        return i
      else return j : Play Nat).Lockstep R R R :=
  ((h.onCharacter fun _ => rfl).bind fun _ => lockstep_value _).ite (lockstep_value _)

theorem openBranch (h : Faithful R) (who : CharacterId) (route : Route) (i : Nat)
    (c : RouteCondition) : (Play.openBranch who route i c).Lockstep R R R := by
  refine (h.onCharacter fun _ => rfl).bind fun _ => ?_
  exact (h.holds c who).bind fun taken => h.enter who taken _ _

theorem nextBranch (h : Faithful R) (who : CharacterId) (route : Route) (i : Nat)
    (c : Option RouteCondition) : (Play.nextBranch who route i c).Lockstep R R R := by
  refine h.look (fun s => by cases who <;> rfl) fun s => (lockstep_value _).ite ?_
  cases c with
  | none => exact h.enter who true _ (route.failTarget i)
  | some c => exact (h.holds c who).bind fun taken => h.enter who taken _ _

theorem closeBranch (h : Faithful R) (who : CharacterId) (i : Nat) :
    (Play.closeBranch who i).Lockstep R R R := by
  refine h.look (fun s => by cases who <;> rfl) fun s => ?_
  dsimp only
  split
  · exact (h.onCharacter fun _ => rfl).bind fun _ => lockstep_value _
  · exact (h.note _).bind fun _ => lockstep_value _

/-- **A line of a route is in lockstep.** -/
theorem runLine (h : Faithful R) (who : CharacterId) (route : Route) (i : Nat)
    (line : RouteInstruction) : (Play.runLine who route i line).Lockstep R R R := by
  cases line with
  | openIf c => exact h.openBranch who route i c
  | orElse c => exact h.nextBranch who route i c
  | endIf => exact h.closeBranch who i
  | setSound name volume pitch =>
      exact (h.changeSound who name volume pitch).bind fun _ => lockstep_value _
  | unsetSound => exact (h.onCharacter fun _ => rfl).bind fun _ => lockstep_value _
  | setBalloon id => exact (h.changeBalloon who id).bind fun _ => lockstep_value _
  | unsetBalloon => exact (h.onCharacter fun _ => rfl).bind fun _ => lockstep_value _
  | showBalloon id => exact (h.showBalloon who id).bind fun _ => lockstep_value _

/-! ### Steps of a route -/

theorem takeStep (h : Faithful R) (who : CharacterId) (m : Move) :
    (Play.takeStep who m).Lockstep R R R := by
  refine (h.onCharacter fun _ => rfl).bind fun _ => ?_
  cases m with
  | step d => exact (h.act (Act.quiet_moveStraight who d)).discard
  | random => exact (h.act (Act.quiet_moveRandom who)).discard
  | towardPlayer => exact (h.act (Act.quiet_moveTowardPlayer who)).discard
  | awayFromPlayer => exact (h.act (Act.quiet_moveAwayFromPlayer who)).discard
  | forward => exact (h.act (Act.quiet_moveForward who)).discard
  | wait frames => exact h.onCharacter fun _ => rfl
  | turn d => exact h.onCharacter fun c => plain_face c d
  | playSound sound => exact h.playSound _
  | idle => exact lockstep_value ()
  | faulty e => exact lockstep_fault e

end Play.Faithful

/-! ### Whether a step succeeded -/

namespace Act

variable {α : Type}

/-- Whether the leader's latest step succeeded. -/
def succeeded (s : Session) : Bool := s.player.body.moveSucceeded

/-- After an operation it shows whether the leader's latest step succeeded, if it showed before. -/
def Tells (a : Act α) : Prop :=
  ∀ s t : Session, s.seen = t.seen → succeeded s = succeeded t → succeeded (a s).2 = succeeded (a t).2

theorem Quiet.value_congr {a : Act α} (ha : Quiet a) {s t : Session} (h : s.seen = t.seen) :
    (a s).1 = (a t).1 := by
  rw [← ha.value s, h, ha.value t]

theorem player_touch (p : Point) (s : Session) : (s.touch .player p).player = s.player := by
  change (s.playerTouch p).player = _
  unfold playerTouch
  split <;> rfl

/-- A step of the leader comes to whether it succeeded. -/
theorem succeeded_moveStraight (d : Int) (s : Session) :
    succeeded (moveStraight .player d s).2 = (moveStraight .player d s).1 := by
  simp only [moveStraight]
  split
  · rfl
  · rw [succeeded, player_touch]
    rfl

theorem succeeded_moveRandom (s : Session) :
    succeeded (moveRandom .player s).2 = (moveRandom .player s).1 := by
  simp only [moveRandom]
  split
  · exact succeeded_moveStraight _ _
  · rfl

theorem tells_moveStraight (d : Int) : Tells (moveStraight .player d) := by
  intro s t hseen _
  rw [succeeded_moveStraight, succeeded_moveStraight]
  exact (quiet_moveStraight .player d).value_congr hseen

theorem tells_moveRandom : Tells (moveRandom .player) := by
  intro s t hseen _
  rw [succeeded_moveRandom, succeeded_moveRandom]
  exact (quiet_moveRandom .player).value_congr hseen

/-- A look at what is shown finds the same in both. -/
theorem tells_look {ι : Type} {a : ι → Act α} {f : Session → ι}
    (hf : ∀ s : Session, f s.seen = f s) (ha : ∀ i, Tells (a i)) : Tells fun s => a (f s) s := by
  intro s t hseen hbefore
  have hsame : f s = f t := by rw [← hf s, hseen, hf t]
  simp only [hsame]
  exact ha _ s t hseen hbefore

theorem tells_moveUnless (d : Int) (turn : Int → Int) :
    Tells fun s => if d = 0 then (false, s) else moveStraight .player (turn d) s := by
  intro s t hseen hbefore
  by_cases hd : d = 0
  · simpa only [hd, if_true] using hbefore
  · simpa only [hd, if_false] using tells_moveStraight (turn d) s t hseen hbefore

theorem tells_moveForward : Tells (moveForward .player) :=
  tells_look (f := fun s => (s.character .player).direction) (fun _ => rfl) tells_moveStraight

theorem tells_moveTowardPlayer : Tells (moveTowardPlayer .player) :=
  tells_look (f := fun s => Direction.toward s.player.body.point s.player.body.point) (fun _ => rfl)
    fun d => tells_moveUnless d id

theorem tells_moveAwayFromPlayer : Tells (moveAwayFromPlayer .player) :=
  tells_look (f := fun s => Direction.toward s.player.body.point s.player.body.point) (fun _ => rfl)
    fun d => tells_moveUnless d Direction.reverse

end Act

namespace Play

theorem player_playSound {v : Json} {s t : Session} (h : playSound v s = .ok () t) :
    t.player = s.player := by
  obtain ⟨found, -, h⟩ := except_bind_eq_ok h
  cases found with
  | none =>
      cases h
      rfl
  | some sound =>
      cases h
      rfl

/-- After a step of a route it shows whether the leader's step succeeded, as every step begins by
saying so. -/
theorem succeeded_takeStep {m : Move} {s t s' t' : Session} (hseen : s.seen = t.seen)
    (hs : takeStep .player m s = .ok () s') (ht : takeStep .player m t = .ok () t') :
    Act.succeeded s' = Act.succeeded t' := by
  have hmark : Quiet (updateCharacter .player fun c => { c with moveSucceeded := true }) :=
    quiet_updateCharacter .player fun _ => rfl
  obtain ⟨_, u, hu, hs⟩ := bind_eq_ok hs
  obtain ⟨_, v, hv, ht⟩ := bind_eq_ok ht
  cases hu
  cases hv
  have hmarked : (s.updateCharacter .player fun c => { c with moveSucceeded := true }).seen =
      (t.updateCharacter .player fun c => { c with moveSucceeded := true }).seen := by
    rw [← hmark.seen s, hseen, hmark.seen t]
  have hmove : ∀ {a : Act Bool} {u v : Session}, a.Tells → u.seen = v.seen →
      Act.succeeded u = Act.succeeded v → (discard (liftM a) : Play Unit) u = .ok () s' →
      (discard (liftM a) : Play Unit) v = .ok () t' → Act.succeeded s' = Act.succeeded t' := by
    intro a u v ha huv hbefore hu hv
    cases hu
    cases hv
    exact ha u v huv hbefore
  cases m with
  | step d => exact hmove (Act.tells_moveStraight d) hmarked rfl hs ht
  | random => exact hmove Act.tells_moveRandom hmarked rfl hs ht
  | towardPlayer => exact hmove Act.tells_moveTowardPlayer hmarked rfl hs ht
  | awayFromPlayer => exact hmove Act.tells_moveAwayFromPlayer hmarked rfl hs ht
  | forward => exact hmove Act.tells_moveForward hmarked rfl hs ht
  | wait frames =>
      cases hs
      cases ht
      rfl
  | turn d =>
      have hturn : ∀ u : Session,
          Act.succeeded (u.updateCharacter .player (·.face d)) = Act.succeeded u := by
        intro u
        simp only [Act.succeeded, updateCharacter, Character.face]
        split <;> rfl
      cases hs
      cases ht
      rw [hturn, hturn]
      rfl
  | playSound sound =>
      rw [Act.succeeded, Act.succeeded, player_playSound hs, player_playSound ht]
      rfl
  | idle =>
      cases hs
      cases ht
      rfl
  | faulty e => cases hs

namespace Faithful

variable {R : Session → Session → Prop}

/-- **A step, and going on after it where it succeeded or may be passed over, is in lockstep.** -/
theorem tryStep (h : Faithful R) (who : CharacterId) (route : Route) (m : Move) :
    (do
      Play.takeStep who m
      if ((← get).character who).moveSucceeded || route.skippable then
        Play.onCharacter who fun c => { c with routeIndex := c.routeIndex + 1 } :
      Play Unit).Lockstep R R R := by
  have hnext : (Play.onCharacter who fun c => { c with routeIndex := c.routeIndex + 1 }).Lockstep
      R R R := h.onCharacter fun _ => rfl
  cases who with
  | event id =>
      refine (h.takeStep _ m).bind fun _ => ?_
      exact h.look (fun _ => rfl) fun s => hnext.ite (lockstep_value ())
  | follower place =>
      refine (h.takeStep _ m).bind fun _ => ?_
      exact h.look (fun _ => rfl) fun s => hnext.ite (lockstep_value ())
  | player =>
      intro s t hst
      have hagree := h.takeStep .player m s t hst
      rw [bind_apply, bind_apply]
      cases hs : Play.takeStep .player m s with
      | error e s' =>
          rw [hs] at hagree
          generalize Play.takeStep .player m t = q at hagree
          cases hagree with
          | error h => exact .error h
      | ok a s' =>
          obtain ⟨t', ht, hst'⟩ := (h.takeStep .player m).of_ok hst hs
          have hsame := succeeded_takeStep (h.seen hst) hs ht
          have hrest : (if Act.succeeded s' || route.skippable then
              Play.onCharacter .player fun c => { c with routeIndex := c.routeIndex + 1 }
            else pure () : Play Unit).Lockstep R R R := hnext.ite (lockstep_value ())
          have hgo := hrest s' t' hst'
          rw [ht]
          change Agree R R ((if Act.succeeded s' || route.skippable then _ else _ : Play Unit) s')
            ((if Act.succeeded t' || route.skippable then _ else _ : Play Unit) t')
          rw [← hsame]
          exact hgo

/-! ### Routes -/

theorem setRoute (h : Faithful R) (who : CharacterId) (route : Json) :
    (Play.setRoute who route).Lockstep R R R :=
  (h.reading _).bind fun _ => h.onCharacter fun _ => rfl

theorem plain_forceRoute (c : Character) (route : Option Route) :
    (c.plain.forceRoute route).plain = (c.forceRoute route).plain := by
  cases hs : c.savedRoute <;> simp [Character.forceRoute, Character.plain, hs]

theorem forceRouteOf (h : Faithful R) (who : CharacterId) (route : Option Route) :
    (Play.onCharacter who (·.forceRoute route)).Lockstep R R R :=
  h.onCharacter fun c => plain_forceRoute c route

theorem forceRoute (h : Faithful R) (who : CharacterId) (route : Json) :
    (Play.forceRoute who route).Lockstep R R R :=
  (h.reading _).bind fun route => h.forceRouteOf who route

theorem restoreRoute (h : Faithful R) (who : CharacterId) :
    (Play.restoreRoute who).Lockstep R R R := by
  refine h.look (fun s => by cases who <;> rfl) fun s => ?_
  refine Lockstep.bind (h.quietly ?_) fun _ => ?_
  · exact ⟨fun _ => rfl, fun _ => ⟨rfl, rfl⟩⟩
  · exact h.onCharacter (f := Character.restoreRoute) fun _ => rfl

theorem finishRoute (h : Faithful R) (who : CharacterId) :
    (Play.finishRoute who).Lockstep R R R := by
  refine h.look (fun s => by cases who <;> rfl) fun s => ?_
  dsimp only
  split
  · exact (h.onCharacter fun _ => rfl).bind fun _ => lockstep_value _
  · split
    · exact (h.restoreRoute who).bind fun _ => lockstep_value _
    · exact lockstep_value _

/-- Going on along a route, by induction on the lines that are left. -/
theorem walkLines (h : Faithful R) (who : CharacterId) (route : Route) (budget : Nat) :
    (Play.walkLines who route budget).Lockstep R R R := by
  induction budget with
  | zero => exact lockstep_value ()
  | succ budget ih =>
      have hfinish : (do
          if ← Play.finishRoute who then return
          Play.walkLines who route budget : Play Unit).Lockstep R R R :=
        (h.finishRoute who).bind fun done => (lockstep_value ()).ite ih
      refine h.look (fun s => by cases who <;> rfl) fun s => ?_
      dsimp only
      split
      · exact hfinish
      · exact (h.onCharacter fun _ => rfl).bind fun _ => hfinish
      · refine (h.runLine who route _ _).bind fun next => ?_
        exact (h.onCharacter fun _ => rfl).bind fun _ => ih
      · exact h.tryStep who route _

/-- **A frame of a route is in lockstep.** -/
theorem walk (h : Faithful R) (who : CharacterId) : (Play.walk who).Lockstep R R R := by
  refine h.look (fun s => by cases who <;> rfl) fun s => ?_
  exact (h.onCharacter fun _ => rfl).ite (h.walkLines who _ _)

end Faithful

end Play

end EventLayer
