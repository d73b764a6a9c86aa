/-
**What a character does, wherever it stands in its route.**

Steps, effects and conditions look at the tiles, the stores and the draws.  None of them looks at a
route, at the position in it, at a route that was put aside, or at the notices left so far.  So two
sessions that differ in nothing else go on in lockstep under each of them; only the positions that
script lines lead to belong to a route.

Main definitions:

* `Character.placeless`, `Session.placeless` — a session without the places of its characters;
* `Session.Twin` — two sessions that differ in the places of their characters alone;
* `Act.Blind` — an operation that cannot fail and does not look at the places;
* `Play.actOut` — what a script line does, whichever route it stands in.

Main results:

* `Act.blind_moveStraight`, `Act.blind_moveRandom` — steps;
* `Play.twin_takeStep`, `Play.twin_holds`, `Play.twin_actOut` — **steps, conditions and effects go
  on in lockstep**;
* `Play.twin_runLine` — so do script lines, at whatever lines of whatever routes.
-/
import EventLayer.Proofs.Lockstep
import EventLayer.Proofs.OrderedMap
import EventLayer.Proofs.Character.Course

set_option autoImplicit false
set_option relaxedAutoImplicit false

namespace EventLayer

/-! ### Sessions without places -/

/-- A character without its routes and the positions in them. -/
def Character.placeless (c : Character) : Character :=
  { c with route := none, routeIndex := 0, savedRoute := none, savedIndex := 0 }

/-- An event without the routes of its body. -/
def MapEvent.placeless (e : MapEvent) : MapEvent := { e with body := e.body.placeless }

namespace Session

/-- A session without the routes of its characters, the positions in them, and the notices. -/
def placeless (s : Session) : Session :=
  { s with
    map.events := s.map.events.mapValues MapEvent.placeless
    player.body := s.player.body.placeless
    player.followers := s.player.followers.map Character.placeless
    notices := [] }

/-- Two sessions that differ in the routes of their characters, the positions in them, and the
notices alone. -/
def Twin (s t : Session) : Prop := s.placeless = t.placeless

theorem Twin.refl (s : Session) : s.Twin s := rfl

theorem Twin.symm {s t : Session} (h : s.Twin t) : t.Twin s := Eq.symm h

theorem Twin.trans {s t u : Session} (h : s.Twin t) (h' : t.Twin u) : s.Twin u := Eq.trans h h'

/-- A look at a session that does not see the places. -/
theorem Twin.look {β : Type} {f : Session → β} (hf : ∀ s : Session, f s.placeless = f s)
    {s t : Session} (h : s.Twin t) : f s = f t := by
  rw [← hf s, h, hf t]

/-- A write that does not look at the places. -/
def Blind (g : Session → Session) : Prop := ∀ s : Session, (g s.placeless).placeless = (g s).placeless

theorem Blind.twin {g : Session → Session} (hg : Blind g) {s t : Session} (h : s.Twin t) :
    (g s).Twin (g t) := by
  rw [Twin, ← hg s, h, hg t]

theorem Blind.comp {g k : Session → Session} (hg : Blind g) (hk : Blind k) :
    Blind fun s => k (g s) :=
  fun s => by rw [← hk, hg, hk]

theorem blind_id : Blind fun s => s := fun s => by
  simp only [placeless, OrderedMap.mapValues_mapValues, List.map_map]
  rfl

theorem placeless_placeless (s : Session) : s.placeless.placeless = s.placeless := blind_id s

/-- A write that depends on a test that does not look at the places. -/
theorem Blind.ite {c : Session → Bool} {g k : Session → Session}
    (hc : ∀ s : Session, c s.placeless = c s) (hg : Blind g) (hk : Blind k) :
    Blind fun s => if c s then g s else k s := by
  intro s
  simp only [hc]
  split
  · exact hg s
  · exact hk s

/-! ### What is looked at -/

theorem event?_placeless (s : Session) (id : Int) :
    s.placeless.event? id = (s.event? id).map MapEvent.placeless :=
  OrderedMap.get?_mapValues _ _ _

theorem character?_placeless (s : Session) (who : CharacterId) :
    s.placeless.character? who = (s.character? who).map Character.placeless := by
  cases who with
  | player => rfl
  | follower place => exact List.getElem?_map
  | event id =>
      simp only [character?, event?_placeless, Option.map_map]
      rfl

theorem character_placeless (s : Session) (who : CharacterId) :
    s.placeless.character who = (s.character who).placeless := by
  rw [character, character?_placeless, character]
  cases s.character? who <;> rfl

theorem scopeOf_placeless (s : Session) (who : CharacterId) :
    s.placeless.scopeOf who = s.scopeOf who := by
  cases who with
  | event id =>
      simp only [scopeOf, mapOf, event?_placeless, Option.map_map]
      rfl
  | _ => rfl

theorem eventsAt_placeless (s : Session) (p : Point) :
    s.placeless.map.eventsAt p = (s.map.eventsAt p).map MapEvent.placeless := by
  simp only [MapState.eventsAt, MapState.eventList, placeless, OrderedMap.values_mapValues,
    List.filter_map]
  rfl

theorem visibleFollowers_placeless (s : Session) :
    s.placeless.visibleFollowers =
      s.visibleFollowers.map fun e => (e.1, e.2.placeless) := by
  simp only [visibleFollowers, placeless, List.zipIdx_map, List.map_map, List.filter_map]
  rfl

theorem partyAt_placeless (s : Session) (p : Point) : s.placeless.partyAt p = s.partyAt p := by
  simp only [partyAt, partyCharacters, visibleFollowers_placeless, List.map_map, List.any_cons,
    List.any_map]
  rfl

theorem canPass_placeless (s : Session) (who : CharacterId) (p : Point) (d : Int) :
    s.placeless.canPass who p d = s.canPass who p d := by
  have hblocks : ∀ q, s.placeless.eventBlocks who q = s.eventBlocks who q := by
    intro q
    simp only [eventBlocks, eventsAt_placeless, List.any_map]
    rfl
  have hblocked : ∀ q, s.placeless.isBlockedBy who q = s.isBlockedBy who q := by
    intro q
    simp only [isBlockedBy, hblocks, character_placeless, partyAt_placeless]
    rfl
  simp only [canPass, hblocked, character_placeless]
  rfl

theorem isEventRunning_placeless (s : Session) : s.placeless.isEventRunning = s.isEventRunning := by
  have hstarting : s.placeless.map.anyStarting = s.map.anyStarting := by
    simp only [MapState.anyStarting, MapState.eventList, placeless, OrderedMap.values_mapValues,
      List.any_map]
    rfl
  simp only [isEventRunning, hstarting]
  rfl

/-! ### Changing characters -/

/-- Changing one event, if what the change makes of it does not depend on its places. -/
theorem blind_updateEvent {f : MapEvent → MapEvent}
    (hf : ∀ e : MapEvent, (f e.placeless).placeless = (f e).placeless) (id : Int) :
    Blind (updateEvent id f) := by
  intro s
  have hevents : ((s.map.events.mapValues MapEvent.placeless).modify id f).mapValues
      MapEvent.placeless = (s.map.events.modify id f).mapValues MapEvent.placeless :=
    OrderedMap.mapValues_modify_mapValues hf (fun _ => rfl) _ _
  simp only [placeless, updateEvent, MapState.update, hevents, List.map_map]
  rfl

/-- Changing a character, if what the change makes of it does not depend on its places. -/
theorem blind_updateCharacter {f : Character → Character} (who : CharacterId)
    (hf : ∀ c : Character, (f c.placeless).placeless = (f c).placeless) :
    Blind (updateCharacter who f) := by
  cases who with
  | event id =>
      refine blind_updateEvent (f := fun e => { e with body := f e.body }) (fun e => ?_) id
      exact congrArg (fun b => ({ e with body := b } : MapEvent)) (hf e.body)
  | player =>
      intro s
      simp only [updateCharacter, placeless, OrderedMap.mapValues_mapValues, List.map_map, hf]
      rfl
  | follower place =>
      intro s
      have hfollowers : ((s.player.followers.map Character.placeless).modify (place - 1) f).map
          Character.placeless = (s.player.followers.modify (place - 1) f).map Character.placeless := by
        refine List.ext_getElem? fun i => ?_
        simp only [List.getElem?_map, List.getElem?_modify]
        cases s.player.followers[i]? with
        | none => rfl
        | some c =>
            by_cases hi : place - 1 = i
            · simp [hi, hf]
            · simp [hi, Character.placeless]
      simp only [updateCharacter, placeless, OrderedMap.mapValues_mapValues, hfollowers]
      rfl

/-- Changing a character within its places. -/
theorem twin_updateCharacter {f : Character → Character} (who : CharacterId) (s : Session)
    (hf : ∀ c : Character, (f c).placeless = c.placeless) : (s.updateCharacter who f).Twin s := by
  cases who with
  | player =>
      simp only [Twin, updateCharacter, placeless, hf]
  | follower place =>
      have hfollowers : (s.player.followers.modify (place - 1) f).map Character.placeless =
          s.player.followers.map Character.placeless := by
        refine List.ext_getElem? fun i => ?_
        simp only [List.getElem?_map, List.getElem?_modify]
        cases s.player.followers[i]? with
        | none => rfl
        | some c =>
            by_cases hi : place - 1 = i
            · simp [hi, hf]
            · simp [hi]
      simp only [Twin, updateCharacter, placeless, hfollowers]
  | event id =>
      have hevents : (s.map.events.modify id fun e => { e with body := f e.body }).mapValues
          MapEvent.placeless = s.map.events.mapValues MapEvent.placeless :=
        OrderedMap.mapValues_modify
          (fun e => congrArg (fun b => ({ e with body := b } : MapEvent)) (hf e.body)) _ _
      simp only [Twin, updateCharacter, updateEvent, MapState.update, placeless, hevents]

/-- What two sessions have in common of a character. -/
theorem Twin.character {s t : Session} (h : s.Twin t) (who : CharacterId) :
    (s.character who).placeless = (t.character who).placeless := by
  rw [← character_placeless, h, character_placeless]

theorem Twin.branches {s t : Session} (h : s.Twin t) (who : CharacterId) :
    (s.character who).branches = (t.character who).branches := by
  have := congrArg Character.branches (h.character who)
  exact this

/-- A change of what does not belong to the places. -/
theorem blind_face (who : CharacterId) (d : Int) : Blind (updateCharacter who (·.face d)) := by
  refine blind_updateCharacter who fun c => ?_
  unfold Character.face
  split <;> rfl

theorem startIfAny_placeless (e : MapEvent) :
    e.placeless.startIfAny = e.startIfAny.placeless := by
  have hlist : e.placeless.list = e.list := rfl
  unfold MapEvent.startIfAny
  rw [hlist]
  split <;> rfl

/-- Starting events by a test that does not look at the places. -/
theorem blind_startWhere {p : MapEvent → Bool} (hp : ∀ e : MapEvent, p e.placeless = p e) :
    Blind (startWhere p) := by
  intro s
  simp only [startWhere, placeless, OrderedMap.mapValues_mapValues, List.map_map, hp]
  have hevent : ∀ e : MapEvent,
      (if p e then e.placeless.startIfAny else e.placeless).placeless =
        (if p e then e.startIfAny else e).placeless := by
    intro e
    split
    · rw [startIfAny_placeless]
      rfl
    · rfl
  simp only [hevent]
  rfl

theorem blind_touch (who : CharacterId) (p : Point) : Blind (touch who p) := by
  cases who with
  | follower place => exact blind_id
  | player =>
      refine Blind.ite isEventRunning_placeless blind_id ?_
      exact blind_startWhere fun _ => rfl
  | event id =>
      refine Blind.ite (c := fun s => s.isEventRunning || s.ignoresPlayer (.event id))
        (fun s => by rw [isEventRunning_placeless]; rfl) blind_id fun s => ?_
      have hstart : Blind (updateEvent id MapEvent.startIfAny) :=
        blind_updateEvent (fun e => by rw [startIfAny_placeless]; rfl) id
      have htouches : ∀ e : MapEvent, s.placeless.touches e.placeless p = s.touches e p := fun e => by
        simp only [touches, partyAt_placeless]
        rfl
      simp only [event?_placeless]
      cases s.event? id with
      | none => exact blind_id s
      | some e =>
          simp only [Option.map_some, htouches]
          split
          · exact hstart s
          · exact blind_id s

theorem followTrail_placeless (trail : Point) (l : List Character) :
    (followTrail trail (l.map Character.placeless)).map Character.placeless =
      (followTrail trail l).map Character.placeless := by
  induction l generalizing trail with
  | nil => rfl
  | cons c rest ih =>
      have hpoint : c.placeless.point = c.point := rfl
      simp only [List.map_cons, followTrail, hpoint, ih, List.cons.injEq, and_true]
      split
      · rfl
      · unfold Character.face
        split <;> rfl

theorem blind_afterStep (who : CharacterId) : Blind (afterStep who) := by
  cases who with
  | event id => exact blind_id
  | follower place => exact blind_id
  | player =>
      intro s
      simp only [afterStep, followPlayer, placeless, OrderedMap.mapValues_mapValues]
      have hfollowers := followTrail_placeless
        ⟨s.player.body.x - (Direction.offset s.player.body.direction).x,
          s.player.body.y - (Direction.offset s.player.body.direction).y⟩ s.player.followers
      rw [← hfollowers]
      rfl

end Session

/-! ### Steps -/

open Session

/-- An operation that cannot fail and does not look at the places. -/
structure Act.Blind {α : Type} (a : Act α) : Prop where
  value : ∀ s : Session, (a s.placeless).1 = (a s).1
  left : ∀ s : Session, (a s.placeless).2.placeless = (a s).2.placeless

namespace Act

variable {α ι : Type}

theorem blind_of {g : Session → Session} (hg : Session.Blind g) (x : α) : Blind fun s => (x, g s) :=
  ⟨fun _ => rfl, hg⟩

/-- An operation after a write. -/
theorem Blind.after {a : Act α} (ha : Blind a) {g : Session → Session} (hg : Session.Blind g) :
    Blind fun s => a (g s) where
  value s := by rw [← ha.value, hg, ha.value]
  left s := by rw [← ha.left, hg, ha.left]

/-- An operation that begins with a look. -/
theorem blind_look {a : ι → Act α} {f : Session → ι} (hf : ∀ s : Session, f s.placeless = f s)
    (ha : ∀ i, Blind (a i)) : Blind fun s => a (f s) s where
  value s := by rw [hf, (ha _).value]
  left s := by rw [hf, (ha _).left]

theorem Blind.ite {a b : Act α} (ha : Blind a) (hb : Blind b) {c : Session → Bool}
    (hc : ∀ s : Session, c s.placeless = c s) : Blind fun s => if c s then a s else b s :=
  blind_look (a := fun v s => if v then a s else b s) hc fun v => by
    cases v with
    | true => exact ha
    | false => exact hb

theorem point_placeless (s : Session) (who : CharacterId) :
    (s.placeless.character who).point = (s.character who).point := by
  rw [character_placeless]
  rfl

/-- **A step in a direction does not look at the places.** -/
theorem blind_moveStraight (who : CharacterId) (d : Int) : Blind (moveStraight who d) := by
  have hstepped : Session.Blind (updateCharacter who fun c => stepped c d) :=
    blind_updateCharacter who fun c => by
      unfold stepped Character.face
      split <;> rfl
  have hstuck : Session.Blind (updateCharacter who fun c => stuck c d) :=
    blind_updateCharacter who fun c => by
      unfold stuck Character.face
      split <;> rfl
  refine blind_look (f := fun s => (s.character who).point)
    (a := fun p s => if s.canPass who p d
      then (true, (s.updateCharacter who fun c => stepped c d).afterStep who)
      else (false, (s.updateCharacter who fun c => stuck c d).touch who (p.step d)))
    (fun s => point_placeless s who) fun p => ?_
  exact Blind.ite (blind_of (hstepped.comp (blind_afterStep who)) true)
    (blind_of (hstuck.comp (blind_touch who _)) false) fun s => canPass_placeless s who p d

/-- A draw of a direction. -/
theorem blind_drawn : Session.Blind fun s => { s with draws := (s.draws.below 4).2 } := fun s => by
  simp only [placeless, OrderedMap.mapValues_mapValues, List.map_map]
  rfl

theorem blind_moveRandom (who : CharacterId) : Blind (moveRandom who) := by
  have hfail : Session.Blind (updateCharacter who fun c => { c with moveSucceeded := false }) :=
    blind_updateCharacter who fun _ => rfl
  have htry : ∀ d, Blind fun s : Session =>
      if s.canPass who (s.character who).point d then moveStraight who d s
      else (false, s.updateCharacter who fun c => { c with moveSucceeded := false }) := fun d =>
    Blind.ite (c := fun s => s.canPass who (s.character who).point d) (blind_moveStraight who d)
      (blind_of hfail false) fun s => by rw [canPass_placeless, point_placeless]
  exact blind_look (f := fun s => (s.draws.below 4).1) (fun _ => rfl) fun n =>
    (htry (2 + 2 * n)).after blind_drawn

theorem blind_moveForward (who : CharacterId) : Blind (moveForward who) :=
  blind_look (f := fun s => (s.character who).direction)
    (fun s => by rw [character_placeless]; rfl) fun d => blind_moveStraight who d

/-- A step in a direction, unless there is none to go in. -/
theorem blind_moveUnless (who : CharacterId) (d : Int) (turn : Int → Int) :
    Blind fun s => if d = 0 then (false, s) else moveStraight who (turn d) s := by
  by_cases hd : d = 0
  · simp only [hd, if_true]
    exact blind_of blind_id false
  · simp only [hd, if_false]
    exact blind_moveStraight who _

theorem blind_moveToward (who other : CharacterId) : Blind (moveToward who other) :=
  blind_look (f := fun s => (s.character other).point) (fun s => point_placeless s other) fun p =>
    blind_look (f := fun s => Direction.toward (s.character who).point p)
      (fun s => by rw [point_placeless]) fun d => blind_moveUnless who d id

theorem blind_moveAway (who other : CharacterId) : Blind (moveAway who other) :=
  blind_look (f := fun s => (s.character other).point) (fun s => point_placeless s other) fun p =>
    blind_look (f := fun s => Direction.toward (s.character who).point p)
      (fun s => by rw [point_placeless]) fun d => blind_moveUnless who d Direction.reverse

theorem ignoresPlayer_placeless (s : Session) (who : CharacterId) :
    s.placeless.ignoresPlayer who = s.ignoresPlayer who := by
  cases who <;> rfl

theorem blind_moveTowardPlayer (who : CharacterId) : Blind (moveTowardPlayer who) :=
  Blind.ite (blind_moveRandom who) (blind_moveToward who .player) fun s =>
    ignoresPlayer_placeless s who

theorem blind_moveAwayFromPlayer (who : CharacterId) : Blind (moveAwayFromPlayer who) :=
  Blind.ite (blind_moveRandom who) (blind_moveAway who .player) fun s =>
    ignoresPlayer_placeless s who

end Act

/-! ### Script lines and steps of a route -/

namespace Play

variable {α β : Type} {who : CharacterId}

theorem twin_act {a : Act α} (ha : Act.Blind a) : (liftM a : Play α).Lockstep Twin Twin Twin := by
  refine lockstep_act fun s t hst => ⟨?_, ?_⟩
  · rw [← ha.value s, hst, ha.value t]
  · rw [Twin, ← ha.left s, hst, ha.left t]

theorem twin_modify {g : Session → Session} (hg : Session.Blind g) :
    (modify g : Play PUnit).Lockstep Twin Twin Twin :=
  lockstep_modify fun _ _ => hg.twin

theorem twin_onCharacter {f : Character → Character}
    (hf : ∀ c : Character, (f c.placeless).placeless = (f c).placeless) :
    (onCharacter who f).Lockstep Twin Twin Twin :=
  twin_modify (blind_updateCharacter who hf)

/-- A sequence that begins with a look. -/
theorem twin_look {f : Session → Play β} (hf : ∀ s : Session, f s.placeless = f s)
    (hrest : ∀ s, (f s).Lockstep Twin Twin Twin) :
    (get >>= f : Play β).Lockstep Twin Twin Twin :=
  lockstep_getBind (fun _ _ hst => Twin.look hf hst) hrest

theorem twin_playSound (v : Json) : (playSound v).Lockstep Twin Twin Twin := by
  refine (lockstep_lift _).bind fun found => ?_
  cases found with
  | none => exact lockstep_value ()
  | some sound =>
      refine twin_modify fun s => ?_
      simp only [placeless, OrderedMap.mapValues_mapValues, List.map_map]
      rfl

theorem twin_showBalloon (id : Int) : (showBalloon who id).Lockstep Twin Twin Twin := by
  refine Lockstep.bind (S := Twin) (twin_modify ?_) fun _ => twin_onCharacter fun _ => rfl
  refine (blind_updateCharacter (f := fun c => { c with balloon := id }) who fun _ => rfl).comp
    (k := fun s => { s with scratch.balloons := s.scratch.balloons ++ [(who, id)] }) fun s => ?_
  simp only [placeless, OrderedMap.mapValues_mapValues, List.map_map]
  rfl

/-- **Asking whether a condition holds goes on in lockstep.** -/
theorem twin_holds (c : RouteCondition) : (c.holds who).Lockstep Twin Twin Twin := by
  cases c with
  | const v => exact twin_look (fun _ => rfl) fun s => lockstep_value v
  | switchIs id expected =>
      refine twin_look (fun s => ?_) fun s => lockstep_value _
      rw [scopeOf_placeless]
      rfl
  | selfSwitchIs channel expected =>
      refine twin_look (fun s => ?_) fun s => lockstep_value _
      rw [scopeOf_placeless]
      rfl
  | variableIs id relation operand =>
      refine twin_look (fun s => ?_) fun s => lockstep_lift _
      rw [scopeOf_placeless]
      rfl
  | playerWithin distance inside =>
      refine twin_look (fun s => ?_) fun s => lockstep_value _
      rw [Act.point_placeless]
      rfl
  | facing d =>
      refine twin_look (fun s => ?_) fun s => lockstep_value _
      rw [character_placeless]
      rfl
  | chance p =>
      have htaken : Session.Blind fun s => { s with draws := s.draws.fraction.2 } := fun s => by
        simp only [placeless, OrderedMap.mapValues_mapValues, List.map_map]
        rfl
      have hdraw : (do
          let s ← get
          modify fun s => { s with draws := s.draws.fraction.2 }
          return (RouteCondition.percent s.draws.fraction.1).less p : Play Bool).Lockstep Twin Twin
            Twin :=
        twin_look (fun _ => rfl) fun s => (twin_modify htaken).bind fun _ => lockstep_value _
      exact hdraw.congr fun _ => rfl

/-- What a script line does, wherever it stands and wherever it leads. -/
def actOut (who : CharacterId) (line : RouteInstruction) : Play Unit := do
  match line with
  | .openIf c =>
    onCharacter who fun h => { h with branches := false :: h.branches }
    if ← c.holds who then onCharacter who fun h => { h with branches := true :: h.branches.tail }
  | .orElse c =>
    let h := (← get).character who
    if h.branches.headD true then return
    let taken ← match c with
      | none => pure true
      | some c => c.holds who
    if taken then onCharacter who fun h => { h with branches := true :: h.branches.tail }
  | .endIf =>
    let h := (← get).character who
    if 1 < h.branches.length then onCharacter who fun h => { h with branches := h.branches.tail }
  | .setSound name volume pitch => changeSound who name volume pitch
  | .unsetSound => onCharacter who fun h => { h with lastSound := none }
  | .setBalloon id => changeBalloon who id
  | .unsetBalloon => onCharacter who fun h => { h with lastBalloon := none }
  | .showBalloon id => showBalloon who id

/-- A character that has taken a branch of its innermost chain. -/
theorem twin_takeBranch : (onCharacter who fun h =>
    { h with branches := true :: h.branches.tail }).Lockstep Twin Twin Twin :=
  twin_onCharacter fun _ => rfl

/-- **What a script line does goes on in lockstep.** -/
theorem twin_actOut (who : CharacterId) (line : RouteInstruction) :
    (actOut who line).Lockstep Twin Twin Twin := by
  cases line with
  | openIf c =>
      refine Lockstep.bind (twin_onCharacter fun _ => rfl) fun _ => ?_
      exact (twin_holds c).bind fun taken => Lockstep.ite twin_takeBranch (lockstep_value ())
  | orElse c =>
      refine twin_look (fun s => ?_) fun s => Lockstep.ite (lockstep_value ()) ?_
      · rw [character_placeless]
        rfl
      · cases c with
        | none => exact twin_takeBranch
        | some c =>
            exact (twin_holds c).bind fun taken => Lockstep.ite twin_takeBranch (lockstep_value ())
  | endIf =>
      refine twin_look (fun s => ?_) fun s => Lockstep.ite ?_ (lockstep_value ())
      · rw [character_placeless]
        rfl
      · exact twin_onCharacter fun _ => rfl
  | setSound name volume pitch =>
      refine twin_look (fun s => ?_) fun s => ?_
      · rw [character_placeless]
        rfl
      · dsimp only
        refine Lockstep.ite ?_ (lockstep_value ())
        exact (twin_playSound _).bind fun _ => twin_onCharacter fun _ => rfl
  | setBalloon id =>
      refine twin_look (fun s => ?_) fun s => Lockstep.ite (twin_showBalloon id) (lockstep_value ())
      rw [character_placeless]
      rfl
  | showBalloon id => exact twin_showBalloon id
  | unsetSound => exact twin_onCharacter fun _ => rfl
  | unsetBalloon => exact twin_onCharacter fun _ => rfl

/-- A line of a route does what it does anywhere, and leads somewhere. -/
theorem actOut_eq (route : Route) (i : Nat) {line : RouteInstruction} (h : line ≠ .endIf) :
    actOut who line = (fun _ => ()) <$> runLine who route i line := by
  cases line with
  | openIf c =>
      simp only [actOut, runLine, openBranch, map_bind]
      refine bind_congr fun _ => bind_congr fun taken => ?_
      cases taken <;> simp
  | orElse c =>
      simp only [actOut, runLine, nextBranch, map_bind]
      refine bind_congr fun s => ?_
      cases (s.character who).branches.headD true with
      | true => simp
      | false =>
          cases c with
          | none => simp
          | some c =>
              simp only [Bool.false_eq_true, if_false, map_bind]
              refine bind_congr fun taken => ?_
              cases taken <;> simp
  | endIf => exact absurd rfl h
  | _ => simp [actOut, runLine]

/-- A line of a route does what it does anywhere; only a closing marker that closes nothing leaves a notice
with its position. -/
theorem runLine_actOut (who : CharacterId) (route : Route) (i : Nat) (line : RouteInstruction)
    (s : Session) :
    (∃ next u v, runLine who route i line s = .ok next u ∧ actOut who line s = .ok () v ∧ u.Twin v) ∨
      ∃ e u v, runLine who route i line s = .error e u ∧ actOut who line s = .error e v ∧ u.Twin v := by
  by_cases hend : line = .endIf
  · subst hend
    rw [runLine, actOut, closeBranch, get_bind_apply, get_bind_apply]
    by_cases hopen : 1 < (s.character who).branches.length
    · simp only [if_pos hopen]
      exact .inl ⟨_, _, _, rfl, rfl, .refl _⟩
    · simp only [if_neg hopen]
      exact .inl ⟨_, _, _, rfl, rfl, rfl⟩
  · rw [actOut_eq route i hend, map_apply]
    cases runLine who route i line s with
    | ok next t => exact .inl ⟨next, t, t, rfl, rfl, .refl t⟩
    | error e t => exact .inr ⟨e, t, t, rfl, rfl, .refl t⟩

/-- **A line of one route and the same line of another do the same**, wherever they stand. -/
theorem twin_runLine {s t : Session} (h : s.Twin t) (who : CharacterId) (r r' : Route) (i j : Nat)
    (line : RouteInstruction) :
    (∃ next next' u u', runLine who r i line s = .ok next u ∧
        runLine who r' j line t = .ok next' u' ∧ u.Twin u') ∨
      ∃ e u u', runLine who r i line s = .error e u ∧ runLine who r' j line t = .error e u' ∧
        u.Twin u' := by
  have hboth := twin_actOut who line s t h
  rcases runLine_actOut who r i line s with ⟨next, u, v, hu, hv, huv⟩ | ⟨e, u, v, hu, hv, huv⟩ <;>
    rcases runLine_actOut who r' j line t with ⟨next', u', v', hu', hv', huv'⟩ | ⟨e', u', v', hu', hv', huv'⟩ <;>
    rw [hv, hv'] at hboth
  · cases hboth with
    | ok hvv => exact .inl ⟨next, next', u, u', hu, hu', huv.trans (hvv.trans huv'.symm)⟩
  · cases hboth
  · cases hboth
  · cases hboth with
    | error hvv => exact .inr ⟨e, u, u', hu, hu', huv.trans (hvv.trans huv'.symm)⟩

/-- **A step of a route goes on in lockstep.** -/
theorem twin_takeStep (m : Move) : (takeStep who m).Lockstep Twin Twin Twin := by
  refine Lockstep.bind (S := Twin) (twin_onCharacter fun _ => rfl) fun _ => ?_
  cases m with
  | step d => exact (twin_act (Act.blind_moveStraight who d)).discard
  | random => exact (twin_act (Act.blind_moveRandom who)).discard
  | towardPlayer => exact (twin_act (Act.blind_moveTowardPlayer who)).discard
  | awayFromPlayer => exact (twin_act (Act.blind_moveAwayFromPlayer who)).discard
  | forward => exact (twin_act (Act.blind_moveForward who)).discard
  | wait frames => exact twin_onCharacter fun _ => rfl
  | turn d => exact twin_modify (blind_face who d)
  | playSound sound => exact twin_playSound _
  | idle => exact lockstep_value ()
  | faulty e => exact lockstep_fault e

end Play

end EventLayer
