/-
**Events without a page.**

An event that shows no page, because none counts or because it is erased, has neither an image nor a
trigger; nobody collides with it, and nothing starts it.  Its way of moving, though, is that of the page it
showed last: no part of a frame but its own turn moves it, but in its own turn an event that is not erased
goes on walking at random, toward the player, or along a route that it has taken up again.  So it stays
where it is exactly as long as in none of its turns that leads it elsewhere.

Main definitions:

* `MapEvent.IsBare`, `Session.IsIntangible` — an event that is in nobody's way and is started by nothing;
* `Session.Sets`, `Session.Wanders` — **an event that leaves its place of its own accord**;
* `Session.IsPageless` — an event that shows no page, and on which no route is forced;
* `Session.Passes`, `Session.Elapses` — the parts of frames, one after another;
* `Session.Lies` — what is known of such an event while they pass.

Main results:

* `Session.Course.isIntangible` — an event without a page is intangible, whatever was done before;
* `Session.floats_advanceEvent` — the turn of an event;
* `Session.Passes.moves_iff` — a part of a frame;
* `Session.Course.pageless_stays_iff` — **when an event without a page stays where it is**.
-/
import EventLayer.Proofs.Movement.Drifting
import EventLayer.Proofs.Turns.Dispatch
import EventLayer.Proofs.Turns.Upkeep

set_option autoImplicit false
set_option relaxedAutoImplicit false

namespace EventLayer

/-! ### Bare events -/

namespace MapEvent

variable {e e' : MapEvent} {db : Database} {stores : Stores}

/-- An event that, if it shows no page, is in nobody's way and not about to run. -/
def IsBare (e : MapEvent) : Prop := e.pageIndex = -1 → e.body.through = true ∧ e.starting = false

theorem page?_of_pageless (h : e.pageIndex = -1) : e.page? = none := by
  rw [page?, h]
  rfl

/-- An event without a page has no commands, and so nothing starts it. -/
theorem startIfAny_of_pageless (h : e.pageIndex = -1) : e.startIfAny = e := by
  rw [startIfAny, list, page?_of_pageless h]
  rfl

theorem showPage_of_pageless (h : e.pageIndex = -1) : e.showPage = pure e.wearNone := by
  unfold showPage
  rw [page?_of_pageless h]

/-- What chooses no page anew shows none as before, or has just taken its page off. -/
theorem refresh_pageless (h : (e.refresh db stores).result = .ok e') (hpage : e'.pageIndex = -1) :
    e' = e ∨ e' = { e with pageIndex := -1 }.wearNone := by
  obtain ⟨due, -, h⟩ := Reading.bind_eq_ok h
  split at h
  · cases h
    exact Or.inl rfl
  · have hdue : due = -1 := (standsAs_showPage h).pageIndex.symm.trans hpage
    subst hdue
    rw [showPage_of_pageless rfl] at h
    cases h
    exact Or.inr rfl

/-- An event that shows no page before and after a choice of pages is left as it is. -/
theorem refresh_of_stays (h : (e.refresh db stores).result = .ok e') (hpage : e.pageIndex = -1)
    (hpage' : e'.pageIndex = -1) : e' = e := by
  obtain ⟨due, -, h⟩ := Reading.bind_eq_ok h
  split at h
  · cases h
    rfl
  · next hne => exact absurd (((standsAs_showPage h).pageIndex.symm.trans hpage').trans hpage.symm) hne

theorem isBare_refresh (hs : e.IsBare) (h : (e.refresh db stores).result = .ok e') : e'.IsBare := by
  intro hpage
  rcases refresh_pageless h hpage with rfl | rfl
  · exact hs hpage
  · exact ⟨rfl, rfl⟩

/-- **Every change of an event leaves it bare.** -/
theorem upheld_isBare : Upheld IsBare where
  adjust := fun hf hs hpage => ⟨(hf.through _).trans (hs hpage).1, (hs hpage).2⟩
  step := fun d hs hpage => ⟨((Character.adjusts_face d).through _).trans (hs hpage).1, (hs hpage).2⟩
  rest := fun _ hs hpage => hs hpage
  startIfAny := fun {e} hs => by
    by_cases hpage : e.pageIndex = -1
    · rw [startIfAny_of_pageless hpage]
      exact hs
    · unfold startIfAny
      split
      · exact fun h => absurd h hpage
      · exact hs
  clearStarting := fun hs hpage => ⟨(hs hpage).1, rfl⟩
  force := fun {e} route hs hpage =>
    have hthrough := congrArg (·.through) (e.body.footing_forceRoute route)
    ⟨hthrough.trans (hs hpage).1, (hs hpage).2⟩
  erase := fun {e} hs _ => by
    unfold MapEvent.erase
    split
    · next hpage => exact hs hpage
    · exact ⟨rfl, rfl⟩
  refresh := isBare_refresh
  read := fun h => by
    obtain ⟨id, -, h⟩ := Reading.bind_eq_ok h
    obtain ⟨pages, -, h⟩ := Reading.bind_eq_ok h
    dsimp only at h
    split at h
    · exact isBare_refresh (fun hpage => by cases hpage) h
    · obtain ⟨x, -, h⟩ := Reading.bind_eq_ok h
      obtain ⟨y, -, h⟩ := Reading.bind_eq_ok h
      exact isBare_refresh (fun hpage => by cases hpage) h

end MapEvent

namespace Session

/-- An event that is not about to run, that nothing starts, and that is in nobody's way. -/
structure IsIntangible (s : Session) (id : Int) : Prop where
  starting : s.isStarting id = false
  started : ∀ test, (s.startWhere test).isStarting id = false
  touched : ∀ who p, (s.touch who p).isStarting id = false
  blocks : ∀ who p, s.eventBlocks who p = true →
    ∃ e ∈ s.map.eventsAt p, e.id ≠ id ∧ who ≠ .event e.id ∧ e.isSolid = true

variable {s t u : Session} {id : Int} {e : MapEvent}

theorem event?_startWhere_of_pageless (he : s.event? id = some e) (hpage : e.pageIndex = -1)
    (test : MapEvent → Bool) : (s.startWhere test).event? id = some e := by
  rw [event?_startWhere, he, Option.map_some, MapEvent.startIfAny_of_pageless hpage, ite_self]

/-- Whoever touches a tile, an event without a page is as it was. -/
theorem event?_touch_of_pageless (he : s.event? id = some e) (hpage : e.pageIndex = -1)
    (who : CharacterId) (p : Point) : (s.touch who p).event? id = some e := by
  cases who with
  | follower place => exact he
  | player =>
      simp only [touch, playerTouch]
      split
      · exact he
      · exact event?_startWhere_of_pageless he hpage _
  | event id' =>
      have hstarted : (s.updateEvent id' MapEvent.startIfAny).event? id = some e := by
        by_cases hid : id' = id
        · subst hid
          rw [event?_updateEvent, he, Option.map_some, MapEvent.startIfAny_of_pageless hpage]
        · rw [event?_updateEvent_of_ne hid, he]
      simp only [touch, eventTouch]
      split
      · exact he
      · split
        · split
          · exact hstarted
          · exact he
        · exact he

theorem isIntangible_of_bare (hs : Numbered s.map.events) (he : s.event? id = some e)
    (hpage : e.pageIndex = -1) (hbare : e.IsBare) : s.IsIntangible id := by
  obtain ⟨hthrough, hstarting⟩ := hbare hpage
  have hnot : ∀ {t : Session}, t.event? id = some e → t.isStarting id = false := fun h => by
    rw [isStarting, h]
    exact hstarting
  refine ⟨hnot he, fun test => hnot (event?_startWhere_of_pageless he hpage test),
    fun who p => hnot (event?_touch_of_pageless he hpage who p), fun who p hblocks => ?_⟩
  obtain ⟨e', he', hsolid⟩ := List.any_eq_true.1 hblocks
  obtain ⟨hother, hsolid⟩ := Bool.and_eq_true_iff.1 hsolid
  refine ⟨e', he', fun hid => ?_, of_decide_eq_true hother, hsolid⟩
  -- the event itself goes through everything
  have hfound := event?_of_mem hs (List.mem_of_mem_filter he')
  rw [hid, he] at hfound
  cases hfound
  rw [MapEvent.isSolid, hthrough] at hsolid
  cases hsolid

/-- **An event without a page is intangible**, whatever was done in a game from its beginning. -/
theorem Course.isIntangible {g : Game} {draws : Draws} {l : List Turn}
    (h : (Session.begin g draws).Course l s) (he : s.event? id = some e) (hpage : e.pageIndex = -1) :
    s.IsIntangible id ∧ e.body.through = true := by
  have hnumbered : Numbered s.map.events := h.numbered numbered_empty
  have hbare : e.IsBare := h.everyEvent MapEvent.upheld_isBare (fun _ _ he => by cases he) id e he
  exact ⟨isIntangible_of_bare hnumbered he hpage hbare, (hbare hpage).1⟩

/-! ### The turn of an event -/

/-- A session in which an event has rested. -/
def rested (id : Int) (s : Session) : Session := s.updateEvent id fun e => { e with stopCount := 0 }

/-- An event that has rested sets out for a move of its own, and this is the session in which it comes to
it: at once, or in the course of its route. -/
inductive Sets (s : Session) (e : MapEvent) : Move → Session → Prop
  | random (htype : e.moveType = 1) : Sets s e .random (s.rested e.id)
  | toward (htype : e.moveType = 2) : Sets s e .towardPlayer (s.rested e.id)
  | route {m : Move} {u : Session} (htype : e.moveType = MapEvent.routeMoveType)
      (hwait : e.body.waitCount = 0)
      (hto : Play.ComesTo (.event e.id) e.body.activeRoute (e.body.activeRoute.length + 1)
        (s.rested e.id) m u) : Sets s e m u

/-- An event leaves its place, or turns, of its own accord: it is not erased and nothing is frozen, it has
rested long enough, and the move that it sets out for leads elsewhere. -/
def Wanders (s : Session) (id : Int) : Prop :=
  ∃ e, s.event? id = some e ∧ e.erased = false ∧ s.stores.behavior ≠ .freeze ∧
    e.restLimit ≤ e.stopCount + 1 ∧ ∃ m u, s.Sets e m u ∧ u.goal (.event id) m ≠ e.body.pose

variable {m : Move}

theorem wanders_iff (he : s.event? id = some e) : s.Wanders id ↔ e.erased = false ∧
    s.stores.behavior ≠ .freeze ∧ e.restLimit ≤ e.stopCount + 1 ∧
      ∃ m u, s.Sets e m u ∧ u.goal (.event id) m ≠ e.body.pose := by
  refine ⟨?_, fun h => ⟨e, he, h⟩⟩
  rintro ⟨e', he', h⟩
  rw [he] at he'
  cases he'
  exact h

theorem sets_of_random (h : e.moveType = 1) : s.Sets e m u ↔ m = .random ∧ u = s.rested e.id := by
  constructor
  · intro hsets
    cases hsets with
    | random _ => exact ⟨rfl, rfl⟩
    | toward htype => rw [h] at htype; cases htype
    | route htype _ _ => rw [h] at htype; cases htype
  · rintro ⟨rfl, rfl⟩
    exact .random h

theorem sets_of_toward (h : e.moveType = 2) :
    s.Sets e m u ↔ m = .towardPlayer ∧ u = s.rested e.id := by
  constructor
  · intro hsets
    cases hsets with
    | random htype => rw [h] at htype; cases htype
    | toward _ => exact ⟨rfl, rfl⟩
    | route htype _ _ => rw [h] at htype; cases htype
  · rintro ⟨rfl, rfl⟩
    exact .toward h

theorem sets_of_route (h : e.moveType = MapEvent.routeMoveType) : s.Sets e m u ↔ e.body.waitCount = 0 ∧
    Play.ComesTo (.event e.id) e.body.activeRoute (e.body.activeRoute.length + 1) (s.rested e.id) m u := by
  constructor
  · intro hsets
    cases hsets with
    | random htype => rw [h] at htype; cases htype
    | toward htype => rw [h] at htype; cases htype
    | route _ hwait hto => exact ⟨hwait, hto⟩
  · rintro ⟨hwait, hto⟩
    exact .route h hwait hto

theorem Sets.moveType (h : s.Sets e m u) :
    e.moveType = 1 ∨ e.moveType = 2 ∨ e.moveType = MapEvent.routeMoveType := by
  cases h with
  | random htype => exact Or.inl htype
  | toward htype => exact Or.inr (Or.inl htype)
  | route htype _ _ => exact Or.inr (Or.inr htype)

theorem event?_rested (he : s.event? id = some e) :
    (s.rested id).event? id = some { e with stopCount := 0 } := by
  rw [rested, event?_updateEvent, he]
  rfl

/-- An event that goes through everything, once it has rested, goes where the move leads that it sets out
for. -/
theorem floats_moveOnItsOwn (he : s.event? e.id = some e) (hthrough : e.body.through = true) :
    ∃ q, ((Play.moveOnItsOwn e).after (s.rested e.id)).Floats e.id q ∧
      (q ≠ e.body.pose ↔ ∃ m u, s.Sets e m u ∧ u.goal (.event e.id) m ≠ e.body.pose) := by
  have hrested : (s.rested e.id).Floats e.id e.body.pose := ⟨_, event?_rested he, hthrough, rfl⟩
  rw [Play.moveOnItsOwn]
  by_cases hrandom : e.moveType = 1
  · rw [if_pos hrandom]
    exact ⟨_, hrested.moveRandom, by simp [sets_of_random hrandom, goal]⟩
  rw [if_neg hrandom]
  by_cases htoward : e.moveType = 2
  · rw [if_pos htoward]
    exact ⟨_, hrested.moveTowardPlayer, by simp [sets_of_toward htoward]⟩
  rw [if_neg htoward]
  by_cases hroute : e.moveType = MapEvent.routeMoveType
  · rw [if_pos hroute]
    obtain ⟨q, hq, hiff⟩ := Play.floats_walk (event?_rested he) hthrough
    refine ⟨q, hq, hiff.trans ?_⟩
    simp only [sets_of_route hroute, and_assoc, exists_and_left]
  · rw [if_neg hroute]
    refine ⟨_, hrested, fun hne => absurd rfl hne, ?_⟩
    rintro ⟨m, u, hsets, -⟩
    rcases hsets.moveType with htype | htype | htype
    · exact absurd htype hrandom
    · exact absurd htype htoward
    · exact absurd htype hroute

/-- **The turn of an event** that goes through everything, and on which no route is forced, leads it
elsewhere exactly if it wanders. -/
theorem floats_advanceEvent (he : s.event? id = some e) (hid : e.id = id)
    (hthrough : e.body.through = true) (hown : e.body.forcing = false) :
    ∃ q, ((Play.advanceEvent id).after s).Floats id q ∧ (q ≠ e.body.pose ↔ s.Wanders id) := by
  subst hid
  have hfloats : s.Floats e.id e.body.pose := ⟨e, he, hthrough, rfl⟩
  have hturn : (Play.advanceEvent e.id).after s = (Play.turnOf e.id s.stores.behavior e).after s := by
    rw [Play.after, Play.advanceEvent_of_event he]
    rfl
  rw [wanders_iff he, hturn, Play.turnOf]
  by_cases herased : e.erased = true
  · rw [if_pos herased]
    exact ⟨_, hfloats, by simp [herased]⟩
  rw [if_neg herased, hown, if_neg Bool.false_ne_true]
  by_cases hfrozen : s.stores.behavior = .freeze
  · rw [if_pos hfrozen]
    exact ⟨_, hfloats, by simp [hfrozen]⟩
  rw [if_neg hfrozen, Play.updateOwnMovement]
  by_cases hfixed : e.moveType = 0
  · rw [if_pos hfixed]
    refine ⟨_, hfloats, fun hne => absurd rfl hne, ?_⟩
    rintro ⟨-, -, -, m, u, hsets, -⟩
    have hnone : ¬((0 : Int) = 1 ∨ (0 : Int) = 2 ∨ (0 : Int) = MapEvent.routeMoveType) := by decide
    exact absurd (hfixed ▸ hsets.moveType) hnone
  rw [if_neg hfixed]
  dsimp only
  by_cases hrests : e.stopCount + 1 < e.restLimit
  · rw [if_pos hrests]
    refine ⟨_, hfloats.update (fun _ => rfl) fun _ => rfl, fun hne => absurd rfl hne, ?_⟩
    rintro ⟨-, -, hrest, -⟩
    exact absurd hrest (Nat.not_le_of_lt hrests)
  · rw [if_neg hrests]
    obtain ⟨q, hq, hiff⟩ := floats_moveOnItsOwn he hthrough
    refine ⟨q, hq, hiff.trans ?_⟩
    simp [Bool.eq_false_iff.2 herased, hfrozen, Nat.le_of_not_lt hrests]

/-! ### What leaves an event in its place -/

end Session

namespace MapEvent

/-- An event that shows no page, in a pose and with an image. -/
def Appears (p : Pose) (i : Image) (e : MapEvent) : Prop :=
  e.pageIndex = -1 ∧ e.body.pose = p ∧ e.body.image = i

variable {e : MapEvent} {p : Pose} {i : Image}

theorem Appears.startIfAny (h : e.Appears p i) : e.startIfAny.Appears p i := by
  rw [startIfAny_of_pageless h.1]
  exact h

theorem Appears.erase (h : e.Appears p i) : e.erase.Appears p i := by
  rw [MapEvent.erase, if_pos h.1]
  exact h

end MapEvent

namespace Play

open Session MapEvent

variable {s : Session} {id : Int} {p : Pose} {i : Image} {e e' : MapEvent}

/-- Neither a command nor the beginning of a list moves an event without a page. -/
theorem sustained_appears (id : Int) (p : Pose) (i : Image) : Sustained (EventIs id (Appears p i)) := by
  refine .of_events (fun hs hsame => hs.of_events hsame) (fun who route hs => ?_) fun id hs => ?_
  · refine hs.updateCharacter who fun e he => ?_
    have hsame := e.body.footing_forceRoute route
    exact ⟨he.1, (congrArg Character.pose hsame).trans he.2.1, (congrArg (·.image) hsame).trans he.2.2⟩
  · exact hs.updateEvent id fun _ he => he.erase

theorem startWaiting_appears : startWaiting.Preserves (EventIs id (Appears p i)) :=
  startWaiting_of_events (fun hs hsame => hs.of_events hsame) fun id hs => hs.updateEvent id fun _ he => he

theorem advancePlayer_appears : advancePlayer.Preserves (EventIs id (Appears p i)) := by
  have hvisiting : Visiting (EventIs id (Appears p i)) :=
    .of_events (fun hs hsame => hs.of_events hsame) fun test hs => hs.startWhere test fun _ he => he.startIfAny
  exact hvisiting.advancePlayer (commonEvents_of_events fun hs hsame => hs.of_events hsame) fun _ _ hs => hs

/-- What happens on the map leaves an event its looks. -/
theorem stirring_image (id : Int) (i : Image) : Stirring (EventIs id fun e => e.body.image = i) where
  aside := fun _ _ _ _ hs => hs
  adjust := fun who _ hf hs => hs.updateCharacter who fun e he => (hf.image e.body).trans he
  step := fun who d hs => hs.updateCharacter who fun e he =>
    ((Character.adjusts_face d).image e.body).trans he
  rest := fun id _ hs => hs.updateEvent id fun _ he => he
  startOne := fun id hs => hs.updateEvent id fun e he => (congrArg Character.image e.body_startIfAny).trans he
  startWhere := fun test hs => hs.startWhere test fun e he =>
    (congrArg Character.image e.body_startIfAny).trans he
  party := fun _ _ hs => hs

/-- The choice of pages leaves an event alone that shows none before and after it. -/
theorem event?_refreshIfAsked (he : s.event? id = some e) (hpage : e.pageIndex = -1)
    (he' : (refreshIfAsked.after s).event? id = some e') (hpage' : e'.pageIndex = -1) : e' = e := by
  have hrefresh : (do
      let events ← refreshEvents s.game.database s.stores s.map.events.entries
      modify fun t => { t with map.events := ⟨events⟩, map.needsRefresh := false } : Play Unit).Preserves
        fun t => ∀ e', t.event? id = some e' → e'.pageIndex = -1 → e' = e := by
    refine preserves_readingBind (fun _ _ ht => ht) fun events hevents => ?_
    refine preserves_modify fun _ _ e' he' hpage' => ?_
    obtain ⟨before, hbefore, hchosen⟩ := find_refreshEvents hevents he'
    have hsame : before = e := Option.some.inj (hbefore.symm.trans he)
    subst hsame
    exact refresh_of_stays hchosen hpage hpage'
  have hstays : ∀ e', s.event? id = some e' → e'.pageIndex = -1 → e' = e := fun e' h _ =>
    Option.some.inj (h.symm.trans he)
  by_cases hasked : s.map.needsRefresh = true
  · have hchosen : refreshIfAsked s = refreshMap s := by
      rw [refreshIfAsked, get_bind_apply, if_pos hasked]
    rw [after, hchosen] at he'
    exact hrefresh s hstays e' he' hpage'
  · have hleft : refreshIfAsked s = .ok () s := by
      rw [refreshIfAsked, get_bind_apply, if_neg hasked]
      rfl
    rw [after_of_ok hleft] at he'
    exact hstays e' he' hpage'

end Play

/-! ### Parts of frames -/

namespace Session

variable {s t u : Session} {id : Int} {k : Option Int}

/-- An event that shows no page, and on which no route is forced. -/
def IsPageless (s : Session) (id : Int) : Prop :=
  ∃ e, s.event? id = some e ∧ e.pageIndex = -1 ∧ e.body.forcing = false

instance (s : Session) (id : Int) : Decidable (s.IsPageless id) :=
  decidable_of_iff ((s.event? id).any fun e => e.pageIndex = -1 && !e.body.forcing) <| by
    simp [IsPageless, Option.any_eq_true]

/-- Where an event is, and which way it faces. -/
def pose? (s : Session) (id : Int) : Option Pose := (s.event? id).map (·.body.pose)

/-- What an event looks like. -/
def image? (s : Session) (id : Int) : Option Image := (s.event? id).map (·.body.image)

/-- A part of a frame, and the event whose turn it is, if it is that of an event. -/
inductive Passes : Option Int → Session → Session → Prop
  | choose (s : Session) : Passes none s (Play.refreshIfAsked.after s)
  | run (s : Session) : Passes none s (Play.runInterpreter.after s)
  | next {s : Session} (hended : s.interpreter.isRunning = false) :
      Passes none s (Play.startWaiting.after s)
  | own (s : Session) (id : Int) : Passes (some id) s ((Play.advanceEvent id).after s)
  | player (s : Session) : Passes none s (Play.advancePlayer.after s)

/-- A part of a frame, with the sessions before and after it. -/
structure Moment where
  before : Session
  whose : Option Int
  after : Session

/-- Parts of frames, one after another. -/
inductive Elapses (s : Session) : List Moment → Session → Prop
  | nil : Elapses s [] s
  | snoc {l : List Moment} {t u : Session} {k : Option Int} (h : Elapses s l t) (hpart : Passes k t u) :
      Elapses s (l ++ [⟨t, k, u⟩]) u

theorem Passes.ledTo (h : Passes k t u) (hs : s.LedTo true t) : s.LedTo true u := by
  have hparts := Play.partwise_ledTo (b := true) s
  cases h with
  | choose => exact hparts.choose t hs
  | run => exact hparts.run t hs
  | next hended => exact hparts.next hs hended
  | own _ id => exact hparts.own id t hs
  | player => exact Play.ledTo_advancePlayer s t hs

/-- Whatever passes in frames is part of what is done in the game. -/
theorem Elapses.ledTo {l : List Moment} (h : s.Elapses l t) : s.LedTo true t := by
  induction h with
  | nil => exact .refl s true
  | snoc _ hpart ih => exact hpart.ledTo ih

/-- Frames are made of such parts. -/
theorem partwise_elapses (s : Session) : Play.Partwise fun t => ∃ l, s.Elapses l t where
  choose := fun t ⟨_, h⟩ => ⟨_, h.snoc (.choose t)⟩
  run := fun t ⟨_, h⟩ => ⟨_, h.snoc (.run t)⟩
  next := fun ⟨_, h⟩ hended => ⟨_, h.snoc (.next hended)⟩
  own := fun id t ⟨_, h⟩ => ⟨_, h.snoc (.own t id)⟩

theorem elapses_advanceBy (s : Session) (frames : Nat) :
    (Play.advanceBy frames).Preserves fun t => ∃ l, s.Elapses l t := by
  have hplayer : Play.advancePlayer.Preserves fun t => ∃ l, s.Elapses l t :=
    fun t ⟨_, h⟩ => ⟨_, h.snoc (.player t)⟩
  induction frames with
  | zero => exact Play.preserves_pure ()
  | succ frames ih => exact ((partwise_elapses s).advanceMap.bind fun _ => hplayer).bind fun _ => ih

/-! ### When an event without a page stays -/

theorem pose?_of_appears {p : Pose} {i : Image} (h : t.EventIs id (MapEvent.Appears p i)) :
    t.pose? id = some p ∧ t.image? id = some i := by
  obtain ⟨e, he, -, rfl, rfl⟩ := h
  exact ⟨congrArg (Option.map _) he, congrArg (Option.map _) he⟩

/-- **A part of a frame leaves an event without a page its looks, and moves or turns it exactly if it is
the turn of the event itself, and the event wanders.** -/
theorem Passes.moves_iff (h : Passes k s t) (hs : Numbered s.map.events) (hbefore : s.IsPageless id)
    (hbare : ∀ e, s.event? id = some e → e.body.through = true) (hafter : t.IsPageless id) :
    t.image? id = s.image? id ∧ (t.pose? id ≠ s.pose? id ↔ k = some id ∧ s.Wanders id) := by
  obtain ⟨e, he, hpage, hown⟩ := hbefore
  have hpose : s.pose? id = some e.body.pose := congrArg (Option.map _) he
  have himage : s.image? id = some e.body.image := congrArg (Option.map _) he
  -- the parts that are not its turn leave it as it appears
  have hstays : k ≠ some id → t.EventIs id (MapEvent.Appears e.body.pose e.body.image) →
      t.image? id = s.image? id ∧ (t.pose? id ≠ s.pose? id ↔ k = some id ∧ s.Wanders id) := by
    intro hk happears
    obtain ⟨hp, hi⟩ := pose?_of_appears happears
    refine ⟨hi.trans himage.symm, fun hne => absurd (hp.trans hpose.symm) hne, fun hwhose => ?_⟩
    exact absurd hwhose.1 hk
  have happears : s.EventIs id (MapEvent.Appears e.body.pose e.body.image) := ⟨e, he, hpage, rfl, rfl⟩
  cases h with
  | choose =>
      obtain ⟨e', he', hpage', -⟩ := hafter
      have hsame : e' = e := Play.event?_refreshIfAsked he hpage he' hpage'
      subst hsame
      exact hstays nofun ⟨e', he', hpage, rfl, rfl⟩
  | run => exact hstays nofun ((Play.sustained_appears id _ _).runInterpreter s happears)
  | next _ => exact hstays nofun (Play.startWaiting_appears s happears)
  | player => exact hstays nofun (Play.advancePlayer_appears s happears)
  | own _ id' =>
      by_cases hid : id' = id
      · subst hid
        obtain ⟨q, ⟨e', he', -, rfl⟩, hmoves⟩ :=
          floats_advanceEvent he (id_of_event? hs he) (hbare e he) hown
        obtain ⟨e'', he'', hlooks⟩ := (Play.stirring_image id' e.body.image).advanceEvent id' s ⟨e, he, rfl⟩
        obtain rfl : e'' = e' := Option.some.inj (he''.symm.trans he')
        have hp : ((Play.advanceEvent id').after s).pose? id' = some e''.body.pose := congrArg (Option.map _) he'
        have hi : ((Play.advanceEvent id').after s).image? id' = some e''.body.image :=
          congrArg (Option.map _) he'
        rw [hp, hi, hpose, himage, hlooks]
        simp only [ne_eq, Option.some.injEq, true_and]
        exact hmoves
      · have hleft := (Play.acting_event? hid (some e)).advanceEvent (fun e' he' =>
          (id_of_event? hs he').symm ▸ Play.acting_event? hid (some e)) he
        exact hstays (fun hwhose => hid (Option.some.inj hwhose)) ⟨e, hleft, hpage, rfl, rfl⟩

/-- What is known of an event without a page while parts of frames pass, as long as it shows none. -/
structure Lies (s : Session) (id : Int) (l : List Moment) (t : Session) : Prop where
  pageless : t.IsPageless id
  looks : t.image? id = s.image? id
  intangible : ∀ m ∈ l, m.after.IsIntangible id ∧ m.after.image? id = s.image? id
  stays : (∀ m ∈ l, m.after.pose? id = s.pose? id) → t.pose? id = s.pose? id
  moves : (∀ m ∈ l, m.after.pose? id = s.pose? id) ↔ ∀ m ∈ l, m.whose = some id → ¬m.before.Wanders id

section Courses

variable {g : Game} {draws : Draws} {before : List Turn} {l : List Moment}

theorem Lies.snoc (hcourse : (Session.begin g draws).Course before t) (h : s.Lies id l t)
    (hpart : Passes k t u) (hafter : u.IsPageless id) : s.Lies id (l ++ [⟨t, k, u⟩]) u := by
  have hthrough : ∀ e, t.event? id = some e → e.body.through = true := fun e he => by
    obtain ⟨e', he', hpage, -⟩ := h.pageless
    obtain rfl : e' = e := Option.some.inj (he'.symm.trans he)
    exact (hcourse.isIntangible he hpage).2
  obtain ⟨hlooks, hmoves⟩ := hpart.moves_iff (hcourse.numbered numbered_empty) h.pageless hthrough hafter
  obtain ⟨between, hbetween, -⟩ := hpart.ledTo (.refl t true)
  have hintangible : u.IsIntangible id := by
    obtain ⟨e, he, hpage, -⟩ := hafter
    exact ((hcourse.append hbetween).isIntangible he hpage).1
  have himage := hlooks.trans h.looks
  refine ⟨hafter, himage, ?_, ?_, ?_⟩ <;> simp only [List.forall_mem_append, List.forall_mem_singleton]
  · exact ⟨h.intangible, hintangible, himage⟩
  · exact And.right
  · rw [← h.moves]
    refine and_congr_right fun hstayed => ?_
    rw [← h.stays hstayed]
    refine not_iff_not.1 (hmoves.trans ?_)
    rw [Classical.not_imp, not_not]

theorem Elapses.lies (h : s.Elapses l t) (hbefore : (Session.begin g draws).Course before s)
    (hs : s.IsPageless id) (hl : ∀ m ∈ l, m.after.IsPageless id) : s.Lies id l t := by
  induction h with
  | nil =>
      exact ⟨hs, rfl, fun _ hm => absurd hm List.not_mem_nil, fun _ => rfl,
        ⟨fun _ _ hm => absurd hm List.not_mem_nil, fun _ _ hm => absurd hm List.not_mem_nil⟩⟩
  | snoc helapsed hpart ih =>
      simp only [List.forall_mem_append, List.forall_mem_singleton] at hl
      obtain ⟨between, hbetween, -⟩ := helapsed.ledTo
      exact (ih hl.1).snoc (hbefore.append hbetween) hpart hl.2

/-- **When an event without a page stays where it is.**  Whatever was done in a game, and whatever parts of
frames pass then, while the event shows no page and no route is forced on it: it is intangible, and it
keeps its looks.  It keeps its place and the way it faces exactly as long as it wanders in none of its own
turns.  Frames of the map, and frames altogether, are made of such parts. -/
theorem Course.pageless_stays_iff (hbefore : (Session.begin g draws).Course before s)
    (hs : s.IsPageless id) (h : s.Elapses l t) (hl : ∀ m ∈ l, m.after.IsPageless id) :
    (s.IsIntangible id ∧ ∀ m ∈ l, m.after.IsIntangible id ∧ m.after.image? id = s.image? id) ∧
      ((∀ m ∈ l, m.after.pose? id = s.pose? id) ↔
        ∀ m ∈ l, m.whose = some id → ¬m.before.Wanders id) ∧
      (∃ l', t.Elapses l' (Play.advanceMap.after t)) ∧
      ∀ frames, ∃ l', t.Elapses l' ((Play.advanceBy frames).after t) := by
  have hlies := h.lies hbefore hs hl
  obtain ⟨e, he, hpage, -⟩ := hs
  have hintangible : s.IsIntangible id := (hbefore.isIntangible he hpage).1
  exact ⟨⟨hintangible, hlies.intangible⟩, hlies.moves,
    (partwise_elapses t).advanceMap t ⟨_, .nil⟩, fun frames => elapses_advanceBy t frames t ⟨_, .nil⟩⟩

end Courses

/-! ### Out of sight -/

/-- The parts of a frame in which no list begins, up to the turn of an event. -/
def quietFrame (s : Session) (id : Int) : List Moment :=
  let chosen := Play.refreshIfAsked.after s
  let ran := Play.runInterpreter.after chosen
  let fresh := Play.refreshIfAsked.after ran
  let waiting := Play.startWaiting.after fresh
  [⟨s, none, chosen⟩, ⟨chosen, none, ran⟩, ⟨ran, none, fresh⟩, ⟨fresh, none, waiting⟩,
    ⟨waiting, some id, (Play.advanceEvent id).after waiting⟩]

theorem elapses_quietFrame (s : Session) (id : Int) (hended : (Play.refreshIfAsked.after
      (Play.runInterpreter.after (Play.refreshIfAsked.after s))).interpreter.isRunning = false) :
    ∃ t, s.Elapses (s.quietFrame id) t ∧ (s.quietFrame id).getLast?.map (·.after) = some t :=
  ⟨_, .snoc (.snoc (.snoc (.snoc (.snoc .nil (.choose _)) (.run _)) (.choose _)) (.next hended)) (.own _ id),
    rfl⟩

/-- A game with an event that shows a page, on which it walks at random, while a switch is on. -/
def strollGame : Game where
  mapFile := fun _ => .ok (some (.obj [("width", 5), ("height", 5), ("events", .arr [.null, .obj [
    ("id", 1), ("x", 2), ("y", 2), ("pages", .arr [.obj [
      ("conditions", .obj [("switch1Valid", true), ("switch1Id", 1)]),
      ("moveType", 1), ("moveFrequency", 5)]])]])]))

/-- The event has shown its page, and shows it no longer. -/
def strolling : Session :=
  Play.refreshMap.after (((Play.setupMap 1).after ((Session.begin strollGame {}).setSwitch 1 true)).setSwitch
    1 false)

theorem course_strolling : ∃ before, (Session.begin strollGame {}).Course before strolling := by
  have hswitch : ∀ (s : Session) (on : Bool), Does .other s (s.setSwitch 1 on) := fun _ _ =>
    .aside rfl rfl rfl rfl
  exact ⟨_, .snoc (.snoc (.snoc (.snoc (.nil _) (hswitch _ true)) (.arrive (.setupMap 1 none)))
    (hswitch _ false)) (.stir .refreshMap)⟩

/-- An event that is erased stays. -/
theorem pageless_stays_strolling_erased : ∃ l t,
    ((Play.eraseEvent 1).after strolling).Elapses l t ∧ l.length = 5 ∧
      ∀ m ∈ l, m.after.pose? 1 = strolling.pose? 1 := by
  have hended : (Play.refreshIfAsked.after (Play.runInterpreter.after (Play.refreshIfAsked.after
    ((Play.eraseEvent 1).after strolling)))).interpreter.isRunning = false := by decide +kernel
  obtain ⟨before, hbefore⟩ := course_strolling
  obtain ⟨t, h, -⟩ := elapses_quietFrame _ 1 hended
  have hl : ∀ m ∈ ((Play.eraseEvent 1).after strolling).quietFrame 1, m.after.IsPageless 1 := by
    decide +kernel
  refine ⟨_, t, h, rfl, fun m hm => ?_⟩
  have hstays := (Course.pageless_stays_iff (hbefore.snoc (.erase 1)) (by decide +kernel) h hl).2.1.2
  refine (hstays (fun m hm _ => ?_) m hm).trans (by decide +kernel)
  have herased : ∀ m ∈ ((Play.eraseEvent 1).after strolling).quietFrame 1,
      (m.before.event? 1).any (·.erased) = true := by decide +kernel
  rintro ⟨e, he, hnot, -⟩
  have hany := herased m hm
  rw [he] at hany
  exact absurd hany (by simp [hnot])

/-- **An event that shows no page may walk on as on the page before.** -/
theorem not_stays_strolling : (Play.advanceMap.after strolling).pose? 1 ≠ strolling.pose? 1 ∧
    ¬∀ (g : Game) (draws : Draws) (before : List Turn) (l : List Moment) (s t : Session) (id : Int),
      (Session.begin g draws).Course before s → s.IsPageless id → s.Elapses l t →
        (∀ m ∈ l, m.after.IsPageless id) → t.pose? id = s.pose? id := by
  have hended : (Play.refreshIfAsked.after (Play.runInterpreter.after
    (Play.refreshIfAsked.after strolling))).interpreter.isRunning = false := by decide +kernel
  refine ⟨by decide +kernel, fun hclaim => ?_⟩
  obtain ⟨before, hbefore⟩ := course_strolling
  obtain ⟨t, h, hlast⟩ := elapses_quietFrame strolling 1 hended
  have hstays := hclaim _ _ before _ strolling t 1 hbefore (by decide +kernel) h (by decide +kernel)
  have hmoved : ((strolling.quietFrame 1).getLast?.map (·.after)).map (·.pose? 1) ≠
      some (strolling.pose? 1) := by decide +kernel
  rw [hlast, Option.map_some, hstays] at hmoved
  exact hmoved rfl

end Session

end EventLayer
