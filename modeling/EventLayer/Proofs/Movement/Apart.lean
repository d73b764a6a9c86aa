/-
**Bodies stay apart.**

Nobody leaves the map, no two events that stand in the way are on one tile, and none of them is on a
tile with a member of the party.  Events look for each other and for the party before they step; the
player looks for events only, and the followers do not look at all: each takes the tile that the one
ahead has left, and that one was a member of the party.  A player that goes through everything looks for
nothing, and may step onto an event.

Main definitions:

* `MapEvent.IsObstacle` — what stands in the way;
* `Session.AllOnMap`, `Session.ObstaclesApart`, `Session.PartyApart` — bodies that are apart;
* `Session.StepsTo`, `Session.RoamsTo` — a movement of an event or of the player, and several of them.

Main results:

* `point_followTrail` — a follower stands where the one ahead stood;
* `Session.IsSettled.stepEvent`, `Session.IsSettled.stepPlayer` — a step of an event, and of the player;
* `Play.roaming_isSettled` — a movement keeps bodies apart;
* `Session.RoamsTo.staysApart` — **bodies stay apart**;
* `Session.not_partyApart_throughPlayer` — a player that goes through everything may step onto an event.
-/
import EventLayer.Proofs.Map.Erasing
import EventLayer.Proofs.Movement.Roaming
import Mathlib.Logic.Relation

set_option autoImplicit false
set_option relaxedAutoImplicit false

namespace EventLayer

/-! ### Who stands where -/

/-- Those that move on their own: the events and the player. -/
def CharacterId.IsMover : CharacterId → Prop
  | .follower _ => False
  | _ => True

/-- An event that stands in the way of others, and is not erased. -/
def MapEvent.IsObstacle (e : MapEvent) : Prop := e.erased = false ∧ e.isSolid = true

/-- A change of events that moves none of them, and lets none come to stand in the way. -/
structure MapEvent.Stays (g : MapEvent → MapEvent) : Prop where
  id : ∀ e, (g e).id = e.id
  obstacle : ∀ e, (g e).IsObstacle → e.IsObstacle
  point : ∀ e, (g e).body.point = e.body.point

theorem MapEvent.stays_startIfAny : Stays startIfAny where
  id := fun e => by
    unfold startIfAny
    split <;> rfl
  obstacle := fun e h => by
    unfold startIfAny at h
    split at h <;> exact h
  point := fun e => by rw [body_startIfAny]

/-- What is no step of a character moves no event. -/
theorem Character.Adjusts.stays {f : Character → Character} (hf : Adjusts f) :
    MapEvent.Stays fun e => { e with body := f e.body } where
  id := fun _ => rfl
  obstacle := fun e h => by
    refine ⟨h.1, ?_⟩
    have hsolid := h.2
    simp only [MapEvent.isSolid, Character.isNormal, hf.through, hf.priority] at hsolid ⊢
    exact hsolid
  point := fun e => hf.point e.body

namespace Session

/-- Everybody is on the map. -/
def AllOnMap (s : Session) : Prop :=
  ∀ who c, s.character? who = some c → s.map.isValid c.point = true

/-- No two obstacles are on one tile. -/
def ObstaclesApart (s : Session) : Prop :=
  ∀ id id' e e', s.event? id = some e → s.event? id' = some e' → e.IsObstacle → e'.IsObstacle →
    e.body.point = e'.body.point → id = id'

/-- No obstacle is on a tile with a member of the party. -/
def PartyApart (s : Session) : Prop :=
  ∀ id e m, s.event? id = some e → e.IsObstacle → m ∈ s.partyCharacters → e.body.point ≠ m.2.point

/-- Every event is on the map under its own number. -/
def HoldsOwn (s : Session) : Prop := ∀ id e, s.event? id = some e → e.id = id

/-- Bodies are apart; the party is apart from obstacles if the player does not go through everything. -/
structure IsSettled (through : Bool) (s : Session) : Prop where
  onMap : s.AllOnMap
  events : s.ObstaclesApart
  party : through = false → s.PartyApart
  own : s.HoldsOwn
  player : s.player.body.through = through

variable {b : Bool} {s t : Session} {id : Int} {e : MapEvent} {p : Point}

/-- The members of the party: the player, and the followers that are seen. -/
theorem mem_partyCharacters {m : CharacterId × Character} : m ∈ s.partyCharacters ↔
    m = (.player, s.player.body) ∨ ∃ k c, m = (.follower (k + 1), c) ∧
      s.player.followers[k]? = some c ∧ s.followerVisible (k + 1) = true := by
  simp only [partyCharacters, visibleFollowers, List.mem_cons, List.mem_map, List.mem_filter]
  refine or_congr_right ⟨?_, ?_⟩
  · rintro ⟨f, ⟨⟨⟨c, k⟩, hmem, rfl⟩, hvisible⟩, rfl⟩
    exact ⟨k, c, rfl, List.mem_zipIdx_iff_getElem?.mp hmem, hvisible⟩
  · rintro ⟨k, c, rfl, hc, hvisible⟩
    exact ⟨(k + 1, c), ⟨⟨(c, k), List.mem_zipIdx_iff_getElem?.mpr hc, rfl⟩, hvisible⟩, rfl⟩

theorem player_mem_partyCharacters (s : Session) : (.player, s.player.body) ∈ s.partyCharacters :=
  mem_partyCharacters.mpr (Or.inl rfl)

/-- A follower that is seen walks behind one that is seen, or behind the player. -/
theorem followerVisible_of_succ {k : Nat} (h : s.followerVisible (k + 1) = true) :
    s.followerVisible k = true := by
  simp only [followerVisible, Bool.and_eq_true, decide_eq_true_eq] at h ⊢
  exact ⟨h.1, by omega⟩

/-! ### What a look ahead tells -/

/-- Where no event blocks a character, no obstacle stands but the character itself. -/
theorem point_ne_of_not_eventBlocks {who : CharacterId} (h : s.eventBlocks who p = false)
    (he : s.event? id = some e) (hobstacle : e.IsObstacle) (hother : who ≠ .event e.id) :
    e.body.point ≠ p := by
  intro hpoint
  have hat : e ∈ s.map.eventsAt p := by
    refine List.mem_filter.mpr ⟨OrderedMap.mem_values_of_get? he, ?_⟩
    simp [hobstacle.1, Character.isAt, hpoint]
  have hfree := List.any_eq_false.mp h e hat
  simp [hobstacle.2, hother] at hfree

/-- Where nobody of the party is, no member of it stands. -/
theorem point_ne_of_not_partyAt {m : CharacterId × Character} (h : s.partyAt p = false)
    (hm : m ∈ s.partyCharacters) : m.2.point ≠ p := by
  have hfree := List.any_eq_false.mp h m hm
  simpa [Character.isAt] using hfree

/-- A character that does not go through everything finds nobody in its way. -/
theorem not_isBlockedBy_of_canPass {who : CharacterId} {d : Int} (h : s.canPass who p d = true)
    (hthrough : (s.character who).through = false) : s.isBlockedBy who (p.step d) = false := by
  simp only [canPass, hthrough, Bool.false_or, Bool.and_eq_true] at h
  simpa using h.2.2

/-! ### Changes that move nobody -/

/-- A session in which everybody stands as before, and stands no more in the way. -/
structure StandsLike (s t : Session) : Prop where
  width : t.map.width = s.map.width
  height : t.map.height = s.map.height
  character : ∀ who c, t.character? who = some c → ∃ c', s.character? who = some c' ∧ c.point = c'.point
  event : ∀ id e, t.event? id = some e → ∃ e', s.event? id = some e' ∧ e.id = e'.id ∧
    (e.IsObstacle → e'.IsObstacle) ∧ e.body.point = e'.body.point
  party : ∀ m ∈ t.partyCharacters, ∃ m' ∈ s.partyCharacters, m.2.point = m'.2.point
  through : t.player.body.through = s.player.body.through

theorem isValid_congr {m m' : MapState} (hw : m'.width = m.width) (hh : m'.height = m.height)
    (p : Point) : m'.isValid p = m.isValid p := by
  simp only [MapState.isValid, hw, hh]

theorem IsSettled.of_standsLike (hs : s.IsSettled b) (h : s.StandsLike t) : t.IsSettled b where
  onMap := fun who c hc => by
    obtain ⟨c', hc', hpoint⟩ := h.character who c hc
    rw [isValid_congr h.width h.height, hpoint]
    exact hs.onMap who c' hc'
  events := fun id₁ id₂ e₁ e₂ he₁ he₂ ho₁ ho₂ hpoint => by
    obtain ⟨e₁', he₁', -, hob₁, hp₁⟩ := h.event id₁ e₁ he₁
    obtain ⟨e₂', he₂', -, hob₂, hp₂⟩ := h.event id₂ e₂ he₂
    have hsame : e₁'.body.point = e₂'.body.point := by rw [← hp₁, ← hp₂, hpoint]
    exact hs.events id₁ id₂ e₁' e₂' he₁' he₂' (hob₁ ho₁) (hob₂ ho₂) hsame
  party := fun hthrough id e m he ho hm => by
    obtain ⟨e', he', -, hob, hp⟩ := h.event id e he
    obtain ⟨m', hm', hpoint⟩ := h.party m hm
    rw [hp, hpoint]
    exact hs.party hthrough id e' m' he' (hob ho) hm'
  own := fun id e he => by
    obtain ⟨e', he', hid, -, -⟩ := h.event id e he
    exact hid.trans (hs.own id e' he')
  player := h.through.trans hs.player

/-- What has the same map and the same party stands alike. -/
theorem StandsLike.of_same (hmap : t.map = s.map) (hplayer : t.player = s.player)
    (hvisible : t.followersVisible = s.followersVisible)
    (hmembers : t.stores.party.members = s.stores.party.members) : s.StandsLike t where
  width := by rw [hmap]
  height := by rw [hmap]
  character := fun who c hc => by
    have hsame : t.character? who = s.character? who := by
      cases who <;> simp only [character?, event?, hmap, hplayer]
    exact ⟨c, hsame ▸ hc, rfl⟩
  event := fun id e he => ⟨e, by simpa only [event?, hmap] using he, rfl, fun ho => ho, rfl⟩
  party := fun m hm => by
    have hsame : t.partyCharacters = s.partyCharacters := by
      simp only [partyCharacters, visibleFollowers, hplayer]
      congr 2
      refine List.filter_congr fun f _ => ?_
      simp only [followerVisible, hvisible, hmembers]
    exact ⟨m, hsame ▸ hm, rfl⟩
  through := by rw [hplayer]

/-- Events that change without moving, and without coming to stand in the way. -/
theorem StandsLike.of_events (events : OrderedMap Int MapEvent)
    (h : ∀ id e, events.get? id = some e → ∃ e', s.event? id = some e' ∧ e.id = e'.id ∧
      (e.IsObstacle → e'.IsObstacle) ∧ e.body.point = e'.body.point) :
    s.StandsLike { s with map.events := events } where
  width := rfl
  height := rfl
  character := fun who c hc => by
    cases who with
    | player => exact ⟨c, hc, rfl⟩
    | follower place => exact ⟨c, hc, rfl⟩
    | event id =>
        obtain ⟨e, he, rfl⟩ := Option.map_eq_some_iff.mp hc
        obtain ⟨e', he', -, -, hpoint⟩ := h id e he
        exact ⟨e'.body, Option.map_eq_some_iff.mpr ⟨e', he', rfl⟩, hpoint⟩
  event := h
  party := fun m hm => ⟨m, hm, rfl⟩
  through := rfl

/-- A change of one event, or of none. -/
theorem standsLike_updateEvent {g : MapEvent → MapEvent} (hg : MapEvent.Stays g) (s : Session)
    (id : Int) : s.StandsLike (s.updateEvent id g) := by
  refine StandsLike.of_events (s.map.events.modify id g) fun id' e he => ?_
  rw [OrderedMap.get?_modify] at he
  split at he
  · next hid =>
      obtain ⟨e', he', rfl⟩ := Option.map_eq_some_iff.mp he
      rw [← eq_of_beq hid]
      exact ⟨e', he', hg.id e', hg.obstacle e', hg.point e'⟩
  · exact ⟨e, he, rfl, fun ho => ho, rfl⟩

/-- Events that start move nobody. -/
theorem standsLike_startWhere (s : Session) (test : MapEvent → Bool) :
    s.StandsLike (s.startWhere test) := by
  refine StandsLike.of_events (s.map.events.mapValues _) fun id e he => ?_
  rw [OrderedMap.get?_mapValues] at he
  obtain ⟨e', he', rfl⟩ := Option.map_eq_some_iff.mp he
  refine ⟨e', he', ?_⟩
  split
  · exact ⟨MapEvent.stays_startIfAny.id e', MapEvent.stays_startIfAny.obstacle e',
      MapEvent.stays_startIfAny.point e'⟩
  · exact ⟨rfl, fun ho => ho, rfl⟩

theorem standsLike_touch (s : Session) (who : CharacterId) (p : Point) :
    s.StandsLike (s.touch who p) := by
  have hsame : s.StandsLike s := .of_same rfl rfl rfl rfl
  cases who with
  | follower place => exact hsame
  | player =>
      simp only [touch, playerTouch]
      split
      · exact hsame
      · exact standsLike_startWhere s _
  | event id =>
      simp only [touch, eventTouch]
      split
      · exact hsame
      · split
        · split
          · exact standsLike_updateEvent MapEvent.stays_startIfAny s id
          · exact hsame
        · exact hsame

/-- What is no step of an event or of the player moves nobody. -/
theorem standsLike_updateCharacter {f : Character → Character} (hf : Character.Adjusts f)
    (s : Session) {who : CharacterId} (hwho : ∀ place, who ≠ .follower place) :
    s.StandsLike (s.updateCharacter who f) := by
  cases who with
  | follower place => exact absurd rfl (hwho place)
  | event id => exact standsLike_updateEvent hf.stays s id
  | player =>
      refine ⟨rfl, rfl, ?_, fun id e he => ⟨e, he, rfl, fun ho => ho, rfl⟩, ?_, hf.through _⟩
      · intro who c hc
        cases who with
        | player =>
            cases hc
            exact ⟨s.player.body, rfl, hf.point _⟩
        | event id => exact ⟨c, hc, rfl⟩
        | follower place => exact ⟨c, hc, rfl⟩
      · intro m hm
        rcases mem_partyCharacters.mp hm with rfl | ⟨k, c, rfl, hc, hvisible⟩
        · exact ⟨_, player_mem_partyCharacters s, hf.point _⟩
        · exact ⟨_, mem_partyCharacters.mpr (Or.inr ⟨k, c, rfl, hc, hvisible⟩), rfl⟩

/-! ### Steps of events -/

theorem through_stepped (c : Character) (d : Int) : (stepped c d).through = c.through :=
  (Character.adjusts_face d).through c

theorem priority_stepped (c : Character) (d : Int) : (stepped c d).priority = c.priority :=
  (Character.adjusts_face d).priority c

/-- An event that has stepped in a direction. -/
def steppedEvent (d : Int) (e : MapEvent) : MapEvent := { e with body := stepped e.body d }

theorem isObstacle_steppedEvent {d : Int} (h : (steppedEvent d e).IsObstacle) : e.IsObstacle := by
  refine ⟨h.1, ?_⟩
  have hsolid := h.2
  simp only [steppedEvent, MapEvent.isSolid, Character.isNormal, through_stepped,
    priority_stepped] at hsolid ⊢
  exact hsolid

/-- After a step of an event, every event is that one or stands as before. -/
theorem event?_of_stepped {d : Int} {id' : Int} {e' : MapEvent} (he : s.event? id = some e)
    (h : (s.updateEvent id (steppedEvent d)).event? id' = some e') :
    id' = id ∧ e' = steppedEvent d e ∨ id' ≠ id ∧ s.event? id' = some e' := by
  by_cases hid : id' = id
  · subst hid
    rw [event?_updateEvent, he] at h
    exact Or.inl ⟨rfl, (Option.some.inj h).symm⟩
  · rw [event?_updateEvent_of_ne (Ne.symm hid)] at h
    exact Or.inr ⟨hid, h⟩

section StepEvent

variable {d : Int} (he : s.event? id = some e)

include he

/-- An obstacle that can pass has found nothing in its way. -/
theorem not_isBlockedBy_of_obstacle (hpass : s.canPass (.event id) e.body.point d = true)
    (ho : e.IsObstacle) : s.isBlockedBy (.event id) (e.body.point.step d) = false := by
  have hsolid := ho.2
  simp only [MapEvent.isSolid, Bool.and_eq_true, Bool.not_eq_true'] at hsolid
  exact not_isBlockedBy_of_canPass hpass (character_of_event he ▸ hsolid.1)

/-- An obstacle steps on no tile of another one. -/
theorem IsSettled.obstacle_ne (hs : s.IsSettled b)
    (hpass : s.canPass (.event id) e.body.point d = true) (ho : e.IsObstacle) {id' : Int}
    {e' : MapEvent} (hid : id' ≠ id) (he' : s.event? id' = some e') (ho' : e'.IsObstacle) :
    e'.body.point ≠ e.body.point.step d := by
  have hblocked := not_isBlockedBy_of_obstacle he hpass ho
  simp only [isBlockedBy, Bool.or_eq_false_iff] at hblocked
  refine point_ne_of_not_eventBlocks hblocked.1 he' ho' ?_
  rw [hs.own id' e' he']
  intro hsame
  exact hid (by injection hsame with hsame; exact hsame.symm)

/-- An obstacle steps on no tile where a member of the party stands. -/
theorem party_ne_of_obstacle (hpass : s.canPass (.event id) e.body.point d = true)
    (ho : e.IsObstacle) : ∀ m ∈ s.partyCharacters, m.2.point ≠ e.body.point.step d := by
  intro m hm
  have hblocked := not_isBlockedBy_of_obstacle he hpass ho
  have hsolid := ho.2
  simp only [MapEvent.isSolid, Bool.and_eq_true] at hsolid
  simp only [isBlockedBy, character_of_event he, hsolid.2, Bool.true_and, Bool.or_eq_false_iff] at hblocked
  exact point_ne_of_not_partyAt hblocked.2 hm

end StepEvent

/-- **A step of an event keeps bodies apart.**  An obstacle has looked for others and for the party. -/
theorem IsSettled.stepEvent {d : Int} (hs : s.IsSettled b) (he : s.event? id = some e)
    (hpass : s.canPass (.event id) e.body.point d = true) :
    (s.updateEvent id (steppedEvent d)).IsSettled b := by
  have hvalid : s.map.isValid (e.body.point.step d) = true := canPass_isValid hpass
  refine ⟨?_, ?_, ?_, ?_, hs.player⟩
  · intro who c hc
    cases who with
    | player => exact hs.onMap .player c hc
    | follower place => exact hs.onMap (.follower place) c hc
    | event id' =>
        obtain ⟨e', he', rfl⟩ := Option.map_eq_some_iff.mp hc
        rcases event?_of_stepped he he' with ⟨rfl, rfl⟩ | ⟨-, he'⟩
        · exact hvalid
        · exact hs.onMap (.event id') e'.body (Option.map_eq_some_iff.mpr ⟨e', he', rfl⟩)
  · intro id₁ id₂ e₁ e₂ he₁ he₂ ho₁ ho₂ hpoint
    rcases event?_of_stepped he he₁ with ⟨rfl, rfl⟩ | ⟨hid₁, hold₁⟩ <;>
      rcases event?_of_stepped he he₂ with ⟨rfl, rfl⟩ | ⟨hid₂, hold₂⟩
    · rfl
    · exact absurd hpoint.symm (hs.obstacle_ne he hpass (isObstacle_steppedEvent ho₁) hid₂ hold₂ ho₂)
    · exact absurd hpoint (hs.obstacle_ne he hpass (isObstacle_steppedEvent ho₂) hid₁ hold₁ ho₁)
    · exact hs.events id₁ id₂ e₁ e₂ hold₁ hold₂ ho₁ ho₂ hpoint
  · intro hthrough id' e' m he' ho hm
    rcases event?_of_stepped he he' with ⟨rfl, rfl⟩ | ⟨-, he'⟩
    · exact (party_ne_of_obstacle he hpass (isObstacle_steppedEvent ho) m hm).symm
    · exact hs.party hthrough id' e' m he' ho hm
  · intro id' e' he'
    rcases event?_of_stepped he he' with ⟨rfl, rfl⟩ | ⟨-, he'⟩
    · exact hs.own id' e he
    · exact hs.own id' e' he'

/-! ### Steps of the player -/

end Session

/-- **A follower stands where the one ahead stood.** -/
theorem point_followTrail {trail : Point} {l : List Character} {k : Nat} {c : Character}
    (h : (followTrail trail l)[k]? = some c) :
    (trail :: l.map Character.point)[k]? = some c.point := by
  induction l generalizing trail k with
  | nil => cases h
  | cons a rest ih =>
      cases k with
      | succ k =>
          have hrest : (a.point :: rest.map Character.point)[k]? = some c.point := ih h
          exact hrest
      | zero =>
          have hfirst : c.point = trail := by
            cases h
            split
            · assumption
            · rfl
          exact congrArg some hfirst.symm

namespace Session

variable {b : Bool} {s t : Session}

/-- A step of the player, with that of the followers behind. -/
def steppedPlayer (d : Int) (s : Session) : Session :=
  followPlayer { s with player.body := stepped s.player.body d }

/-- The tile that the player has left lies behind its back, if it faces the way it went. -/
theorem trail_of_face {c : Character} {d : Int} (hd : (c.face d).direction = d) :
    (⟨(stepped c d).x - (Direction.offset (stepped c d).direction).x,
      (stepped c d).y - (Direction.offset (stepped c d).direction).y⟩ : Point) = c.point := by
  have hdirection : (stepped c d).direction = d := hd
  rw [hdirection]
  simp only [stepped, Character.locate, Point.step, Character.point]
  congr 1
  · omega
  · omega

theorem face_direction {c : Character} {d : Int} (hd : d ≠ 0 ∨ d = c.direction) :
    (c.face d).direction = d := by
  unfold Character.face
  split
  · next h0 =>
      rcases hd with hd | hd
      · exact absurd h0 hd
      · exact hd.symm
  · rfl

/-- After a step of the player, each follower stands where the one ahead stood, the first one where the
player stood. -/
theorem followers_steppedPlayer {d : Int} {k : Nat} {c : Character}
    (hd : d ≠ 0 ∨ d = s.player.body.direction)
    (hc : (s.steppedPlayer d).player.followers[k]? = some c) :
    k = 0 ∧ c.point = s.player.body.point ∨
      ∃ j c', k = j + 1 ∧ s.player.followers[j]? = some c' ∧ c.point = c'.point := by
  have htrail : (s.steppedPlayer d).player.followers =
      followTrail s.player.body.point s.player.followers := by
    rw [← trail_of_face (face_direction hd)]
    rfl
  rw [htrail] at hc
  have hpoint := point_followTrail hc
  cases k with
  | zero => exact Or.inl ⟨rfl, (Option.some.inj hpoint).symm⟩
  | succ j =>
      rw [List.getElem?_cons_succ, List.getElem?_map] at hpoint
      obtain ⟨c', hc', hsame⟩ := Option.map_eq_some_iff.mp hpoint
      exact Or.inr ⟨j, c', rfl, hc', hsame.symm⟩

/-- **A step of the player keeps bodies apart.**  The player has looked for obstacles; its followers are
where members of the party stood. -/
theorem IsSettled.stepPlayer {d : Int} (hs : s.IsSettled b)
    (hd : d ≠ 0 ∨ d = s.player.body.direction)
    (hpass : s.canPass .player s.player.body.point d = true) : (s.steppedPlayer d).IsSettled b := by
  have hvalid : s.map.isValid (s.player.body.point.step d) = true := canPass_isValid hpass
  refine ⟨?_, hs.events, ?_, hs.own, (through_stepped _ d).trans hs.player⟩
  · have hfollower : ∀ (k : Nat) (c : Character),
        (s.steppedPlayer d).player.followers[k]? = some c → s.map.isValid c.point = true := by
      intro k c hc
      rcases followers_steppedPlayer hd hc with ⟨-, hpoint⟩ | ⟨j, c', -, hc', hpoint⟩
      · rw [hpoint]
        exact hs.onMap .player _ rfl
      · rw [hpoint]
        exact hs.onMap (.follower (j + 1)) c' hc'
    intro who c hc
    cases who with
    | event id => exact hs.onMap (.event id) c hc
    | follower place => exact hfollower _ c hc
    | player =>
        cases hc
        exact hvalid
  · intro hthrough id e m he ho hm
    have hfree : s.eventBlocks .player (s.player.body.point.step d) = false :=
      not_isBlockedBy_of_canPass hpass (hs.player.trans hthrough)
    rcases mem_partyCharacters.mp hm with rfl | ⟨k, c, rfl, hc, hvisible⟩
    · exact point_ne_of_not_eventBlocks hfree he ho nofun
    · rcases followers_steppedPlayer hd hc with ⟨-, hpoint⟩ | ⟨j, c', rfl, hc', hpoint⟩
      · rw [hpoint]
        exact hs.party hthrough id e _ he ho (player_mem_partyCharacters s)
      · rw [hpoint]
        have hahead : s.followerVisible (j + 1) = true := followerVisible_of_succ hvisible
        exact hs.party hthrough id e _ he ho
          (mem_partyCharacters.mpr (Or.inr ⟨j, c', rfl, hc', hahead⟩))

/-! ### Movements -/

/-- **A step, or a failed one, keeps bodies apart.** -/
theorem IsSettled.moveStraight {who : CharacterId} {d : Int} (hwho : who.IsMover)
    (hd : d ≠ 0 ∨ d = (s.character who).direction) (hs : s.IsSettled b) :
    (Act.moveStraight who d s).2.IsSettled b := by
  have hnone : ∀ place, who ≠ .follower place := by
    rintro place rfl
    exact hwho
  simp only [Act.moveStraight]
  split
  · next hpass =>
      cases who with
      | follower place => exact absurd rfl (hnone place)
      | player => exact hs.stepPlayer hd hpass
      | event id =>
          cases he : s.event? id with
          | none =>
              have hsame : s.updateCharacter (.event id) (fun c => stepped c d) = s :=
                updateEvent_of_none he _
              rw [hsame]
              exact hs
          | some e =>
              rw [character_of_event he] at hpass
              exact hs.stepEvent he hpass
  · have hfaced := hs.of_standsLike (standsLike_updateCharacter (Character.adjusts_stuck d) s hnone)
    exact hfaced.of_standsLike (standsLike_touch _ who _)

end Session

/-- A movement keeps bodies apart. -/
theorem Play.roaming_isSettled (b : Bool) {who : CharacterId} (hwho : who.IsMover) :
    Roaming who (· ≠ 0) (Session.IsSettled b) where
  aside := fun _ _ _ _ hs => hs.of_standsLike (.of_same rfl rfl rfl rfl)
  adjust := fun {s} _ hf hs => by
    refine hs.of_standsLike (Session.standsLike_updateCharacter hf s ?_)
    rintro place rfl
    exact hwho
  moveStraight := fun hd hs => hs.moveStraight hwho hd
  somewhere := fun _ hd => hd

namespace Session

variable {b : Bool} {s t : Session}

/-- One movement of an event or of the player: a step in one of the four directions or at random, toward
or away from another character, in the direction that it faces, or a frame of a route that was read. -/
inductive StepsTo : Session → Session → Prop
  | straight (s : Session) (who : CharacterId) (hwho : who.IsMover) {d : Int}
      (hd : Direction.isFourWay d = true) : StepsTo s (Act.moveStraight who d s).2
  | random (s : Session) (who : CharacterId) (hwho : who.IsMover) : StepsTo s (Act.moveRandom who s).2
  | toward (s : Session) (who : CharacterId) (hwho : who.IsMover) (other : CharacterId) :
      StepsTo s (Act.moveToward who other s).2
  | away (s : Session) (who : CharacterId) (hwho : who.IsMover) (other : CharacterId) :
      StepsTo s (Act.moveAway who other s).2
  | towardPlayer (s : Session) (who : CharacterId) (hwho : who.IsMover) :
      StepsTo s (Act.moveTowardPlayer who s).2
  | awayFromPlayer (s : Session) (who : CharacterId) (hwho : who.IsMover) :
      StepsTo s (Act.moveAwayFromPlayer who s).2
  | forward (s : Session) (who : CharacterId) (hwho : who.IsMover) :
      StepsTo s (Act.moveForward who s).2
  | frame (s : Session) (who : CharacterId) (hwho : who.IsMover) {v : Json}
      (hroute : (Route.read v).result = .ok (s.character who).route) :
      StepsTo s ((Play.walk who).after s)

theorem ne_zero_of_isFourWay {d : Int} (h : Direction.isFourWay d = true) : d ≠ 0 := by
  rintro rfl
  exact absurd h (by decide)

/-- **One movement keeps bodies apart.** -/
theorem IsSettled.stepsTo (hs : s.IsSettled b) (h : s.StepsTo t) : t.IsSettled b := by
  cases h with
  | straight who hwho hd => exact hs.moveStraight hwho (Or.inl (ne_zero_of_isFourWay hd))
  | random who hwho => exact (Play.roaming_isSettled b hwho).moveRandom hs
  | toward who hwho other => exact (Play.roaming_isSettled b hwho).moveTowardPoint hs _
  | away who hwho other => exact (Play.roaming_isSettled b hwho).moveAwayFromPoint hs _
  | towardPlayer who hwho => exact (Play.roaming_isSettled b hwho).moveTowardPlayer hs
  | awayFromPlayer who hwho => exact (Play.roaming_isSettled b hwho).moveAwayFromPlayer hs
  | forward who hwho => exact (Play.roaming_isSettled b hwho).moveForward hs
  | frame who hwho hroute =>
      refine (Play.roaming_isSettled b hwho).walk ?_ hs
      intro d hd
      exact ne_zero_of_isFourWay ((Route.headsAlong_read hroute).stepsAlong d hd)

/-- Several movements, of events and of the player, in any order. -/
def RoamsTo : Session → Session → Prop := Relation.ReflTransGen StepsTo

/-- **Bodies stay apart.**  However events and the player move, everybody stays on the map, and no two
obstacles come to be on one tile; nor does an obstacle come to be on a tile with a member of the party,
if the player does not go through everything. -/
theorem RoamsTo.staysApart (h : s.RoamsTo t) (hown : s.HoldsOwn) (hmap : s.AllOnMap)
    (hevents : s.ObstaclesApart) (hparty : s.PartyApart) :
    t.AllOnMap ∧ t.ObstaclesApart ∧ (s.player.body.through = false → t.PartyApart) := by
  have hstart : s.IsSettled s.player.body.through := ⟨hmap, hevents, fun _ => hparty, hown, rfl⟩
  have hend : t.IsSettled s.player.body.through := by
    induction h with
    | refl => exact hstart
    | tail _ hstep ih => exact ih.stepsTo hstep
  exact ⟨hend.onMap, hend.events, hend.party⟩

/-! ### A yard -/

/-- A crate on a tile, which stands in the way. -/
def crate (id x : Int) : MapEvent := { id, map := 1, body := { x } }

/-- A yard with two crates in a row, and the player before them. -/
def yard (through : Bool) : Session where
  map := { id := 1, width := 3, height := 2, events := ⟨[(1, crate 1 1), (2, crate 2 2)]⟩ }
  player := { body := { through } }

theorem event?_yard {through : Bool} {id : Int} {e : MapEvent}
    (h : (yard through).event? id = some e) : e = crate id id ∧ (id = 1 ∨ id = 2) := by
  have hfind : OrderedMap.find id [(1, crate 1 1), (2, crate 2 2)] = some e := h
  simp only [OrderedMap.find, beq_iff_eq] at hfind
  split at hfind
  · next hid =>
      subst hid
      exact ⟨(Option.some.inj hfind).symm, Or.inl rfl⟩
  · split at hfind
    · next hid =>
        subst hid
        exact ⟨(Option.some.inj hfind).symm, Or.inr rfl⟩
    · cases hfind

theorem holdsOwn_yard (through : Bool) : (yard through).HoldsOwn := by
  intro id e he
  obtain ⟨rfl, -⟩ := event?_yard he
  rfl

theorem allOnMap_yard (through : Bool) : (yard through).AllOnMap := by
  intro who c hc
  cases who with
  | player =>
      cases hc
      rfl
  | follower place => cases hc
  | event id =>
      obtain ⟨e, he, rfl⟩ := Option.map_eq_some_iff.mp hc
      obtain ⟨rfl, rfl | rfl⟩ := event?_yard he
      · rfl
      · rfl

theorem obstaclesApart_yard (through : Bool) : (yard through).ObstaclesApart := by
  intro id id' e e' he he' _ _ hpoint
  obtain ⟨rfl, -⟩ := event?_yard he
  obtain ⟨rfl, -⟩ := event?_yard he'
  exact congrArg Point.x hpoint

theorem partyApart_yard (through : Bool) : (yard through).PartyApart := by
  intro id e m he _ hm hpoint
  obtain ⟨rfl, hid⟩ := event?_yard he
  rcases mem_partyCharacters.mp hm with rfl | ⟨k, c, -, hc, -⟩
  · have hx : id = 0 := congrArg Point.x hpoint
    omega
  · cases hc

/-- The yard after the player has gone down, and the first crate to where it stood. -/
def yardLater : Session :=
  (Act.moveStraight (.event 1) Direction.left
    (Act.moveStraight .player Direction.down (yard false)).2).2

/-- The crates and the player stay apart. -/
theorem staysApart_yard : (yard false).HoldsOwn ∧ (yard false).AllOnMap ∧
    (yard false).ObstaclesApart ∧ (yard false).PartyApart ∧ (yard false).RoamsTo yardLater ∧
      yardLater.AllOnMap ∧ yardLater.ObstaclesApart ∧ yardLater.PartyApart := by
  have hroams : (yard false).RoamsTo yardLater :=
    .tail (.single (.straight _ .player trivial (by decide)))
      (.straight _ (.event 1) trivial (by decide))
  obtain ⟨hmap, hevents, hparty⟩ := hroams.staysApart (holdsOwn_yard _) (allOnMap_yard _)
    (obstaclesApart_yard _) (partyApart_yard _)
  exact ⟨holdsOwn_yard _, allOnMap_yard _, obstaclesApart_yard _, partyApart_yard _, hroams, hmap,
    hevents, hparty rfl⟩

/-- A player that goes through everything steps onto a crate. -/
theorem not_partyApart_throughPlayer : (yard true).HoldsOwn ∧ (yard true).AllOnMap ∧
    (yard true).ObstaclesApart ∧ (yard true).PartyApart ∧
      ∃ t, (yard true).RoamsTo t ∧ ¬t.PartyApart := by
  refine ⟨holdsOwn_yard _, allOnMap_yard _, obstaclesApart_yard _, partyApart_yard _, ?_⟩
  refine ⟨(Act.moveStraight .player Direction.right (yard true)).2, ?_, fun hparty => ?_⟩
  · exact .single (.straight _ .player trivial (by decide))
  · exact hparty 1 (crate 1 1) _ rfl ⟨rfl, rfl⟩ (player_mem_partyCharacters _) rfl

end Session

end EventLayer
