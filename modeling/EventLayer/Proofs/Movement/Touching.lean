/-
**Touching the party.**

An event can wait for the party to touch it.  It is looked for in four places: where a step of an event
fails, where a step of the player fails, under the player when it arrives on a tile, and under the followers
that have moved.  The first two regard the tile that could not be stepped on, the third one only events that
have not the priority of the player.  So a step that succeeds starts nothing at once; an event that steps
onto the party, since it goes through everything or has another priority than the player, is not started by
it, nor is one with the priority of the player that it steps onto because one of the two goes through
everything.

Main definitions:

* `Session.AwaitsParty` — an event that waits for the party;
* `Session.Starts` — an event that is about to run;
* `Session.Bears`, `Session.Holds` — what a walk of the player leaves of an event;
* `Session.startsUnder`, `Session.walked` — an arrival, and a frame of the player up to it.

Main results:

* `Session.AwaitsParty.starts_of_attempts` — an attempted step of the event starts it if there is no way;
* `Session.AwaitsParty.starts_of_blocking` — what blocks a step of the player starts;
* `Play.preserves_enterRegion` — entering a region leaves an event that waits for the party;
* `Play.starts_arrive_iff` — what an arrival starts;
* `Session.AwaitsParty.starts_advancePlayer_iff` — what a frame of the player starts;
* `Session.partyTouch_starts_iff` — **when an event that waits for the party is started by touch**.
-/
import EventLayer.Proofs.Map.RegionEntry
import EventLayer.Proofs.Movement.Attempts
import EventLayer.Proofs.Turns.Queues

set_option autoImplicit false
set_option relaxedAutoImplicit false

namespace EventLayer

/-- Starting an event once more does no more. -/
theorem MapEvent.startIfAny_startIfAny (e : MapEvent) : e.startIfAny.startIfAny = e.startIfAny := by
  cases hlist : e.list.truthy with
  | true => rw [startIfAny, startIfAny_list, hlist, if_pos rfl, startIfAny, hlist]; rfl
  | false => rw [startIfAny, startIfAny_list, hlist]; rfl

namespace Session

/-- An event is about to run. -/
def Starts (t : Session) (id : Int) : Prop := ∃ e, t.event? id = some e ∧ e.starting = true

/-- An event with commands on the map that touching the party starts. -/
structure AwaitsParty (s : Session) (id : Int) (e : MapEvent) : Prop where
  found : s.event? id = some e
  stands : e.erased = false
  kind : e.start.isKind .partyTouch = true
  list : e.list.truthy = true

variable {s t : Session} {id d : Int} {e : MapEvent} {test : MapEvent → Bool}

/-! ### Events that start -/

theorem isEventRunning_of_starts (h : t.Starts id) : t.isEventRunning = true := by
  obtain ⟨e, he, hstarting⟩ := h
  have hany : t.map.anyStarting = true := List.any_eq_true.2 ⟨e, OrderedMap.mem_values_of_get? he, hstarting⟩
  rw [isEventRunning, hany, Bool.or_true]

theorem not_starts_of_idle (hidle : s.isEventRunning = false) : ¬s.Starts id := fun h => by
  rw [isEventRunning_of_starts h] at hidle
  cases hidle

/-- A change of a character starts nothing. -/
theorem starts_updateCharacter (who : CharacterId) (f : Character → Character) :
    (s.updateCharacter who f).Starts id ↔ s.Starts id := by
  cases who with
  | player => exact Iff.rfl
  | follower place => exact Iff.rfl
  | event id' =>
      by_cases hid : id' = id
      · subst hid
        rw [Starts, updateCharacter, event?_updateEvent]
        constructor
        · rintro ⟨_, hfound, hstarting⟩
          obtain ⟨e, he, rfl⟩ := Option.map_eq_some_iff.1 hfound
          exact ⟨e, he, hstarting⟩
        · rintro ⟨e, he, hstarting⟩
          exact ⟨_, Option.map_eq_some_iff.2 ⟨e, he, rfl⟩, hstarting⟩
      · rw [Starts, updateCharacter, event?_updateEvent_of_ne hid]
        exact Iff.rfl

/-- What waits for the party is started by the touch of the player as well. -/
theorem AwaitsParty.isStartedBy (he : s.AwaitsParty id e) : e.isStartedBy MapEvent.touchKinds = true :=
  List.any_eq_true.2 ⟨.partyTouch, by decide, he.kind⟩

/-- Of the events with commands, those that pass the test start. -/
theorem AwaitsParty.starts_startWhere (he : s.AwaitsParty id e) (hidle : s.isEventRunning = false)
    (test : MapEvent → Bool) : (s.startWhere test).Starts id ↔ test e = true := by
  have hnot : e.starting = false := starting_of_idle hidle (OrderedMap.mem_values_of_get? he.found)
  rw [Starts, event?_startWhere, he.found, Option.map_some]
  cases htest : test e with
  | true =>
      refine iff_of_true ⟨_, rfl, ?_⟩ rfl
      rw [if_pos rfl, MapEvent.startIfAny_starting, he.list, Bool.or_true]
  | false =>
      refine iff_of_false ?_ Bool.false_ne_true
      rintro ⟨_, heq, hstarting⟩
      cases heq
      rw [if_neg Bool.false_ne_true, hnot] at hstarting
      cases hstarting

/-! ### Steps of the event -/

theorem AwaitsParty.character (he : s.AwaitsParty id e) : s.character (.event id) = e.body :=
  character_of_event he.found

/-- A change of its character leaves an event waiting for the party. -/
theorem AwaitsParty.updateCharacter (he : s.AwaitsParty id e) (f : Character → Character) :
    (s.updateCharacter (.event id) f).AwaitsParty id { e with body := f e.body } where
  found := by rw [Session.updateCharacter, event?_updateEvent, he.found, Option.map_some]
  stands := he.stands
  kind := he.kind
  list := he.list

/-- A direct step starts the event exactly if there is no way. -/
theorem AwaitsParty.starts_moveStraight (he : s.AwaitsParty id e) (hidle : s.isEventRunning = false)
    (hregard : s.stores.behavior ≠ .ignorePlayer) (hparty : s.partyAt (e.body.point.step d) = true) :
    ((Act.moveStraight (.event id) d s).2).Starts id ↔ s.canPass (.event id) e.body.point d = false := by
  simp only [Act.moveStraight, he.character]
  cases hpass : s.canPass (.event id) e.body.point d with
  | true =>
      refine iff_of_false ?_ Bool.true_eq_false.mp
      rw [if_pos rfl]
      exact fun h => not_starts_of_idle hidle ((starts_updateCharacter _ _).1 h)
  | false =>
      refine iff_of_true ?_ rfl
      have hstuck := he.updateCharacter fun c => stuck c d
      have hrunning := (isEventRunning_updateCharacter (.event id) (fun c => stuck c d) s).trans hidle
      have hignores : (s.updateCharacter (.event id) fun c => stuck c d).ignoresPlayer (.event id) = false :=
        beq_eq_false_iff_ne.2 hregard
      have htouches : (s.updateCharacter (.event id) fun c => stuck c d).touches
          { e with body := stuck e.body d } (e.body.point.step d) = true := by
        have hkind : ({ e with body := stuck e.body d } : MapEvent).start.isKind .partyTouch = true := he.kind
        rw [touches, hkind, Bool.true_and]
        exact Bool.or_eq_true_iff.2 (Or.inr hparty)
      rw [if_neg Bool.false_ne_true, touch, eventTouch, hrunning, hignores, Bool.or_false,
        if_neg Bool.false_ne_true, hstuck.found]
      dsimp only
      rw [if_pos htouches, Starts, event?_updateEvent, hstuck.found, Option.map_some]
      refine ⟨_, rfl, ?_⟩
      rw [MapEvent.startIfAny_starting, hstuck.list, Bool.or_true]

/-- **An attempted step of the event starts it exactly if there is no way.** -/
theorem AwaitsParty.starts_of_attempts (he : s.AwaitsParty id e) (hidle : s.isEventRunning = false)
    (hregard : s.stores.behavior ≠ .ignorePlayer) (hparty : s.partyAt (e.body.point.step d) = true)
    (h : s.Attempts (.event id) d t) : t.Starts id ↔ s.canPass (.event id) e.body.point d = false := by
  obtain ⟨draws, f, g, hf, -, rfl⟩ := h.stepsNoting
  have hdrawn : ({ s with draws } : Session).AwaitsParty id e := ⟨he.found, he.stands, he.kind, he.list⟩
  have hpoint : (f e.body).point = e.body.point := hf.keeps Character.point (fun _ _ _ => rfl) _
  have hstep := (hdrawn.updateCharacter f).starts_moveStraight
    ((isEventRunning_updateCharacter _ f _).trans hidle) hregard
    (show ({ s with draws } : Session).partyAt ((f e.body).point.step d) = true by rw [hpoint]; exact hparty)
  rw [starts_updateCharacter, hstep, canPass_noted hf]
  change ({ s with draws } : Session).canPass _ (f e.body).point d = false ↔ _
  rw [hpoint]
  exact Iff.rfl

/-- There is no way where the map ends, and for an event that does not go through everything, nor onto a
blocked tile, onto one with an obstacle, or, as an obstacle, onto one with a member of the party. -/
theorem canPass_event_eq_false_iff (he : s.AwaitsParty id e)
    (hparty : s.partyAt (e.body.point.step d) = true) :
    s.canPass (.event id) e.body.point d = false ↔ (s.map.isValid (e.body.point.step d) = true →
      e.body.through = false ∧ (e.body.isNormal = true ∨ s.map.isPassable (e.body.point.step d) = false ∨
        s.eventBlocks (.event id) (e.body.point.step d) = true)) := by
  rw [canPass, isBlockedBy, he.character, hparty, Bool.and_true, Bool.and_eq_false_imp]
  refine imp_congr_right fun _ => ?_
  rw [Bool.or_eq_false_iff, Bool.and_eq_false_iff, Bool.not_eq_false', Bool.or_eq_true_iff]
  exact and_congr_right fun _ => or_assoc.symm.trans or_comm

/-! ### Steps of the player -/

/-- What the player bumps into starts, if it stands in the way. -/
theorem AwaitsParty.starts_of_bump (he : s.AwaitsParty id e) (hidle : s.isEventRunning = false)
    (hat : standsOn e (s.player.body.point.step d) = true) (hsolid : e.isSolid = true)
    (hthrough : s.player.body.through = false) : ((Act.moveStraight .player d s).2).Starts id := by
  have hblocks : s.eventBlocks .player (s.player.body.point.step d) = true := by
    refine List.any_eq_true.2 ⟨e, List.mem_filter.2 ⟨OrderedMap.mem_values_of_get? he.found, hat⟩, ?_⟩
    rw [hsolid, Bool.and_true]
    exact decide_eq_true fun h => CharacterId.noConfusion h
  have hpass : s.canPass .player s.player.body.point d = false := by
    change (s.map.isValid _ && (s.player.body.through ||
      (s.map.isPassable _ && !s.eventBlocks .player _))) = false
    rw [hthrough, hblocks, Bool.not_true, Bool.and_false, Bool.false_or, Bool.and_false]
  have hnormal : e.body.isNormal = true := (Bool.and_eq_true_iff.1 hsolid).2
  have hfails : (Act.moveStraight .player d s).2 =
      (s.updateCharacter .player fun c => stuck c d).touch .player (s.player.body.point.step d) :=
    congrArg Prod.snd (if_neg (Bool.eq_false_iff.1 hpass))
  have hstuck : (s.updateCharacter .player fun c => stuck c d).AwaitsParty id e :=
    ⟨he.found, he.stands, he.kind, he.list⟩
  have hrunning := (isEventRunning_updateCharacter .player (fun c => stuck c d) s).trans hidle
  rw [hfails, touch, playerTouch, hrunning, if_neg Bool.false_ne_true, hstuck.starts_startWhere hrunning,
    hat, hnormal, he.isStartedBy]
  rfl

/-! ### What the player does to an event -/

/-- Events that are started keep their numbers. -/
theorem numbered_startWhere (h : Numbered s.map.events) (test : MapEvent → Bool) :
    Numbered (s.startWhere test).map.events := by
  refine numbered_of_numbers h ?_
  rw [startWhere, OrderedMap.mapValues_mapValues]
  refine congrArg (fun f => s.map.events.mapValues f) (funext fun e => ?_)
  unfold MapEvent.startIfAny
  split
  · split <;> rfl
  · rfl

/-- An event is on the map under a number. -/
def Bears (id : Int) (e : MapEvent) (t : Session) : Prop := Numbered t.map.events ∧ t.event? id = some e

/-- An event is on the map as it was, or has been started. -/
def Holds (id : Int) (e : MapEvent) (t : Session) : Prop := Bears id e t ∨ Bears id e.startIfAny t

theorem Bears.startWhere (h : Bears id e s) (test : MapEvent → Bool) :
    Bears id (if test e then e.startIfAny else e) (s.startWhere test) :=
  ⟨numbered_startWhere h.1 test, by rw [event?_startWhere, h.2, Option.map_some]⟩

theorem Holds.startWhere (h : Holds id e s) (test : MapEvent → Bool) : Holds id e (s.startWhere test) := by
  rcases h with h | h
  · have hnext := h.startWhere test
    cases htest : test e with
    | true => exact Or.inr (by rwa [htest, if_pos rfl] at hnext)
    | false => exact Or.inl (by rwa [htest, if_neg Bool.false_ne_true] at hnext)
  · have hnext := h.startWhere test
    rw [MapEvent.startIfAny_startIfAny, ite_self] at hnext
    exact Or.inr hnext

theorem Holds.of_events (h : Holds id e s) (hsame : t.map.events = s.map.events) : Holds id e t := by
  have hbears : ∀ {e' : MapEvent}, Bears id e' s → Bears id e' t := fun hs =>
    ⟨hsame ▸ hs.1, (congrArg (OrderedMap.get? · id) hsame).trans hs.2⟩
  exact h.imp hbears hbears

/-- The player does no more to an event than to start it. -/
theorem visiting_holds (id : Int) (e : MapEvent) : Play.Visiting (Holds id e) :=
  .of_events (fun h hsame => h.of_events hsame) fun test h => h.startWhere test

theorem Holds.starts (h : Holds id e s) (hstarting : e.starting = true) : s.Starts id := by
  rcases h with h | h
  · exact ⟨e, h.2, hstarting⟩
  · exact ⟨_, h.2, by rw [MapEvent.startIfAny_starting, hstarting, Bool.true_or]⟩

/-- An event that is about to run is so after a frame of the player. -/
theorem Starts.advancePlayer (h : s.Starts id) (hs : Numbered s.map.events) :
    (Play.advancePlayer.after s).Starts id := by
  obtain ⟨e, he, hstarting⟩ := h
  have hframe : Play.advancePlayer.Preserves (Holds id e) :=
    (visiting_holds id e).advancePlayer (Play.preserves_commonEvents fun _ _ _ ht => ht) fun _ _ ht => ht
  exact (hframe s (Or.inl ⟨hs, he⟩)).starts hstarting

/-! ### The arrival of the player -/

theorem Holds.touched (h : Holds id e s) : Holds id e s.touched := by
  have hunder : Holds id e s.touchedUnder := by
    unfold touchedUnder
    split
    · exact h
    · exact h.startWhere _
  unfold Session.touched touchedBehind
  split
  · exact hunder
  · have hasked : ∀ l : List Character, Holds id e { s.touchedUnder with player.followers := l } :=
      fun _ => hunder
    exact (hasked _).startWhere _

/-- Whether an arrival starts an event under the player. -/
def startsUnder (s : Session) : Bool := s.map.eventList.any fun e => s.liesUnder e && e.list.truthy

/-- What an arrival touches starts: the event if it lies under the player, or else, if nothing under the
player starts, if it lies under a follower. -/
theorem AwaitsParty.starts_touched_iff (he : s.AwaitsParty id e) (hidle : s.isEventRunning = false) :
    s.touched.Starts id ↔ s.liesUnder e = true ∨ s.startsUnder = false ∧ s.liesBehind e = true := by
  have hunder : s.touchedUnder = s.startWhere s.liesUnder := by
    rw [touchedUnder, hidle, if_neg Bool.false_ne_true]
  cases hany : s.startsUnder with
  | true =>
      have hrunning : s.touchedUnder.isEventRunning = true := by
        rw [hunder, isEventRunning_startWhere]
        exact Bool.or_eq_true_iff.2 (Or.inr hany)
      rw [touched, touchedBehind, if_pos hrunning, hunder, he.starts_startWhere hidle]
      simp
  | false =>
      have hnot : s.liesUnder e = false := by
        have hnone := List.any_eq_false.1 hany e (OrderedMap.mem_values_of_get? he.found)
        rwa [he.list, Bool.and_true, Bool.not_eq_true] at hnone
      have hasked : ({ s with player.followers :=
          (Play.takeMoved s.followerVisible s.player.followers).map Prod.snd } : Session).AwaitsParty id e :=
        ⟨he.found, he.stands, he.kind, he.list⟩
      rw [startWhere_of_none hany] at hunder
      rw [touched, hunder, touchedBehind, hidle, if_neg Bool.false_ne_true]
      dsimp only
      rw [hasked.starts_startWhere hidle, hnot]
      simp

end Session

namespace Play

open Session

variable {s t : Session} {id d : Int} {e : MapEvent}

/-- The events that entering a region starts do not have the number of one that waits for the party. -/
theorem not_contains_of_regionEntries (h : Bears id e s) (hkind : e.start.isKind .partyTouch = true)
    {region : Option Int} {found : List Int × List CommonEvent}
    (hfound : regionEntries region s = .ok found t) : found.1.contains e.id = false := by
  have hids : found.1 = (s.map.eventList.filter fun e => e.start.isRegionEntry region).map (·.id) := by
    rw [regionEntries, get_bind_apply] at hfound
    obtain ⟨_, _, -, hfound⟩ := bind_eq_ok hfound
    cases hfound
    rfl
  rw [hids]
  refine Bool.eq_false_iff.2 fun hmem => ?_
  obtain ⟨e', he', hid⟩ := List.mem_map.1 (List.contains_iff_mem.1 hmem)
  obtain ⟨he', hentry⟩ := List.mem_filter.1 he'
  have hsame := event?_of_mem h.1 he'
  rw [hid, event?_of_mem h.1 (OrderedMap.mem_values_of_get? h.2)] at hsame
  cases hsame
  have hcode := StartRule.code_eq_of_isKind (StartRule.isKind_of_isRegionEntry hentry) hkind
  revert hcode
  decide

/-- Entering a region leaves an event that waits for the party. -/
theorem preserves_enterRegion (hkind : e.start.isKind .partyTouch = true) (region : Option Int) :
    (enterRegion region).Preserves (Bears id e) := by
  refine preserves_getBind fun _ => (preserves_pure ()).ite fun t ht => ?_
  have hentries : (regionEntries region).Preserves (Bears id e) :=
    preserves_getBind fun _ => (preserves_commonEvents fun _ _ _ h => h).bind fun _ => preserves_pure _
  have hreserve : ∀ commons, (reserveAll commons).Preserves (Bears id e) := by
    intro commons
    induction commons with
    | nil => exact preserves_pure ()
    | cons c rest ih =>
        exact (preserves_except _).bind fun _ => Preserves.bind (preserves_modify fun _ h => h) fun _ => ih
  refine holds_after_bind (P := Bears id e) (hentries t ht) fun found u hfound => ?_
  have hstarted := (hentries.of_ok ht hfound).startWhere fun e => found.1.contains e.id
  rw [not_contains_of_regionEntries ht hkind hfound, if_neg Bool.false_ne_true] at hstarted
  exact Preserves.holds_after_modify (hreserve _) hstarted

/-- **An arrival starts an event that waits for the party exactly if it touches it.** -/
theorem starts_arrive_iff (he : s.AwaitsParty id e) (hidle : s.isEventRunning = false)
    (hs : Numbered s.map.events) : (arrive.after s).Starts id ↔
      s.liesUnder e = true ∨ s.startsUnder = false ∧ s.liesBehind e = true := by
  have harrive : arrive.after s = (do
      if ← regionChanged then enterRegion (some (← get).player.lastRegion) : Play Unit).after s.touched := by
    rw [arrive_eq, after, get_bind_apply, hidle]
    rfl
  have htouched : ∃ e', Bears id e' s.touched ∧ e'.start.isKind .partyTouch = true := by
    rcases Holds.touched (Or.inl ⟨hs, he.found⟩) with h | h
    · exact ⟨e, h, he.kind⟩
    · exact ⟨_, h, by rw [MapEvent.startIfAny_start]; exact he.kind⟩
  obtain ⟨e', he', hkind⟩ := htouched
  have hregion : regionChanged.Preserves (Bears id e') := by
    have hread : playerRegion.Preserves (Bears id e') := preserves_getBind fun _ => preserves_except _
    refine hread.bind fun _ => preserves_getBind fun _ => ?_
    exact Preserves.bind (preserves_modify fun _ h => h) fun _ => preserves_pure _
  have hrest : (do
      if ← regionChanged then enterRegion (some (← get).player.lastRegion) : Play Unit).Preserves
        (Bears id e') := by
    refine hregion.bind fun _ => Preserves.ite ?_ (preserves_pure ())
    exact preserves_getBind fun _ => preserves_enterRegion hkind _
  rw [← he.starts_touched_iff hidle, harrive, Starts, (hrest _ he').2, Starts, he'.2]

end Play

/-! ### Frames of the player -/

namespace Session

variable {s t : Session} {id d : Int} {e : MapEvent}

/-- A session in which the player has gone on along its route for a frame, if one is forced on it. -/
def walked (s : Session) : Session := if s.player.body.forcing then (Play.walk .player).after s else s

/-- An event that has not started on the way of the player waits for the party as before. -/
theorem AwaitsParty.of_holds (he : s.AwaitsParty id e) (h : Holds id e t)
    (hidle : t.isEventRunning = false) : t.AwaitsParty id e := by
  rcases h with h | h
  · exact ⟨h.2, he.stands, he.kind, he.list⟩
  · have hnot : ¬t.Starts id := not_starts_of_idle hidle
    refine absurd ⟨_, h.2, ?_⟩ hnot
    rw [MapEvent.startIfAny_starting, he.list, Bool.or_true]

theorem Holds.walked (h : Holds id e s) : Holds id e s.walked := by
  unfold Session.walked
  split
  · exact (visiting_holds id e).roaming.walk (fun _ _ => trivial) h
  · exact h

theorem Holds.numbered (h : Holds id e s) : Numbered s.map.events := by
  rcases h with h | h
  · exact h.1
  · exact h.1

/-- **A frame of the player starts an event that waits for the party exactly if it touches it.**  The player
may go on along a forced route first; if it has moved, then or before, it arrives. -/
theorem AwaitsParty.starts_advancePlayer_iff (he : s.AwaitsParty id e) (hs : Numbered s.map.events)
    (hwalk : s.player.body.forcing = true → (Play.walk .player).succeeds s = true)
    (hidle : s.walked.isEventRunning = false) :
    (Play.advancePlayer.after s).Starts id ↔ s.walked.player.body.moved = true ∧
      (s.walked.liesUnder e = true ∨ s.walked.startsUnder = false ∧ s.walked.liesBehind e = true) := by
  have hholds : Holds id e s.walked := Holds.walked (Or.inl ⟨hs, he.found⟩)
  have hawaits := he.of_holds hholds hidle
  have hframe : Play.advancePlayer s =
      (if s.walked.player.body.moved then Play.arrive else pure () : Play Unit)
        (s.walked.updateCharacter .player Character.clearMoved) := by
    rw [Play.advancePlayer, Play.get_bind_apply, Session.walked]
    cases hforcing : s.player.body.forcing with
    | true =>
        rw [if_pos rfl, if_pos rfl]
        exact Play.bind_of_ok (Play.eq_ok_of_succeeds (hwalk hforcing))
    | false =>
        rw [if_neg Bool.false_ne_true, if_neg Bool.false_ne_true]
        rfl
  rw [Play.after, hframe]
  change ((if _ then Play.arrive else pure () : Play Unit).after _).Starts id ↔ _
  cases hmoved : s.walked.player.body.moved with
  | true =>
      have hcleared : (s.walked.updateCharacter .player Character.clearMoved).AwaitsParty id e :=
        ⟨hawaits.found, he.stands, he.kind, he.list⟩
      rw [if_pos rfl, Play.starts_arrive_iff hcleared hidle hholds.numbered]
      exact (and_iff_right rfl).symm
  | false =>
      refine iff_of_false ?_ fun h => Bool.false_ne_true h.1
      exact not_starts_of_idle (s := s.walked.updateCharacter .player Character.clearMoved) hidle

/-- What a step of the player that has a way comes to. -/
theorem Attempts.arrives (h : s.Attempts .player d t)
    (hpass : s.canPass .player s.player.body.point d = true) :
    t.map = s.map ∧ t.isEventRunning = s.isEventRunning ∧
      t.player.body.point = s.player.body.point.step d ∧ t.player.body.moved = true ∧
        t.player.body.forcing = s.player.body.forcing := by
  obtain ⟨draws, f, g, hf, hg, rfl⟩ := h.stepsNoting
  have hpoint : (f s.player.body).point = s.player.body.point :=
    hf.keeps Character.point (fun _ _ _ => rfl) _
  have hpass' : (({ s with draws } : Session).updateCharacter .player f).canPass .player
      (f s.player.body).point d = true := by
    rw [canPass_noted hf, hpoint]
    exact hpass
  have hstep : (Act.moveStraight .player d (({ s with draws } : Session).updateCharacter .player f)).2 =
      ((({ s with draws } : Session).updateCharacter .player f).updateCharacter .player
        fun c => stepped c d).followPlayer := congrArg Prod.snd (if_pos hpass')
  rw [hstep]
  refine ⟨rfl, rfl, ?_, ?_, ?_⟩
  · refine (hg.keeps Character.point (fun _ _ _ => rfl) _).trans ?_
    change (f s.player.body).point.step d = _
    rw [hpoint]
  · exact hg.keeps Character.moved (fun _ _ _ => rfl) _
  · refine (hg.keeps Character.forcing (fun _ _ _ => rfl) _).trans ?_
    have hface : ∀ c : Character, (stepped c d).forcing = c.forcing := by
      intro c
      unfold stepped Character.face
      split <;> rfl
    exact (hface _).trans (hf.keeps Character.forcing (fun _ _ _ => rfl) _)

/-- What the player bumps into on any of its attempts is about to run, also after its frame. -/
theorem AwaitsParty.starts_of_blocking (he : s.AwaitsParty id e) (hs : Numbered s.map.events)
    (hidle : s.isEventRunning = false) (h : s.Attempts .player d t)
    (hat : standsOn e (s.player.body.point.step d) = true) (hsolid : e.isSolid = true)
    (hthrough : s.player.body.through = false) :
    t.Starts id ∧ (Play.advancePlayer.after t).Starts id := by
  obtain ⟨draws, f, g, hf, -, rfl⟩ := h.stepsNoting
  have hpoint : (f s.player.body).point = s.player.body.point :=
    hf.keeps Character.point (fun _ _ _ => rfl) _
  have hnoted : (({ s with draws } : Session).updateCharacter .player f).AwaitsParty id e :=
    ⟨he.found, he.stands, he.kind, he.list⟩
  have hstarts := hnoted.starts_of_bump (d := d) hidle
    (show standsOn e ((f s.player.body).point.step d) = true by rw [hpoint]; exact hat) hsolid
    ((hf.keeps Character.through (fun _ _ _ => rfl) _).trans hthrough)
  have hnumbered : Holds id e (({ s with draws } : Session).updateCharacter .player f) :=
    Or.inl ⟨hs, hnoted.found⟩
  have hholds := (visiting_holds id e).roaming.moveStraight (d := d) (Or.inl trivial) hnumbered
  have hstarts' := (starts_updateCharacter .player g).2 hstarts
  exact ⟨hstarts', hstarts'.advancePlayer hholds.numbered⟩

/-! ### Touching the party -/

/-- An event that waits for the party lies under the player on its tile unless it has its priority. -/
theorem AwaitsParty.liesUnder_eq (he : s.AwaitsParty id e) (hat : standsOn e s.player.body.point = true) :
    s.liesUnder e = !e.body.isNormal := by
  rw [liesUnder, hat, he.isStartedBy, Bool.true_and, Bool.and_true]

/-- **When an event that waits for the party is started by touch.**  Nothing runs.  A step of the event
onto the party starts it exactly if it is not taken.  A step of the player that it blocks starts it.  A step
of the player onto its tile starts it in the frame of the player exactly if it has not the priority of the
player, or nothing starts under the player and it lies under a follower; and a frame in which a route is
forced on the player starts it exactly if it is touched where this route leads. -/
theorem partyTouch_starts_iff (hs : Numbered s.map.events) (hidle : s.isEventRunning = false)
    (he : s.AwaitsParty id e) :
    (s.stores.behavior ≠ .ignorePlayer → ∀ {d t}, s.Attempts (.event id) d t →
      s.partyAt (e.body.point.step d) = true →
      (t.Starts id ↔ (s.map.isValid (e.body.point.step d) = true → e.body.through = false ∧
        (e.body.isNormal = true ∨ s.map.isPassable (e.body.point.step d) = false ∨
          s.eventBlocks (.event id) (e.body.point.step d) = true)))) ∧
    (∀ {d t}, s.Attempts .player d t → standsOn e (s.player.body.point.step d) = true →
      (e.isSolid = true → s.player.body.through = false →
        t.Starts id ∧ (Play.advancePlayer.after t).Starts id) ∧
      (s.canPass .player s.player.body.point d = true → s.player.body.forcing = false →
        ((Play.advancePlayer.after t).Starts id ↔
          e.body.isNormal = false ∨ t.startsUnder = false ∧ t.liesBehind e = true))) ∧
    ((s.player.body.forcing = true → (Play.walk .player).succeeds s = true) →
      s.walked.isEventRunning = false →
      ((Play.advancePlayer.after s).Starts id ↔ s.walked.player.body.moved = true ∧
        (s.walked.liesUnder e = true ∨ s.walked.startsUnder = false ∧ s.walked.liesBehind e = true))) := by
  refine ⟨fun hregard d t h hparty => ?_, fun {d t} h hat => ⟨fun hsolid hthrough => ?_, ?_⟩,
    he.starts_advancePlayer_iff hs⟩
  · rw [he.starts_of_attempts hidle hregard hparty h, canPass_event_eq_false_iff he hparty]
  · exact he.starts_of_blocking hs hidle h hat hsolid hthrough
  · intro hpass hfree
    obtain ⟨hmap, hrunning, hpoint, hmoved, hforcing⟩ := h.arrives hpass
    have hthere : t.AwaitsParty id e :=
      ⟨by rw [event?, hmap]; exact he.found, he.stands, he.kind, he.list⟩
    have hstill : t.walked = t := by rw [walked, hforcing, hfree, if_neg Bool.false_ne_true]
    have hframe := hthere.starts_advancePlayer_iff (hmap ▸ hs)
      (fun h => by rw [hforcing, hfree] at h; cases h) (by rw [hstill, hrunning, hidle])
    rw [hstill, hthere.liesUnder_eq (hpoint ▸ hat), Bool.not_eq_true'] at hframe
    rw [hframe]
    exact and_iff_right hmoved

/-- An event with commands beside the player, which the touch of the party starts. -/
def visitor (priority : Int) : MapEvent :=
  { id := 1, map := 1, pages := [.ofFields [("list", .arr [.obj []])]], pageIndex := 0,
    start := { code := .int TriggerKind.partyTouch.code }, body := { priority } }

/-- Two tiles, on which the event and the player stand. -/
def parlour (priority : Int) : Session where
  map := { id := 1, width := 2, height := 1, events := ⟨[(1, visitor priority)]⟩ }
  player := { body := { x := 1 } }

theorem awaitsParty_parlour (priority : Int) : (parlour priority).AwaitsParty 1 (visitor priority) :=
  ⟨rfl, rfl, rfl, rfl⟩

theorem numbered_parlour (priority : Int) : Numbered (parlour priority).map.events :=
  numbered_insert numbered_empty (visitor priority)

/-- The event steps toward the player. -/
def visit (priority : Int) : Session := (Act.moveStraight (.event 1) Direction.right (parlour priority)).2

/-- The player steps toward the event. -/
def meeting (priority : Int) : Session := (Act.moveStraight .player Direction.left (parlour priority)).2

/-- An event with the priority of the player is started by its step onto the player, and by one of the player
onto it.  An event with a lower priority is started in the frame of the player that has stepped onto it. -/
theorem partyTouch_starts_inParlour : (parlour normalPriority).isEventRunning = false ∧
    (visit normalPriority).Starts 1 ∧ (meeting normalPriority).Starts 1 ∧
      (parlour 0).isEventRunning = false ∧ (Play.advancePlayer.after (meeting 0)).Starts 1 := by
  obtain ⟨hvisit, hmeeting, -⟩ := partyTouch_starts_iff (numbered_parlour normalPriority) (by decide)
    (awaitsParty_parlour normalPriority)
  obtain ⟨-, hmeeting', -⟩ :=
    partyTouch_starts_iff (numbered_parlour 0) (by decide) (awaitsParty_parlour 0)
  obtain ⟨hblocked, -⟩ := hmeeting (.straight (d := Direction.left) _) (by decide)
  obtain ⟨-, harrives⟩ := hmeeting' (.straight (d := Direction.left) _) (by decide)
  refine ⟨by decide, ?_, (hblocked (by decide) (by decide)).1, by decide, ?_⟩
  · exact (hvisit nofun (.straight (d := Direction.right) _) (by decide)).2 fun _ => by decide
  · exact (harrives (by decide) (by decide)).2 (Or.inl (by decide))

/-- One with a lower priority steps onto the tile of the player, and is not. -/
theorem partyTouch_passed_inParlour : (parlour 0).isEventRunning = false ∧
    (parlour 0).stores.behavior ≠ .ignorePlayer ∧ (parlour 0).AwaitsParty 1 (visitor 0) ∧
      (parlour 0).Attempts (.event 1) Direction.right (visit 0) ∧
        (parlour 0).partyAt ((visitor 0).body.point.step Direction.right) = true ∧ ¬(visit 0).Starts 1 := by
  refine ⟨by decide, nofun, awaitsParty_parlour 0, .straight _, by decide, ?_⟩
  rintro ⟨e, he, hstarting⟩
  have hnot : ((visit 0).event? 1).any (·.starting) = false := by decide
  rw [he] at hnot
  exact absurd hstarting (by simpa using hnot)

end Session

end EventLayer
