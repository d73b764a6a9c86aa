/-
**Setting up a map.**

A map is read from its data: its size, its tiles, and its events on the pages that are due.  It takes
the place of the map before, but what that one has left in the queue stays, and so does a request for
a refresh.  Behind what was queued stand the lists of the new map's events that are started by map
setup, in the order of the events, and those of the common events, in the order of the database.
Frames set up no map, and take lists from the front of the queue only, so that what was queued is run
once.

Main definitions:

* `MapState.ofData`, `Game.mapOf` — a map as it is read;
* `MapState.setupLists`, `Database.setupListsOf` — the lists that setting up a map queues;
* `Session.onMap` — a session on a map that has just been set up.

Main results:

* `Play.setupMap_eq_ok` — **what setting up a map comes to**;
* `Play.queueLeft_later` — **frames take lists from the front of the queue only**;
* `Play.setupMap_queue` — **what is queued when a map is set up**.
-/
import EventLayer.Proofs.Map.Commons
import EventLayer.Proofs.Map.Pages
import EventLayer.Proofs.Saving.Reload

set_option autoImplicit false
set_option relaxedAutoImplicit false

namespace EventLayer

/-! ### What is queued -/

/-- The lists of the events of a map that are started by map setup, in their order. -/
def MapState.setupLists (m : MapState) : List PendingRun :=
  (m.eventList.filter (·.start.isKind .mapSetup)).map fun e => ⟨e.list, e.id⟩

/-- The lists of those common events that are started by map setup. -/
def Database.setupListsOf (db : Database) (commons : List CommonEvent) : List PendingRun :=
  (commons.filter (·.start.isKind .mapSetup)).map fun c =>
    ⟨CommonEvent.listOf (Play.commonEntry db c.id), 0⟩

/-- The lists of the common events that are started by map setup, in the order of the database. -/
def Database.setupLists (db : Database) : Except Fault (List PendingRun) :=
  (Play.readCommons db db.commonEventIds).result.map db.setupListsOf

/-! ### A map from its data -/

/-- A map as it is read from its data: nothing is queued on it, and no common event is known. -/
def MapState.ofData (id : Int) (data : Json) (db : Database) (stores : Stores) :
    Except Fault MapState := do
  let width ← ((← data.fieldD "width" (.int 0)).orElse (.int 0)).toInt
  let height ← ((← data.fieldD "height" (.int 0)).orElse (.int 0)).toInt
  let tiles := (← data.fieldD "data" .null).orElse (.arr [])
  let raw ← ((← data.fieldD "events" .null).orElse (.arr [])).elements
  let events ← (Play.readEvents id db stores ∅ raw).result
  return { id, width, height, tiles, events }

/-- A map of a game as it is read with given stores. -/
def Game.mapOf (g : Game) (stores : Stores) (id : Int) (given : Option Json) :
    Except Fault MapState := do
  MapState.ofData id (← g.mapData id given) g.database stores

/-- A session on a map that has just been set up, with the common events known. -/
def Session.onMap (m : MapState) (commons : List CommonEvent) (s : Session) : Session :=
  { s with
    interpreter := s.interpreter.clear
    map := { m with
      needsRefresh := s.map.needsRefresh
      pending := s.map.pending ++ (m.setupLists ++ s.game.database.setupListsOf commons)
      commons := some commons } }

namespace Play

open Session

variable {g : Game} {s t : Session} {id : Int} {given : Option Json}

/-- The queue is extended at its end, and nothing else of the map is written. -/
theorem queueSetup_eq_ok (hs : s.KnowsCommons g) (h : queueSetup s = .ok () t) :
    ∃ commons notices, (readCommons g.database g.database.commonEventIds).result = .ok commons ∧
      t = { s with
        map.pending := s.map.pending ++
          (s.map.setupLists ++ s.game.database.setupListsOf commons)
        map.commons := some commons
        notices := notices } := by
  rw [queueSetup, get_bind_apply, modify_bind_apply] at h
  obtain ⟨commons, u, hu, h⟩ := bind_eq_ok h
  have hown :
      ({ s with map.pending := s.map.pending ++ s.map.setupLists } : Session).KnowsCommons g := hs
  obtain ⟨hfound, notices, rfl⟩ := commonEvents_eq_ok hown hu
  cases h
  refine ⟨commons, notices, hfound, ?_⟩
  rw [← List.append_assoc]
  rfl

/-- **What setting up a map comes to.** -/
theorem setupMap_eq_ok (hs : s.KnowsCommons g) (h : setupMap id given s = .ok () t) :
    ∃ m commons notices, g.mapOf s.stores id given = .ok m ∧
      (readCommons g.database g.database.commonEventIds).result = .ok commons ∧
        t = { s.onMap m commons with notices } := by
  obtain ⟨data, u, hu, h⟩ := bind_eq_ok h
  obtain ⟨hdata, notices, rfl⟩ := mapData_stays hu
  obtain ⟨_, hfield, h⟩ := except_bind_eq_ok h
  obtain ⟨width, hwidth, h⟩ := except_bind_eq_ok h
  obtain ⟨_, hfield', h⟩ := except_bind_eq_ok h
  obtain ⟨height, hheight, h⟩ := except_bind_eq_ok h
  obtain ⟨tiles, htiles, h⟩ := except_bind_eq_ok h
  rw [modify_bind_apply, get_bind_apply] at h
  obtain ⟨field, hevents, h⟩ := except_bind_eq_ok h
  obtain ⟨entries, hentries, h⟩ := except_bind_eq_ok h
  obtain ⟨events, hread, h⟩ := reading_bind_eq_ok h
  rw [modify_bind_apply] at h
  have hmap : g.mapOf s.stores id given =
      .ok { id, width, height, tiles := tiles.orElse (.arr []), events } := by
    rw [Game.mapOf, ← hs.1, hdata, Except.ok_bind, MapState.ofData, hfield, Except.ok_bind, hwidth,
      Except.ok_bind, hfield', Except.ok_bind, hheight, Except.ok_bind, htiles, Except.ok_bind, hevents,
      Except.ok_bind, hentries, Except.ok_bind]
    exact congrArg (· >>= _) hread
  have hqueue := fun hknows => queueSetup_eq_ok (g := g) hknows h
  obtain ⟨commons, notices, hcommons, rfl⟩ := hqueue ⟨hs.1, hs.2⟩
  exact ⟨_, commons, notices, hmap, hcommons, rfl⟩

/-! ### The pages of a map that was just read -/

theorem duePage_readEvents {map : Int} {db : Database} {stores : Stores}
    {events found : OrderedMap Int MapEvent} {entries : List Json}
    (h : (readEvents map db stores events entries).result = .ok found)
    (hevents : ∀ e ∈ events.values, e.duePage db stores = .ok e.pageIndex) :
    ∀ e ∈ found.values, e.duePage db stores = .ok e.pageIndex := by
  induction entries generalizing events with
  | nil =>
      cases h
      exact hevents
  | cons entry rest ih =>
      rcases readEvents_cons h with ⟨-, h⟩ | ⟨fields, new, -, -, hnew, h⟩
      · exact ih h hevents
      · refine ih h fun e he => ?_
        rcases OrderedMap.mem_values_insert he with hold | rfl
        · exact hevents e hold
        · exact MapEvent.duePage_ofFields hnew

/-- A map is read under the number that was asked for, and its events show the pages that are due. -/
theorem mapOf_eq_ok {stores : Stores} {m : MapState} (h : g.mapOf stores id given = .ok m) :
    m.id = id ∧ ∀ e ∈ m.eventList, e.duePage g.database stores = .ok e.pageIndex := by
  obtain ⟨data, -, h⟩ := Except.bind_eq_ok h
  obtain ⟨_, -, h⟩ := Except.bind_eq_ok h
  obtain ⟨width, -, h⟩ := Except.bind_eq_ok h
  obtain ⟨_, -, h⟩ := Except.bind_eq_ok h
  obtain ⟨height, -, h⟩ := Except.bind_eq_ok h
  obtain ⟨_, -, h⟩ := Except.bind_eq_ok h
  obtain ⟨_, -, h⟩ := Except.bind_eq_ok h
  obtain ⟨raw, -, h⟩ := Except.bind_eq_ok h
  obtain ⟨events, hevents, h⟩ := Except.bind_eq_ok h
  cases h
  exact ⟨rfl, duePage_readEvents hevents fun e he => by cases he⟩

/-! ### The queue in later frames -/

/-- The map has a given number, and of a queue only its front is gone. -/
def QueueLeft (id : Int) (queue : List PendingRun) (s : Session) : Prop :=
  s.map.id = id ∧ s.map.pending <:+ queue

theorem upheld_queueLeft (id : Int) (queue : List PendingRun) :
    UpheldThroughout (QueueLeft id queue) (QueueLeft id queue) := by
  have hrests : RestsOnFixed (QueueLeft id queue) := by
    rintro s t ⟨hid, hqueue⟩ h
    have hid' : t.fixed.map.id = s.fixed.map.id := congrArg (fun u : Session => u.map.id) h
    have hqueue' : t.fixed.map.pending = s.fixed.map.pending :=
      congrArg (fun u : Session => u.map.pending) h
    exact ⟨hid'.trans hid, (congrArg (· <:+ queue) hqueue').mpr hqueue⟩
  refine upheldThroughout_of_fixed hrests ?_ ?_
  · rintro s ⟨hid, hqueue⟩
    exact ⟨hid, (List.tail_suffix _).trans hqueue⟩
  · exact preserves_commonEvents fun _ _ _ h => h

/-- **Frames take lists from the front of the queue only**, and set up no map. -/
theorem queueLeft_later (s : Session) (n : Nat) : QueueLeft s.map.id s.map.pending (s.later n) := by
  have hkeeps := Both.keeps (upheld_queueLeft s.map.id s.map.pending).framed.advance
  exact later_of_preserves hkeeps.preserves ⟨rfl, List.suffix_refl _⟩ n

/-! ### The queue of a map that was just set up -/

/-- **What is queued when a map is set up.**  In front stands what was queued before; behind it the
lists of the new map's events, all on the pages that are due, and those of the common events.  So the
queue is that of the new map exactly if nothing was left from before, and in the frames that follow it
is worked off from its front. -/
theorem setupMap_queue (hs : Reachable g s) (h : setupMap id given s = .ok () t) :
    ∃ common, g.database.setupLists = .ok common ∧ t.map.id = id ∧ t.ShowsDuePages ∧
      t.map.pending = s.map.pending ++ (t.map.setupLists ++ common) ∧
      (t.map.pending = t.map.setupLists ++ common ↔ s.map.pending = []) ∧
      ∀ n, (t.later n).map.id = id ∧ (t.later n).map.pending <:+ t.map.pending := by
  obtain ⟨m, commons, notices, hmap, hcommons, rfl⟩ := setupMap_eq_ok hs.knowsCommons h
  obtain ⟨hid, hdue⟩ := mapOf_eq_ok hmap
  have hgame : s.game = g := hs.knowsCommons.1
  have hcommon : g.database.setupLists = .ok (s.game.database.setupListsOf commons) := by
    rw [Database.setupLists, hcommons, hgame]
    rfl
  refine ⟨_, hcommon, hid, fun e he => ?_, rfl, List.append_left_eq_self, fun n => ?_⟩
  · rw [← hgame] at hdue
    exact hdue e he
  · obtain ⟨hsame, hsuffix⟩ := queueLeft_later { s.onMap m commons with notices } n
    exact ⟨hsame.trans hid, hsuffix⟩

/-! ### Two maps -/

/-- A game whose first map has an event that is started by map setup; its other maps are bare. -/
def twoMaps : Game where
  mapFile := fun map =>
    let page : Json := .obj [("trigger", 7), ("list", .arr [])]
    let event : Json := .obj [("id", 1), ("pages", .arr [page])]
    .ok (some (if map.isInt 1 then .obj [("events", .arr [.null, event])] else .obj []))

/-- The game on its first map. -/
def onFirstMap : Session := (setupMap 1).after (Session.begin twoMaps {})

/-- The game on its second map, to which it has come before a frame has passed. -/
def onSecondMap : Session := (setupMap 2).after onFirstMap

theorem reachable_onFirstMap : Reachable twoMaps onFirstMap := .after (.begin {}) (.setupMap 1 none)

/-- The first map that is set up queues its own lists. -/
theorem setupMap_queue_onFirstMap : ∃ common, twoMaps.database.setupLists = .ok common ∧
    onFirstMap.map.pending = onFirstMap.map.setupLists ++ common := by
  have hsetup : (setupMap 1).succeeds (Session.begin twoMaps {}) = true := by decide +kernel
  obtain ⟨common, hcommon, -, -, -, hown, -⟩ :=
    setupMap_queue (.begin {}) (eq_ok_of_succeeds hsetup)
  exact ⟨common, hcommon, hown.mpr rfl⟩

/-- On the second map a list of the first one waits. -/
theorem not_ownQueue_onSecondMap : Reachable twoMaps onFirstMap ∧
    setupMap 2 none onFirstMap = .ok () onSecondMap ∧
      ∀ common, twoMaps.database.setupLists = .ok common →
        onSecondMap.map.pending ≠ onSecondMap.map.setupLists ++ common := by
  have hsetup : (setupMap 2).succeeds onFirstMap = true := by decide +kernel
  refine ⟨reachable_onFirstMap, eq_ok_of_succeeds hsetup, fun common hcommon hqueue => ?_⟩
  have hnone : common = [] := (Except.ok.inj hcommon).symm
  have hlength : onSecondMap.map.pending.length = (onSecondMap.map.setupLists ++ []).length := by
    rw [hqueue, hnone]
  exact absurd hlength (by decide +kernel)

end Play

end EventLayer
