/-
**Entering a region.**

When the player arrives on a tile, what lies under it and under the followers is started by touch
first, and only then is the region looked at.  The region counts as seen in any case.  But an event
that was started by touch keeps the events of the region from starting, and since the region has been
seen, they do not start later either.  So entering a region has its effect exactly if nothing was
started by touch, or if there is nothing that the region could start.

Main definitions:

* `Session.startsByTouch` — whether an arrival starts an event by touch;
* `Session.HasEntered` — the events of a region are about to run, its common events wait;
* `Session.HoldsNothing` — a region has nothing that it could start.

Main results:

* `Session.isEventRunning_touched` — what is started by touch counts as running at once;
* `Play.enterRegion_of_idle` — **a region that is entered while nothing runs has its effect**;
* `Play.arrive_hasEntered_iff` — **when an arrival has the effect of entering a region**.
-/
import EventLayer.Proofs.Map.Commons

set_option autoImplicit false
set_option relaxedAutoImplicit false

namespace EventLayer

/-! ### Kinds of triggers -/

namespace StartRule

/-- A trigger is of one kind only. -/
theorem code_eq_of_isKind {r : StartRule} {k k' : TriggerKind} (h : r.isKind k = true)
    (h' : r.isKind k' = true) : k.code = k'.code := by
  have hk : r.code.whole? = some k.code := by simpa [isKind, Json.isInt] using h
  have hk' : r.code.whole? = some k'.code := by simpa [isKind, Json.isInt] using h'
  exact Option.some.inj (hk.symm.trans hk')

theorem isKind_of_isRegionEntry {r : StartRule} {region : Option Int}
    (h : r.isRegionEntry region = true) : r.isKind .regionEntry = true := by
  rw [isRegionEntry, Bool.and_eq_true] at h
  exact h.1

end StartRule

/-- An event that a region starts is not started by touch. -/
theorem MapEvent.isStartedBy_of_regionEntry {e : MapEvent} (h : e.start.isKind .regionEntry = true) :
    e.isStartedBy touchKinds = false := by
  have hother : ∀ kind ∈ touchKinds, TriggerKind.regionEntry.code ≠ kind.code := by decide
  rw [isStartedBy, List.any_eq_false]
  intro kind hkind hk
  exact hother kind hkind (StartRule.code_eq_of_isKind h hk)

/-- Starting an event changes neither how it is started nor what it runs. -/
theorem MapEvent.startIfAny_start (e : MapEvent) : e.startIfAny.start = e.start := by
  unfold startIfAny
  split <;> rfl

theorem MapEvent.startIfAny_list (e : MapEvent) : e.startIfAny.list = e.list := by
  unfold startIfAny
  split <;> rfl

theorem MapEvent.startIfAny_starting (e : MapEvent) :
    e.startIfAny.starting = (e.starting || e.list.truthy) := by
  unfold startIfAny
  split
  · next h => rw [h, Bool.or_true]
  · next h => rw [Bool.not_eq_true] at h; rw [h, Bool.or_false]

/-! ### Starting events -/

namespace Session

variable {s : Session} {p : MapEvent → Bool} {e : MapEvent}

theorem eventList_startWhere (p : MapEvent → Bool) (s : Session) :
    (s.startWhere p).map.eventList = s.map.eventList.map fun e => if p e then e.startIfAny else e :=
  OrderedMap.values_mapValues _ _

/-- An event is about to run if one was before, or if one with commands has just been started. -/
theorem anyStarting_startWhere (p : MapEvent → Bool) (s : Session) :
    (s.startWhere p).map.anyStarting =
      (s.map.anyStarting || s.map.eventList.any fun e => p e && e.list.truthy) := by
  have hevent : ∀ e : MapEvent, (if p e then e.startIfAny else e).starting =
      (e.starting || (p e && e.list.truthy)) := by
    intro e
    cases hp : p e with
    | true => rw [if_pos rfl, MapEvent.startIfAny_starting, Bool.true_and]
    | false => rw [if_neg (by simp), Bool.false_and, Bool.or_false]
  rw [MapState.anyStarting, MapState.anyStarting, eventList_startWhere, List.any_map]
  induction s.map.eventList with
  | nil => rfl
  | cons e rest ih =>
      simp only [List.any_cons, Function.comp_apply, hevent] at ih ⊢
      rw [ih]
      ac_rfl

theorem isEventRunning_startWhere (p : MapEvent → Bool) (s : Session) :
    (s.startWhere p).isEventRunning =
      (s.isEventRunning || s.map.eventList.any fun e => p e && e.list.truthy) := by
  rw [isEventRunning, isEventRunning, anyStarting_startWhere, Bool.or_assoc, Bool.or_assoc,
    Bool.or_assoc]
  rfl

/-- If no event with commands passes the test, nothing is started. -/
theorem startWhere_of_none (h : (s.map.eventList.any fun e => p e && e.list.truthy) = false) :
    s.startWhere p = s := by
  have hevent : ∀ entry ∈ s.map.events.entries,
      (entry.1, if p entry.2 then entry.2.startIfAny else entry.2) = entry := by
    intro entry hentry
    have hnot : (p entry.2 && entry.2.list.truthy) = false := by
      have := List.any_eq_false.mp h entry.2 (List.mem_map_of_mem hentry)
      simpa using this
    cases hp : p entry.2 with
    | false => rfl
    | true =>
        rw [hp, Bool.true_and] at hnot
        rw [if_pos rfl, MapEvent.startIfAny, hnot]
        rfl
  have hevents : s.map.events.mapValues (fun e => if p e then e.startIfAny else e) = s.map.events :=
    congrArg OrderedMap.mk ((List.map_congr_left hevent).trans (List.map_id _))
  rw [startWhere, hevents]

/-- What a region starts is as it was if the test passes over it. -/
theorem mem_startWhere_iff (hp : ∀ e : MapEvent, e.start.isKind .regionEntry = true → p e = false)
    (he : e.start.isKind .regionEntry = true) :
    e ∈ (s.startWhere p).map.eventList ↔ e ∈ s.map.eventList := by
  rw [eventList_startWhere, List.mem_map]
  constructor
  · rintro ⟨old, hold, rfl⟩
    have hkind : old.start.isKind .regionEntry = true := by
      split at he
      · rwa [MapEvent.startIfAny_start] at he
      · exact he
    rwa [hp old hkind]
  · intro hmem
    exact ⟨e, hmem, by rw [hp e he]; rfl⟩

/-! ### What an arrival touches -/

/-- Whether an event lies under the player and is started by that. -/
def liesUnder (s : Session) (e : MapEvent) : Bool :=
  standsOn e s.player.body.point && !e.body.isNormal && e.isStartedBy MapEvent.touchKinds

/-- The tiles of the followers that are seen and have moved. -/
def trodden (s : Session) : List Point :=
  ((Play.takeMoved s.followerVisible s.player.followers).filter (·.1)).map fun e => e.2.point

/-- Whether an event lies under such a follower and is started by that. -/
def liesBehind (s : Session) (e : MapEvent) : Bool :=
  s.trodden.any (standsOn e) && e.start.isKind .partyTouch

/-- Whether an arrival starts an event by touch. -/
def startsByTouch (s : Session) : Bool :=
  (s.map.eventList.any fun e => s.liesUnder e && e.list.truthy) ||
    s.map.eventList.any fun e => s.liesBehind e && e.list.truthy

/-- A session in which what lies under the player has been started. -/
def touchedUnder (s : Session) : Session :=
  if s.isEventRunning then s else s.startWhere s.liesUnder

/-- A session in which what lies under the followers has been started. -/
def touchedBehind (s : Session) : Session :=
  if s.isEventRunning then s
  else
    let asked := (Play.takeMoved s.followerVisible s.player.followers).map Prod.snd
    ({ s with player.followers := asked } : Session).startWhere s.liesBehind

/-- A session in which an arrival has started what it touches. -/
def touched (s : Session) : Session := s.touchedUnder.touchedBehind

theorem arrive_eq : Play.arrive = (do
    if (← get).isEventRunning then return
    modify touched
    if ← Play.regionChanged then Play.enterRegion (some (← get).player.lastRegion) : Play Unit) := rfl

theorem liesUnder_of_regionEntry (h : e.start.isKind .regionEntry = true) :
    s.liesUnder e = false := by
  rw [liesUnder, MapEvent.isStartedBy_of_regionEntry h, Bool.and_false]

theorem liesBehind_of_regionEntry (h : e.start.isKind .regionEntry = true) :
    s.liesBehind e = false := by
  have hother : TriggerKind.regionEntry.code ≠ TriggerKind.partyTouch.code := by decide
  have hparty : e.start.isKind .partyTouch = false :=
    Bool.eq_false_iff.mpr fun hp => hother (StartRule.code_eq_of_isKind h hp)
  rw [liesBehind, hparty, Bool.and_false]

/-- **What is started by touch counts as running at once.** -/
theorem isEventRunning_touched (hidle : s.isEventRunning = false) :
    s.touched.isEventRunning = s.startsByTouch := by
  have hunder : s.touchedUnder = s.startWhere s.liesUnder := by simp [touchedUnder, hidle]
  cases hany : s.map.eventList.any fun e => s.liesUnder e && e.list.truthy with
  | true =>
      have hrunning : s.touchedUnder.isEventRunning = true := by
        rw [hunder, isEventRunning_startWhere, hany, Bool.or_true]
      rw [touched, touchedBehind, if_pos hrunning, hrunning, startsByTouch, hany, Bool.true_or]
  | false =>
      rw [startWhere_of_none hany] at hunder
      rw [touched, hunder, touchedBehind, if_neg (by simp [hidle]), isEventRunning_startWhere,
        startsByTouch, hany]
      exact congrArg (· || _) hidle

/-- An arrival leaves what a region starts as it is. -/
theorem mem_touched_iff (he : e.start.isKind .regionEntry = true) :
    e ∈ s.touched.map.eventList ↔ e ∈ s.map.eventList := by
  have hunder : e ∈ s.touchedUnder.map.eventList ↔ e ∈ s.map.eventList := by
    unfold touchedUnder
    split
    · exact Iff.rfl
    · exact mem_startWhere_iff (fun _ => liesUnder_of_regionEntry) he
  have hbehind : ∀ u : Session, e ∈ u.touchedBehind.map.eventList ↔ e ∈ u.map.eventList := by
    intro u
    unfold touchedBehind
    split
    · exact Iff.rfl
    · exact mem_startWhere_iff (fun _ => liesBehind_of_regionEntry) he
  exact (hbehind _).trans hunder

/-- Beyond its events, and the marks of its followers, an arrival leaves a session as it is. -/
theorem touched_stays (s : Session) : s.Stays s.touched ∧ s.touched.player.body = s.player.body ∧
    s.touched.player.lastRegion = s.player.lastRegion ∧ s.touched.scratch = s.scratch ∧
      s.touched.map.region = s.map.region := by
  have hunder : s.touchedUnder.player = s.player ∧ s.touchedUnder.scratch = s.scratch ∧
      s.touchedUnder.map.region = s.map.region := by
    unfold touchedUnder
    split <;> exact ⟨rfl, rfl, rfl⟩
  have hbehind : ∀ u : Session, u.touchedBehind.player.body = u.player.body ∧
      u.touchedBehind.player.lastRegion = u.player.lastRegion ∧
        u.touchedBehind.scratch = u.scratch ∧ u.touchedBehind.map.region = u.map.region := by
    intro u
    unfold touchedBehind
    split <;> exact ⟨rfl, rfl, rfl, rfl⟩
  have hstays : s.Stays s.touchedUnder := Play.Framed.quiet_touchHere.stays s
  have hstays' : s.touchedUnder.Stays s.touched := Play.Framed.quiet_touchFollowers.stays _
  obtain ⟨hplayer, hscratch, hregion⟩ := hunder
  obtain ⟨hbody', hlast', hscratch', hregion'⟩ := hbehind s.touchedUnder
  exact ⟨hstays.trans hstays', hbody'.trans (congrArg Player.body hplayer),
    hlast'.trans (congrArg Player.lastRegion hplayer), hscratch'.trans hscratch,
    hregion'.trans hregion⟩

/-! ### What a region starts -/

/-- The events of a region that have commands are about to run, and its common events wait behind
those that waited before. -/
def HasEntered (region : Int) (ids : List Int) (s t : Session) : Prop :=
  (∀ e ∈ t.map.eventList, e.start.isRegionEntry (some region) = true → e.list.truthy = true →
    e.starting = true) ∧ t.scratch.reserved = s.scratch.reserved ++ ids

/-- The region has no event with commands and no common event. -/
def HoldsNothing (region : Int) (ids : List Int) (s : Session) : Prop :=
  (∀ e ∈ s.map.eventList, e.start.isRegionEntry (some region) = true → e.list.truthy = false) ∧
    ids = []

theorem starting_of_idle (hidle : s.isEventRunning = false) (he : e ∈ s.map.eventList) :
    e.starting = false := by
  rw [isEventRunning, Bool.or_eq_false_iff] at hidle
  have hnone := List.any_eq_false.mp hidle.2 e he
  simpa using hnone

/-- A region that could start nothing has been entered without further ado. -/
theorem hasEntered_touched_iff {region : Int} {ids : List Int} (hidle : s.isEventRunning = false) :
    HasEntered region ids s s.touched ↔ s.HoldsNothing region ids := by
  have hreserved : s.touched.scratch.reserved = s.scratch.reserved :=
    congrArg Scratch.reserved s.touched_stays.2.2.2.1
  have hmem : ∀ e : MapEvent, e.start.isRegionEntry (some region) = true →
      (e ∈ s.touched.map.eventList ↔ e ∈ s.map.eventList) := fun e he =>
    mem_touched_iff (StartRule.isKind_of_isRegionEntry he)
  constructor
  · rintro ⟨hevents, hids⟩
    refine ⟨fun e he hentry => Bool.eq_false_iff.mpr fun hlist => ?_, ?_⟩
    · have hstarting := hevents e ((hmem e hentry).mpr he) hentry hlist
      rw [starting_of_idle hidle he] at hstarting
      cases hstarting
    · rw [hreserved] at hids
      exact List.append_right_eq_self.mp hids.symm
  · rintro ⟨hevents, rfl⟩
    refine ⟨fun e he hentry hlist => ?_, by rw [hreserved, List.append_nil]⟩
    rw [hevents e ((hmem e hentry).mp he) hentry] at hlist
    cases hlist

end Session

namespace Play

open Session

variable {g : Game} {s : Session} {region : Int} {commons : List CommonEvent} {ids : List Int}

/-- The numbers of common events are appended to those that wait. -/
theorem reserveAll_of_numbers (h : commons.mapM (fun c => c.id.toInt) = .ok ids) (s : Session) :
    reserveAll commons s =
      .ok () { s with scratch.reserved := s.scratch.reserved ++ ids } := by
  induction commons generalizing s ids with
  | nil =>
      rw [List.mapM_nil] at h
      cases h
      rw [List.append_nil]
      rfl
  | cons c rest ih =>
      rw [List.mapM_cons] at h
      obtain ⟨id, hid, h⟩ := Except.bind_eq_ok h
      obtain ⟨others, hothers, h⟩ := Except.bind_eq_ok h
      cases h
      rw [reserveAll, hid, bind_apply, lift_ok_apply]
      dsimp only
      rw [modify_bind_apply, ih hothers]
      simp only [reserve, List.append_assoc, List.singleton_append]

/-- **A region that is entered while nothing runs has its effect.** -/
theorem enterRegion_of_idle (hs : s.KnowsCommons g) (hidle : s.isEventRunning = false)
    (hcommons : (readCommons g.database g.database.commonEventIds).result = .ok commons)
    (hids : (commons.filter (·.start.isRegionEntry (some region))).mapM (fun c => c.id.toInt) =
      .ok ids) :
    ∃ t, enterRegion (some region) s = .ok () t ∧ t.player = s.player ∧
      HasEntered region ids s t := by
  obtain ⟨notices, hread⟩ := commonEvents_of_readable hs hcommons
  have hfound : regionEntries (some region) s = .ok
      ((s.map.eventList.filter fun e => e.start.isRegionEntry (some region)).map (·.id),
        commons.filter (·.start.isRegionEntry (some region)))
      { s with map.commons := some commons, notices := notices } := by
    rw [regionEntries, get_bind_apply, bind_of_ok hread]
    rfl
  rw [enterRegion, get_bind_apply, hidle]
  refine ⟨_, (bind_of_ok hfound).trans (reserveAll_of_numbers hids _), ?_⟩
  -- the events are found again by their numbers
  refine ⟨rfl, fun e he hentry hlist => ?_, rfl⟩
  have he : e ∈ (s.startWhere fun e => ((s.map.eventList.filter fun e =>
      e.start.isRegionEntry (some region)).map (·.id)).contains e.id).map.eventList := he
  rw [eventList_startWhere, List.mem_map] at he
  obtain ⟨old, hold, rfl⟩ := he
  split at hentry
  · next hchosen =>
      rw [if_pos hchosen, MapEvent.startIfAny_list] at hlist
      rw [if_pos hchosen, MapEvent.startIfAny_starting, hlist, Bool.or_true]
  · next hchosen =>
      have hmem : old.id ∈ (s.map.eventList.filter fun e =>
          e.start.isRegionEntry (some region)).map (·.id) :=
        List.mem_map_of_mem (List.mem_filter.mpr ⟨hold, hentry⟩)
      exact absurd (List.contains_iff_mem.mpr hmem) hchosen

/-- **When an arrival has the effect of entering a region.**  The player arrives, while nothing runs,
in a region other than the one it was last seen in.  The region then counts as seen, and it has been
entered exactly if nothing was started by touch, or if the region has nothing to start. -/
theorem arrive_hasEntered_iff (hs : Reachable g s) (hidle : s.isEventRunning = false)
    (hregion : s.map.region s.player.body.point = .ok region) (hnew : region ≠ s.player.lastRegion)
    (hcommons : (readCommons g.database g.database.commonEventIds).result = .ok commons)
    (hids : (commons.filter (·.start.isRegionEntry (some region))).mapM (fun c => c.id.toInt) =
      .ok ids) :
    ∃ t, arrive s = .ok () t ∧ t.player.lastRegion = region ∧
      (HasEntered region ids s t ↔ s.startsByTouch = false ∨ s.HoldsNothing region ids) := by
  obtain ⟨hstays, hbody, hlast, hscratch, hsame⟩ := s.touched_stays
  obtain ⟨seen, hseen⟩ : ∃ seen : Session, seen =
    { s.touched with player.lastRegion := region } := ⟨_, rfl⟩
  have hchanged : regionChanged s.touched = .ok true seen := by
    have hread : playerRegion s.touched = .ok region s.touched := by
      rw [playerRegion, get_bind_apply, hsame, hbody, hregion, lift_ok_apply]
    rw [regionChanged, bind_of_ok hread, get_bind_apply, modify_bind_apply, hlast, hseen]
    have hdiffers : (region != s.player.lastRegion) = true := by simpa using hnew
    rw [hdiffers]
    rfl
  have harrive : arrive s = enterRegion (some region) seen := by
    rw [arrive_eq, get_bind_apply, hidle]
    change (do
      modify touched
      if ← regionChanged then enterRegion (some (← get).player.lastRegion) : Play Unit) s = _
    rw [modify_bind_apply, bind_of_ok hchanged, if_pos rfl, get_bind_apply, hseen]
  have hknows : seen.KnowsCommons g := by
    have hground : seen.ground = s.ground := by rw [hseen]; exact hstays.ground
    exact restsOnFixed_knowsCommons _ _ hs.knowsCommons (fixed_of_ground hground)
  have hrunning : seen.isEventRunning = s.startsByTouch := by
    rw [hseen, ← isEventRunning_touched hidle]
    rfl
  rw [harrive]
  cases htouch : s.startsByTouch with
  | true =>
      refine ⟨seen, ?_, by rw [hseen], ?_⟩
      · rw [enterRegion, get_bind_apply, hrunning, htouch]
        rfl
      · rw [hseen, ← hasEntered_touched_iff hidle]
        simp [HasEntered]
  | false =>
      obtain ⟨t, ht, hplayer, hentered⟩ :=
        enterRegion_of_idle hknows (hrunning.trans htouch) hcommons hids
      refine ⟨t, ht, by rw [hplayer, hseen], ?_⟩
      have hreserved : seen.scratch.reserved = s.scratch.reserved := by
        rw [hseen]
        exact congrArg Scratch.reserved hscratch
      have hentered : HasEntered region ids s t := ⟨hentered.1, hreserved ▸ hentered.2⟩
      exact ⟨fun _ => Or.inl rfl, fun _ => hentered⟩

/-! ### A tile with two events -/

/-- A game with a map of one tile, which lies in region seven, and on which an event is started by
entering the region; beside it stand other events. -/
def regionGame (others : List Json) : Game where
  mapFile := fun _ =>
    let parameters : Json := .arr [.str layerName, "page_trigger_region_entry", "",
      .obj [("region_id", 7)]]
    let page : Json := .obj [("list", .arr [.obj [("code", 357), ("parameters", parameters)]])]
    .ok (some (.obj [("width", 1), ("height", 1), ("data", .arr [0, 0, 0, 0, 0, 7]),
      ("events", .arr (.obj [("id", 2), ("pages", .arr [page])] :: others))]))

/-- An event below the player that is started when the player touches it. -/
def touchedEvent : Json :=
  .obj [("id", 1), ("pages", .arr [.obj [("priorityType", 0), ("trigger", 1),
    ("list", .arr [.obj [("code", 0)]])]])]

/-- The game on its map, where nothing else has happened. -/
def onRegionMap (others : List Json) : Session :=
  (setupMap 1).after (Session.begin (regionGame others) {})

theorem reachable_onRegionMap (others : List Json) :
    Reachable (regionGame others) (onRegionMap others) := .after (.begin {}) (.setupMap 1 none)

/-- Where no other event stands, the region is entered. -/
theorem arrive_hasEntered_alone : ∃ t, arrive (onRegionMap []) = .ok () t ∧
    HasEntered 7 [] (onRegionMap []) t := by
  have hregion : (onRegionMap []).map.region (onRegionMap []).player.body.point = .ok 7 := by
    decide +kernel
  have hcommons : (readCommons (regionGame []).database
    (regionGame []).database.commonEventIds).result = .ok [] := rfl
  obtain ⟨t, ht, -, hentered⟩ := arrive_hasEntered_iff (reachable_onRegionMap []) (by decide +kernel)
    hregion (by decide +kernel) hcommons rfl
  exact ⟨t, ht, hentered.mpr (Or.inl (by decide +kernel))⟩

/-- Where an event is started by touch, the region counts as seen, but has not been entered. -/
theorem not_hasEntered_touched : ∃ t,
    Reachable (regionGame [touchedEvent]) (onRegionMap [touchedEvent]) ∧
    (onRegionMap [touchedEvent]).isEventRunning = false ∧
      (onRegionMap [touchedEvent]).player.lastRegion ≠ 7 ∧
        arrive (onRegionMap [touchedEvent]) = .ok () t ∧ t.player.lastRegion = 7 ∧
          ¬HasEntered 7 [] (onRegionMap [touchedEvent]) t := by
  have harrive : arrive.succeeds (onRegionMap [touchedEvent]) = true := by decide +kernel
  refine ⟨_, reachable_onRegionMap _, by decide +kernel, by decide +kernel,
    eq_ok_of_succeeds harrive, by decide +kernel, fun hentered => ?_⟩
  have hleft : ∃ e ∈ (arrive.after (onRegionMap [touchedEvent])).map.eventList,
      e.start.isRegionEntry (some 7) = true ∧ e.list.truthy = true ∧ e.starting = false := by
    decide +kernel
  obtain ⟨e, he, hentry, hlist, hidle⟩ := hleft
  rw [hentered.1 e he hentry hlist] at hidle
  cases hidle

end Play

end EventLayer
