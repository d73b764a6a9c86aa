/-
**A map that is set up anew.**

Setting up a map makes its events anew from the map file.  Each of them comes from an entry there,
stands at its recorded origin, or else where the file puts it, and shows the page that counts for
it.  What follows in a load moves no event and writes no store.

Main definitions:

* `Game.mapData`, `Json.eventEntries` — the data of a map, and the entries for events in them;
* `Game.eventEntries` — the entries for events in a map file;
* `MapEvent.IsSpawned` — an event as it comes from such an entry;
* `MapState.IsSpawned` — a map whose events are those of its file.

Main results:

* `MapEvent.wears_of_showPage` — what an event changes that takes on a page;
* `MapEvent.isSpawned_ofFields` — an event comes from its entry as it should;
* `Play.setupMap_reads` — the events of a map that is set up are read from its data;
* `Play.isSpawned_setupMap` — **a map that is set up has the events of its file**;
* `Play.loadPosition_save` — a party comes back to where it was saved.
-/
import EventLayer.Proofs.Map.Setup
import EventLayer.Proofs.OrderedMap
import EventLayer.Proofs.Results
import EventLayer.Session.Saving

set_option autoImplicit false
set_option relaxedAutoImplicit false

namespace EventLayer

/-- The data of a map: those that are given, or else those of its file, if it has one. -/
def Game.mapData (g : Game) (id : Int) (given : Option Json) : Except Fault Json :=
  match given with
  | some data => .ok data
  | none => do return (← g.mapFile (.int id)).getD (.obj [])

/-- The entries for events in the data of a map, in order. -/
def Json.eventEntries (data : Json) : Except Fault (List Json) := do
  ((← data.fieldD "events" .null).orElse (.arr [])).elements

/-- The entries for events in a map file, in order; a map without data has none. -/
def Game.eventEntries (g : Game) (map : Int) : Except Fault (List Json) := do
  let data := (← g.mapFile (.int map)).getD (.obj [])
  ((← data.fieldD "events" .null).orElse (.arr [])).elements

theorem Game.eventEntries_eq_ok {g : Game} {map : Int} {data : Json} {entries : List Json}
    (hdata : g.mapData map none = .ok data) (hentries : data.eventEntries = .ok entries) :
    g.eventEntries map = .ok entries := by
  obtain ⟨found, hfound, hdata⟩ := Except.bind_eq_ok hdata
  cases hdata
  rw [eventEntries, hfound]
  exact hentries

/-- An event as it comes from an entry of a map file. -/
structure MapEvent.IsSpawned (db : Database) (stores : Stores) (m : Int)
    (fields : List (String × Json)) (e : MapEvent) : Prop where
  id : ((OrderedMap.find "id" fields).getD (.int 0)).toInt = .ok e.id
  map : e.map = m
  pages : Page.readAll ((OrderedMap.find "pages" fields).getD .null) = .ok e.pages
  /-- It stands at its recorded origin. -/
  origin : ∀ p, stores.origins.origin? m e.id = some p → e.body.point = p
  /-- Without one it stands where the file puts it. -/
  place : stores.origins.origin? m e.id = none →
    ((OrderedMap.find "x" fields).getD (.int 0)).toInt = .ok e.body.x ∧
      ((OrderedMap.find "y" fields).getD (.int 0)).toInt = .ok e.body.y
  /-- It shows the page that counts. -/
  page : e.properPage db stores = .ok e.pageIndex

/-- A map whose events are those of its file, each for the last entry of its number. -/
structure MapState.IsSpawned (g : Game) (stores : Stores) (m : MapState) (entries : List Json) :
    Prop where
  file : g.eventEntries m.id = .ok entries
  event : ∀ e ∈ m.eventList, ∃ fields, .obj fields ∈ entries ∧
    e.IsSpawned g.database stores m.id fields
  entry : ∀ fields, .obj fields ∈ entries → fields ≠ [] → ∃ e ∈ m.eventList,
    ((OrderedMap.find "id" fields).getD (.int 0)).toInt = .ok e.id

/-! ### Events -/

namespace MapEvent

variable {db : Database} {stores : Stores} {e e' : MapEvent}

/-- What taking on a page leaves as it was. -/
structure StandsAs (e e' : MapEvent) : Prop where
  id : e'.id = e.id
  map : e'.map = e.map
  pages : e'.pages = e.pages
  pageIndex : e'.pageIndex = e.pageIndex
  erased : e'.erased = e.erased
  point : e'.body.point = e.body.point

/-- An event that takes on a page changes its look, its way of moving and its trigger, and stays where
it is, on no forced route. -/
theorem wears_of_showPage (h : e.showPage.result = .ok e') :
    ∃ moveType frequency start body, body.point = e.body.point ∧ body.forcing = false ∧
      e' = { e with moveType, frequency, start, body, starting := false } := by
  unfold showPage at h
  split at h
  · next p _ =>
      have hwear : ∀ settings route, (do
          let start ← StartRule.read p.list p.trigger
          let e := e.applySettings settings
          return { e with body := e.body.setRoute route, start, starting := false } :
            Reading MapEvent).result = .ok e' →
          ∃ moveType frequency start body, body.point = e.body.point ∧ body.forcing = false ∧
            e' = { e with moveType, frequency, start, body, starting := false } := by
        intro settings route h
        obtain ⟨start, -, h⟩ := Reading.bind_eq_ok h
        cases h
        refine ⟨_, _, _, _, ?_, ?_, rfl⟩
        · rfl
        · rfl
      obtain ⟨settings, -, h⟩ := Reading.bind_eq_ok h
      dsimp only at h
      split at h
      · obtain ⟨route, -, h⟩ := Reading.bind_eq_ok h
        exact hwear settings route h
      · exact hwear settings none h
  · cases h
    refine ⟨_, _, _, _, ?_, ?_, rfl⟩
    · rfl
    · rfl

theorem standsAs_showPage (h : e.showPage.result = .ok e') : e.StandsAs e' := by
  obtain ⟨moveType, frequency, start, body, hpoint, -, rfl⟩ := wears_of_showPage h
  exact ⟨rfl, rfl, rfl, rfl, rfl, hpoint⟩

/-- An event keeps its name and its note when its pages are chosen anew, and is erased or not as
before. -/
theorem label_refresh (h : (e.refresh db stores).result = .ok e') :
    e'.name = e.name ∧ e'.note = e.note ∧ e'.erased = e.erased := by
  obtain ⟨due, -, h⟩ := Reading.bind_eq_ok h
  split at h
  · cases h
    exact ⟨rfl, rfl, rfl⟩
  · obtain ⟨_, _, _, _, -, -, rfl⟩ := wears_of_showPage h
    exact ⟨rfl, rfl, rfl⟩

theorem properPage_congr (hid : e'.id = e.id) (hmap : e'.map = e.map) (hpages : e'.pages = e.pages)
    (db : Database) (stores : Stores) : e'.properPage db stores = e.properPage db stores := by
  rw [properPage, properPage, scope, scope, hid, hmap, hpages]

/-- An event that is not erased shows the page that counts, once its pages are chosen anew. -/
theorem refresh_eq_ok (herased : e.erased = false) (h : (e.refresh db stores).result = .ok e') :
    e'.properPage db stores = .ok e'.pageIndex ∧ e'.id = e.id ∧ e'.map = e.map ∧
      e'.pages = e.pages ∧ e'.body.point = e.body.point := by
  obtain ⟨due, hdue, h⟩ := Reading.bind_eq_ok h
  have hproper : e.properPage db stores = .ok due := by
    have : e.duePage db stores = .ok due := hdue
    rwa [duePage, herased, if_neg (by simp)] at this
  split at h
  · next hsame =>
      cases h
      exact ⟨hsame ▸ hproper, rfl, rfl, rfl, rfl⟩
  · have hs := standsAs_showPage h
    have hpage := (properPage_congr hs.id hs.map hs.pages db stores).trans hproper
    exact ⟨hpage.trans (congrArg Except.ok hs.pageIndex.symm), hs.id, hs.map, hs.pages, hs.point⟩

/-- The name and the note of an event are the texts of its entry, a blank value being no text. -/
theorem label_ofFields {map : Int} {fields : List (String × Json)}
    (h : (ofFields map fields db stores).result = .ok e) :
    e.name = (((OrderedMap.find "name" fields).getD (.str "")).orElse (.str "")).text ∧
      e.note = (((OrderedMap.find "note" fields).getD (.str "")).orElse (.str "")).text ∧
      e.erased = false := by
  obtain ⟨id, -, h⟩ := Reading.bind_eq_ok h
  obtain ⟨pages, -, h⟩ := Reading.bind_eq_ok h
  dsimp only at h
  split at h
  · exact label_refresh h
  · obtain ⟨x, -, h⟩ := Reading.bind_eq_ok h
    obtain ⟨y, -, h⟩ := Reading.bind_eq_ok h
    exact label_refresh h

/-- **An event comes from its entry as it should.** -/
theorem isSpawned_ofFields {map : Int} {fields : List (String × Json)}
    (h : (ofFields map fields db stores).result = .ok e) : e.IsSpawned db stores map fields := by
  obtain ⟨id, hid, h⟩ := Reading.bind_eq_ok h
  obtain ⟨pages, hpages, h⟩ := Reading.bind_eq_ok h
  dsimp only at h
  split at h
  · next p hp =>
      obtain ⟨hpage, rfl, rfl, rfl, hpoint⟩ := refresh_eq_ok rfl h
      exact
        { id := hid
          map := rfl
          pages := hpages
          origin := fun q hq => by
            rw [hp] at hq
            cases hq
            exact hpoint
          place := fun hnone => by simp [hp] at hnone
          page := hpage }
  · next hp =>
      obtain ⟨x, hx, h⟩ := Reading.bind_eq_ok h
      obtain ⟨y, hy, h⟩ := Reading.bind_eq_ok h
      obtain ⟨hpage, rfl, rfl, rfl, hpoint⟩ := refresh_eq_ok rfl h
      exact
        { id := hid
          map := rfl
          pages := hpages
          origin := fun q hq => by simp [hp] at hq
          place := fun _ => by
            cases hpoint
            exact ⟨hx, hy⟩
          page := hpage }

end MapEvent

/-! ### The events of a map file -/

namespace Play

variable {map : Int} {db : Database} {stores : Stores} {events found : OrderedMap Int MapEvent}
  {entries : List Json}

/-- Every event is kept under its number. -/
def KeyedById (events : OrderedMap Int MapEvent) : Prop :=
  ∀ id e, events.get? id = some e → e.id = id

theorem keyedById_empty : KeyedById ∅ := fun _ _ h => by cases h

theorem keyedById_insert (h : KeyedById events) (e : MapEvent) :
    KeyedById (events.insert e.id e) := by
  intro id e' he
  rw [OrderedMap.get?_insert] at he
  split at he
  · next hid =>
      cases he
      simpa using hid
  · exact h id e' he

/-- An entry is passed over, or gives an event. -/
theorem readEvents_cons {entry : Json}
    (h : (readEvents map db stores events (entry :: entries)).result = .ok found) :
    ((∀ fields, entry = .obj fields → fields = []) ∧
        (readEvents map db stores events entries).result = .ok found) ∨
      ∃ fields e, entry = .obj fields ∧ fields ≠ [] ∧
        (MapEvent.ofFields map fields db stores).result = .ok e ∧
        (readEvents map db stores (events.insert e.id e) entries).result = .ok found := by
  cases entry with
  | obj fields =>
      cases fields with
      | nil => exact Or.inl ⟨fun _ hf => by cases hf; rfl, h⟩
      | cons field more =>
          obtain ⟨e, he, h⟩ := Reading.bind_eq_ok h
          exact Or.inr ⟨_, e, rfl, List.cons_ne_nil _ _, he, h⟩
  | null => exact Or.inl ⟨nofun, h⟩
  | bool b => exact Or.inl ⟨nofun, h⟩
  | int n => exact Or.inl ⟨nofun, h⟩
  | float x => exact Or.inl ⟨nofun, h⟩
  | str s => exact Or.inl ⟨nofun, h⟩
  | arr items => exact Or.inl ⟨nofun, h⟩

/-- The events that are read are those of before, and the ones that come from entries. -/
theorem mem_readEvents (h : (readEvents map db stores events entries).result = .ok found)
    {e : MapEvent} (he : e ∈ found.values) : e ∈ events.values ∨
      ∃ fields, .obj fields ∈ entries ∧ fields ≠ [] ∧ e.IsSpawned db stores map fields := by
  induction entries generalizing events with
  | nil =>
      cases h
      exact Or.inl he
  | cons entry rest ih =>
      rcases readEvents_cons h with ⟨-, h⟩ | ⟨fields, new, rfl, hne, hnew, h⟩
      · rcases ih h with hold | ⟨fields, hmem, hspawned⟩
        · exact Or.inl hold
        · exact Or.inr ⟨fields, List.mem_cons_of_mem _ hmem, hspawned⟩
      · rcases ih h with hold | ⟨fields, hmem, hspawned⟩
        · rcases OrderedMap.mem_values_insert hold with hold | rfl
          · exact Or.inl hold
          · exact Or.inr ⟨fields, List.mem_cons_self, hne, MapEvent.isSpawned_ofFields hnew⟩
        · exact Or.inr ⟨fields, List.mem_cons_of_mem _ hmem, hspawned⟩

theorem keyedById_readEvents (hkeyed : KeyedById events)
    (h : (readEvents map db stores events entries).result = .ok found) : KeyedById found := by
  induction entries generalizing events with
  | nil =>
      cases h
      exact hkeyed
  | cons entry rest ih =>
      rcases readEvents_cons h with ⟨-, h⟩ | ⟨_, new, -, -, -, h⟩
      · exact ih hkeyed h
      · exact ih (keyedById_insert hkeyed new) h

/-- No number is lost. -/
theorem isSome_readEvents (h : (readEvents map db stores events entries).result = .ok found)
    {id : Int} (hid : (events.get? id).isSome) : (found.get? id).isSome := by
  induction entries generalizing events with
  | nil =>
      cases h
      exact hid
  | cons entry rest ih =>
      rcases readEvents_cons h with ⟨-, h⟩ | ⟨_, new, -, -, -, h⟩
      · exact ih h hid
      · refine ih h ?_
        rw [OrderedMap.get?_insert]
        split
        · rfl
        · exact hid

/-- Every entry has an event of its number. -/
theorem exists_readEvents (h : (readEvents map db stores events entries).result = .ok found)
    {fields : List (String × Json)} (hmem : .obj fields ∈ entries) (hne : fields ≠ []) :
    ∃ id, (found.get? id).isSome ∧
      ((OrderedMap.find "id" fields).getD (.int 0)).toInt = .ok id := by
  induction entries generalizing events with
  | nil => cases hmem
  | cons entry rest ih =>
      rcases readEvents_cons h with ⟨hblank, hrest⟩ | ⟨_, new, rfl, -, hnew, hrest⟩
      · rcases List.mem_cons.mp hmem with rfl | hmem
        · exact absurd (hblank fields rfl) hne
        · exact ih hrest hmem
      · rcases List.mem_cons.mp hmem with hhead | hmem
        · cases hhead
          have hsome : ((events.insert new.id new).get? new.id).isSome := by
            rw [OrderedMap.get?_insert_self]
            rfl
          exact ⟨new.id, isSome_readEvents hrest hsome, (MapEvent.isSpawned_ofFields hnew).id⟩
        · exact ih hrest hmem

/-- **The events that are read are those of the entries.** -/
theorem isSpawned_readEvents {g : Game} {m : MapState}
    (hfile : g.eventEntries m.id = .ok entries)
    (h : (readEvents m.id g.database stores ∅ entries).result = .ok m.events) :
    m.IsSpawned g stores entries where
  file := hfile
  event := fun e he => by
    rcases mem_readEvents h he with hold | ⟨fields, hmem, -, hspawned⟩
    · cases hold
    · exact ⟨fields, hmem, hspawned⟩
  entry := fun fields hmem hne => by
    obtain ⟨id, hsome, hid⟩ := exists_readEvents h hmem hne
    obtain ⟨e, he⟩ := Option.isSome_iff_exists.mp hsome
    have hkeyed : KeyedById m.events := keyedById_readEvents keyedById_empty h
    exact ⟨e, OrderedMap.mem_values_of_get? he, by rw [hkeyed id e he]; exact hid⟩

/-! ### Setting up a map -/

/-- A session with the same game, stores and player, and with the same events on the same map. -/
def SameGround (s t : Session) : Prop :=
  t.game = s.game ∧ t.stores = s.stores ∧ t.player = s.player ∧
    t.map.events = s.map.events ∧ t.map.id = s.map.id

variable {s t : Session}

theorem SameGround.refl (s : Session) : SameGround s s := ⟨rfl, rfl, rfl, rfl, rfl⟩

theorem sameGround_queueSetup : queueSetup.Preserves (SameGround s) :=
  preserves_queueSetup (preserves_commonEvents fun _ _ _ h => h) fun _ _ h => h

theorem mapData_stays {id : Int} {given : Option Json} {data : Json}
    (h : mapData id given s = .ok data t) :
    s.game.mapData id given = .ok data ∧ ∃ notices, t = { s with notices } := by
  cases given with
  | some data' =>
      cases h
      exact ⟨rfl, _, rfl⟩
  | none =>
      obtain ⟨found, hfound, h⟩ := except_bind_eq_ok (s := s) h
      rw [Game.mapData, hfound]
      cases found with
      | some data' =>
          cases h
          exact ⟨rfl, _, rfl⟩
      | none =>
          cases h
          exact ⟨rfl, _, rfl⟩

/-- The events of a map that is set up are read from its data. -/
theorem setupMap_reads {id : Int} {given : Option Json} (h : setupMap id given s = .ok () t) :
    (t.game = s.game ∧ t.stores = s.stores ∧ t.player = s.player ∧ t.map.id = id) ∧
      ∃ data entries, s.game.mapData id given = .ok data ∧ data.eventEntries = .ok entries ∧
        (readEvents id s.game.database s.stores ∅ entries).result = .ok t.map.events := by
  obtain ⟨data, u, hfound, h⟩ := bind_eq_ok h
  obtain ⟨hdata, notices, rfl⟩ := mapData_stays hfound
  obtain ⟨_, -, h⟩ := except_bind_eq_ok h
  obtain ⟨width, -, h⟩ := except_bind_eq_ok h
  obtain ⟨_, -, h⟩ := except_bind_eq_ok h
  obtain ⟨height, -, h⟩ := except_bind_eq_ok h
  obtain ⟨tiles, -, h⟩ := except_bind_eq_ok h
  rw [modify_bind_apply, get_bind_apply] at h
  obtain ⟨field, hfield, h⟩ := except_bind_eq_ok h
  obtain ⟨entries, hentries, h⟩ := except_bind_eq_ok h
  obtain ⟨events, hevents, h⟩ := reading_bind_eq_ok h
  rw [modify_bind_apply] at h
  have hground := sameGround_queueSetup.of_ok (SameGround.refl _) h
  obtain ⟨hgame, hstores, hplayer, hmap, hid⟩ := hground
  refine ⟨⟨hgame, hstores, hplayer, hid⟩, data, entries, hdata, ?_, ?_⟩
  · rw [Json.eventEntries, hfield]
    exact hentries
  · rw [hmap]
    exact hevents

/-- **A map that is set up has the events of its file.** -/
theorem isSpawned_setupMap {id : Int} (h : setupMap id none s = .ok () t) :
    t.game = s.game ∧ t.stores = s.stores ∧ t.player = s.player ∧ t.map.id = id ∧
      ∃ entries, t.map.IsSpawned t.game t.stores entries := by
  obtain ⟨⟨hgame, hstores, hplayer, hid⟩, data, entries, hdata, hentries, hread⟩ := setupMap_reads h
  refine ⟨hgame, hstores, hplayer, hid, entries, isSpawned_readEvents ?_ ?_⟩
  · rw [hid, hgame]
    exact Game.eventEntries_eq_ok hdata hentries
  · rw [hid, hgame, hstores]
    exact hread

/-! ### Where the party comes back to -/

theorem playerRegion_eq_ok {region : Int} (h : playerRegion s = .ok region t) : t = s := by
  rw [playerRegion, get_bind_apply] at h
  cases hr : s.map.region s.player.body.point with
  | error e =>
      rw [hr] at h
      cases h
  | ok r =>
      rw [hr] at h
      cases h
      rfl

theorem direction_face {c : Character} {d : Int} (hd : d ≠ 0) : (c.face d).direction = d := by
  rw [Character.face, if_neg hd]

theorem point_face (c : Character) (d : Int) : (c.face d).x = c.x ∧ (c.face d).y = c.y := by
  unfold Character.face
  split <;> exact ⟨rfl, rfl⟩

/-- A transfer within a map. -/
theorem transfer_eq_ok {p : Point} {d : Int} (hd : d ≠ 0)
    (h : transfer s.map.id p d s = .ok () t) :
    t.game = s.game ∧ t.stores = s.stores ∧ t.map = s.map ∧
      t.player.body.x = p.x ∧ t.player.body.y = p.y ∧ t.player.body.direction = d := by
  rw [transfer, get_bind_apply, if_neg (by simp)] at h
  obtain ⟨_, placed, hplaced, hrest⟩ := bind_eq_ok h
  obtain ⟨region, u, hu, hlast⟩ := bind_eq_ok hrest
  obtain rfl := playerRegion_eq_ok hu
  cases hplaced
  cases hlast
  have hpoint := point_face (s.player.body.locate p) d
  exact ⟨rfl, rfl, rfl, hpoint.1, hpoint.2, direction_face hd⟩

/-- **A party comes back to where it was saved**, on a map that is set up anew. -/
theorem loadPosition_save {saved : Session} (hmap : 0 < saved.map.id)
    (hd : saved.player.body.direction ≠ 0) (h : loadPosition saved.savePosition s = .ok () t) :
    t.game = s.game ∧ t.stores = s.stores ∧ t.savePosition = saved.savePosition ∧
      ∃ entries, t.map.IsSpawned t.game t.stores entries := by
  have hid : (Json.int saved.map.id).truthy = true := by
    simp
    omega
  have hgiven : saved.savePosition.truthy = true := rfl
  rw [loadPosition, if_neg (by simp [hgiven])] at h
  obtain ⟨map, hfield, h⟩ := except_bind_eq_ok h
  obtain rfl : Json.int saved.map.id = map := Except.ok.inj hfield
  rw [if_neg (by simp [hid])] at h
  obtain ⟨id, hnumber, h⟩ := except_bind_eq_ok h
  cases hnumber
  obtain ⟨_, u, hsetup, h⟩ := bind_eq_ok h
  obtain ⟨hgame, hstores, hplayer, humap, entries, hspawned⟩ := isSpawned_setupMap hsetup
  obtain ⟨x, hx, h⟩ := except_bind_eq_ok h
  obtain ⟨y, hy, h⟩ := except_bind_eq_ok h
  obtain ⟨d, hdir, h⟩ := except_bind_eq_ok h
  obtain ⟨id, hnumber, h⟩ := except_bind_eq_ok h
  cases hx
  cases hy
  cases hdir
  cases hnumber
  rw [← humap] at h
  obtain ⟨hgame', hstores', hmap', hx, hy, hdir⟩ := transfer_eq_ok hd h
  have hposition : t.savePosition = saved.savePosition := by
    rw [Session.savePosition, hmap', humap, hx, hy, hdir]
    rfl
  refine ⟨hgame'.trans hgame, hstores'.trans hstores, hposition, entries, ?_⟩
  rw [hgame', hstores', hmap']
  exact hspawned

end Play

end EventLayer
