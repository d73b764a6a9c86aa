/-
**Recorded origins steer where events spawn, and nothing else.**

An event stands at the point that was recorded last for exactly its map and its number, or else where
its map has it.  That is so when the map is set up, and when a link looks at it from another map: the
two read the map in different ways, but ask for the same origin.  A recording leaves everything that
stands on the current map as it is.

Main definitions:

* `Json.IsPlacedAt`, `Json.Places` — events of a map with whole numbers, each with its own;
* `OriginStep.spawnPoint` — where an event has to stand;
* `MapState.SpawnsAt`, `Candidate.SpawnAt` — maps, and what a link sees, with everything where it has to
  stand;
* `Session.RecordsFor` — a session in which an origin was recorded for an event at most.

Main results:

* `MapEvent.point_of_isSpawned` — an event of a map that is set up stands where it has to;
* `Candidate.ofEvents_eq_ok` — a link sees every event where it has to stand;
* `Play.recordsFor_setOrigin` — a command that records an origin does nothing else;
* `Play.spawns_at_recorded` — **recorded origins steer where events spawn, and nothing else**.
-/
import EventLayer.Proofs.Saving.Reload
import EventLayer.Proofs.Store.Recordings
import EventLayer.Session.Linking

set_option autoImplicit false
set_option relaxedAutoImplicit false

namespace EventLayer

/-! ### Places in the data of a map -/

namespace Json

/-- The fields of an event with a given number on a given tile, each `0` where it is not given. -/
structure IsPlacedAt (id : Int) (p : Point) (fields : List (String × Json)) : Prop where
  id : (OrderedMap.find "id" fields).getD (.int 0) = .int id
  x : (OrderedMap.find "x" fields).getD (.int 0) = .int p.x
  y : (OrderedMap.find "y" fields).getD (.int 0) = .int p.y

/-- Entries for events: each has a number and a tile, and no two have the same number. -/
structure Places (entries : List Json) : Prop where
  placed : ∀ fields, .obj fields ∈ entries → fields ≠ [] → ∃ id p, IsPlacedAt id p fields
  distinct : ∀ fields fields', .obj fields ∈ entries → .obj fields' ∈ entries →
    fields ≠ [] → fields' ≠ [] → ∀ id p p', IsPlacedAt id p fields → IsPlacedAt id p' fields' →
      fields = fields'

variable {id id' : Int} {p p' : Point} {fields : List (String × Json)}

theorem IsPlacedAt.unique (h : IsPlacedAt id p fields) (h' : IsPlacedAt id' p' fields) :
    id = id' ∧ p = p' := by
  cases p
  cases p'
  have hx := h.x.symm.trans h'.x
  have hy := h.y.symm.trans h'.y
  have hid := h.id.symm.trans h'.id
  simp_all

end Json

/-- Where an event has to stand: at the point recorded last for it, or else on its tile of the map. -/
def OriginStep.spawnPoint (steps : List OriginStep) (map id : Int) (p : Point) : Point :=
  (lastPoint? map id steps).getD p

/-! ### Maps that are set up -/

/-- The events of a map are those of its entries, and stand where they have to. -/
structure MapState.SpawnsAt (steps : List OriginStep) (entries : List Json) (m : MapState) : Prop where
  event : ∀ e ∈ m.eventList, ∃ fields p, .obj fields ∈ entries ∧ fields ≠ [] ∧
    Json.IsPlacedAt e.id p fields ∧ e.body.point = OriginStep.spawnPoint steps m.id e.id p
  entry : ∀ fields id p, .obj fields ∈ entries → fields ≠ [] → Json.IsPlacedAt id p fields →
    ∃ e, m.event? id = some e ∧ e.id = id ∧ e.body.point = OriginStep.spawnPoint steps m.id id p

section Setup

variable {db : Database} {stores : Stores} {map id : Int} {p : Point} {e : MapEvent}
  {fields : List (String × Json)} {entries : List Json} {found : OrderedMap Int MapEvent}

/-- An event of a map that is set up stands at its recorded origin, or else on its tile of the map. -/
theorem MapEvent.point_of_isSpawned (h : e.IsSpawned db stores map fields)
    (hplaced : Json.IsPlacedAt id p fields) :
    e.id = id ∧ e.body.point = (stores.origins.origin? map id).getD p := by
  have hid : e.id = id := by
    have hnumber := h.id
    rw [hplaced.id] at hnumber
    exact (Except.ok.inj hnumber).symm
  refine ⟨hid, ?_⟩
  subst hid
  cases horigin : stores.origins.origin? map e.id with
  | some q => exact h.origin q horigin
  | none =>
      obtain ⟨hx, hy⟩ := h.place horigin
      rw [hplaced.x] at hx
      rw [hplaced.y] at hy
      rw [Character.point, ← Except.ok.inj hx, ← Except.ok.inj hy]
      rfl

/-- Every entry is the one that the event of its number comes from. -/
theorem Play.isSpawned_of_entry (hplaces : Json.Places entries)
    (h : (readEvents map db stores ∅ entries).result = .ok found) (hmem : .obj fields ∈ entries)
    (hne : fields ≠ []) (hplaced : Json.IsPlacedAt id p fields) :
    ∃ e, found.get? id = some e ∧ e.IsSpawned db stores map fields := by
  obtain ⟨id', hsome, hid'⟩ := exists_readEvents h hmem hne
  rw [hplaced.id] at hid'
  obtain rfl := Except.ok.inj hid'
  obtain ⟨e, he⟩ := Option.isSome_iff_exists.mp hsome
  refine ⟨e, he, ?_⟩
  rcases mem_readEvents h (OrderedMap.mem_values_of_get? he) with hold | hnew
  · cases hold
  · obtain ⟨fields', hmem', hne', hspawned⟩ := hnew
    obtain ⟨id', p', hplaced'⟩ := hplaces.placed fields' hmem' hne'
    have hnumber := (MapEvent.point_of_isSpawned hspawned hplaced').1
    rw [keyedById_readEvents keyedById_empty h id e he] at hnumber
    subst hnumber
    rwa [hplaces.distinct fields fields' hmem hmem' hne hne' id p p' hplaced hplaced']

/-- The events that are read stand where they have to. -/
theorem Play.spawnsAt_readEvents {m : MapState} {steps : List OriginStep}
    (hlast : ∀ map id, stores.origins.origin? map id = OriginStep.lastPoint? map id steps)
    (hplaces : Json.Places entries)
    (h : (readEvents m.id db stores ∅ entries).result = .ok m.events) : m.SpawnsAt steps entries where
  event := fun e he => by
    rcases mem_readEvents h he with hold | ⟨fields, hmem, hne, hspawned⟩
    · cases hold
    · obtain ⟨id, p, hplaced⟩ := hplaces.placed fields hmem hne
      obtain ⟨rfl, hpoint⟩ := MapEvent.point_of_isSpawned hspawned hplaced
      rw [hlast] at hpoint
      exact ⟨fields, p, hmem, hne, hplaced, hpoint⟩
  entry := fun fields id p hmem hne hplaced => by
    obtain ⟨e, he, hspawned⟩ := isSpawned_of_entry hplaces h hmem hne hplaced
    obtain ⟨hid, hpoint⟩ := MapEvent.point_of_isSpawned hspawned hplaced
    rw [hlast] at hpoint
    exact ⟨e, he, hid, hpoint⟩

end Setup

/-! ### Links from other maps -/

namespace Candidate

/-- A candidate with a given number that is seen on a given tile. -/
structure IsSeenAt (id : Int) (p : Point) (c : Candidate) : Prop where
  id : c.id = id
  x : c.x = .int p.x
  y : c.y = .int p.y

/-- The candidates of a map are its entries, seen where they have to stand. -/
structure SpawnAt (steps : List OriginStep) (map : Int) (entries : List Json) (pool : List Candidate) :
    Prop where
  candidate : ∀ c ∈ pool, ∃ fields p, .obj fields ∈ entries ∧ fields ≠ [] ∧
    Json.IsPlacedAt c.id p fields ∧ c.IsSeenAt c.id (OriginStep.spawnPoint steps map c.id p)
  entry : ∀ fields id p, .obj fields ∈ entries → fields ≠ [] → Json.IsPlacedAt id p fields →
    ∃ c ∈ pool, c.IsSeenAt id (OriginStep.spawnPoint steps map id p)

variable {steps : List OriginStep} {map id : Int} {p : Point} {origins : Origins}
  {fields : List (String × Json)} {entries : List Json}

/-- A candidate is seen at the recorded origin, or else on its tile of the map. -/
theorem ofFields_eq_ok (map : Int) (origins : Origins) (hplaced : Json.IsPlacedAt id p fields) :
    ∃ c, ofFields map origins fields = .ok c ∧ c.IsSeenAt id ((origins.origin? map id).getD p) := by
  have hid : ((OrderedMap.find "id" fields).getD (.int 0)).toInt = .ok id := by
    rw [hplaced.id]
    rfl
  rw [ofFields, hid, Except.ok_bind]
  cases horigin : origins.origin? map id with
  | some q => exact ⟨_, rfl, rfl, rfl, rfl⟩
  | none => exact ⟨_, rfl, rfl, hplaced.x, hplaced.y⟩

/-- Of what an entry gives, the others are candidates as well. -/
theorem SpawnAt.cons {c : Candidate} {pool : List Candidate} (h : SpawnAt steps map entries pool)
    (hne : fields ≠ []) (hplaced : Json.IsPlacedAt id p fields)
    (hc : c.IsSeenAt id (OriginStep.spawnPoint steps map id p)) :
    SpawnAt steps map (.obj fields :: entries) (c :: pool) where
  candidate := fun c' hc' => by
    rcases List.mem_cons.mp hc' with rfl | hold
    · obtain rfl := hc.id
      exact ⟨fields, p, List.mem_cons_self, hne, hplaced, hc⟩
    · obtain ⟨fields', p', hmem, hplace⟩ := h.candidate c' hold
      exact ⟨fields', p', List.mem_cons_of_mem _ hmem, hplace⟩
  entry := fun fields' id' p' hmem hne' hplaced' => by
    rcases List.mem_cons.mp hmem with hhead | hmem
    · cases hhead
      obtain ⟨rfl, rfl⟩ := hplaced'.unique hplaced
      exact ⟨c, List.mem_cons_self, hc⟩
    · obtain ⟨c', hc', hseen⟩ := h.entry fields' id' p' hmem hne' hplaced'
      exact ⟨c', List.mem_cons_of_mem _ hc', hseen⟩

/-- An entry that is passed over adds no candidate. -/
theorem SpawnAt.skip {entry : Json} {pool : List Candidate} (h : SpawnAt steps map entries pool)
    (hblank : ∀ fields, entry = .obj fields → fields = []) :
    SpawnAt steps map (entry :: entries) pool where
  candidate := fun c hc => by
    obtain ⟨fields, p, hmem, hplace⟩ := h.candidate c hc
    exact ⟨fields, p, List.mem_cons_of_mem _ hmem, hplace⟩
  entry := fun fields id p hmem hne => by
    rcases List.mem_cons.mp hmem with hhead | hmem
    · exact absurd (hblank fields hhead.symm) hne
    · exact h.entry fields id p hmem hne

/-- **A link sees every event where it has to stand.** -/
theorem ofEvents_eq_ok (map : Int)
    (hlast : ∀ map id, origins.origin? map id = OriginStep.lastPoint? map id steps)
    (hplaced : ∀ fields, .obj fields ∈ entries → fields ≠ [] → ∃ id p, Json.IsPlacedAt id p fields) :
    ∃ pool, ofEvents map origins entries = .ok pool ∧ SpawnAt steps map entries pool := by
  induction entries with
  | nil => exact ⟨[], rfl, nofun, nofun⟩
  | cons entry rest ih =>
      obtain ⟨pool, hpool, hrest⟩ := ih fun fields hmem => hplaced fields (List.mem_cons_of_mem _ hmem)
      cases entry with
      | obj fields =>
          cases fields with
          | nil => exact ⟨pool, hpool, hrest.skip fun fields hf => by cases hf; rfl⟩
          | cons field more =>
              have hne := List.cons_ne_nil field more
              obtain ⟨id, p, hplace⟩ := hplaced _ List.mem_cons_self hne
              obtain ⟨c, hc, hseen⟩ := ofFields_eq_ok map origins hplace
              rw [hlast] at hseen
              refine ⟨c :: pool, ?_, hrest.cons hne hplace hseen⟩
              rw [ofEvents, hc, hpool]
              · rfl
              · nofun
      | null | bool | int | float | str | arr => exact ⟨pool, hpool, hrest.skip nofun⟩

end Candidate

/-- A session in which an origin was recorded for an event at most, and which differs in its notices
otherwise. -/
def Session.RecordsFor (scope : Scope) (s t : Session) : Prop := ∃ notices, t = { s with notices } ∨
  ∃ map p, scope.map.toInt = .ok map ∧ t = { s.recordOrigin map scope.entity p with notices }

namespace Play

open Session

variable {s : Session}

/-- A link looks at the map file and changes nothing. -/
theorem remoteCandidates_eq_ok {steps : List OriginStep} {key data : Json} {map : Int}
    {entries : List Json}
    (hlast : ∀ map id, s.stores.origins.origin? map id = OriginStep.lastPoint? map id steps)
    (hkey : key.toInt = .ok map) (hdata : s.game.mapFile key = .ok (some data))
    (hentries : data.eventEntries = .ok entries) (hplaces : Json.Places entries) :
    ∃ pool, remoteCandidates key s = .ok (some pool) s ∧
      Candidate.SpawnAt steps map entries pool := by
  obtain ⟨pool, hpool, hspawn⟩ :=
    Candidate.ofEvents_eq_ok map hlast hplaces.placed
  obtain ⟨field, hfield, hentries⟩ := Except.bind_eq_ok hentries
  refine ⟨pool, ?_, hspawn⟩
  rw [remoteCandidates, get_bind_apply, hdata, bind_of_ok (lift_ok_apply _ _)]
  dsimp only
  rw [hfield, bind_of_ok (lift_ok_apply _ _), hentries, bind_of_ok (lift_ok_apply _ _), hkey,
    bind_of_ok (lift_ok_apply _ _), hpool]
  rfl

/-! ### Recording an origin -/

/-- A command that records an origin records it for the event that its list acts for, if at all. -/
theorem recordsFor_setOrigin (d : Nat) (spec : Location) (s : Session) :
    s.RecordsFor (s.resolve d) ((setOrigin d spec).after s) := by
  rw [after, setOrigin, get_bind_apply]
  dsimp only
  by_cases hnone : (s.resolve d).entity ≤ 0
  · rw [if_pos hnone]
    exact ⟨_, Or.inl rfl⟩
  · rw [if_neg hnone]
    -- a location that cannot be resolved, or a map without a number, records nothing
    cases hpoint : (spec.resolve ((if (s.resolve d).map.isInt s.map.id then
        s.poseOf (.event (s.resolve d).entity) else none).or ((s.characterNamed d 0).bind s.poseOf))
        (s.poseOf .player)).result with
    | error e =>
        rw [bind_of_error (lift_reading_of_error hpoint s)]
        exact ⟨_, Or.inl rfl⟩
    | ok found =>
        rw [bind_of_ok (lift_reading_of_ok hpoint s)]
        cases found with
        | none => exact ⟨_, Or.inl rfl⟩
        | some p =>
            dsimp only
            cases hmap : (s.resolve d).map.toInt with
            | error e => exact ⟨_, Or.inl rfl⟩
            | ok map => exact ⟨_, Or.inr ⟨map, p, hmap, rfl⟩⟩

/-! ### Where events spawn -/

/-- **Recorded origins steer where events spawn, and nothing else.**  After any recordings, with trips
through a save between them, the events of a map that is set up stand where they have to, and a link
from another map sees them there.  A command that records an origin leaves the current map and the party
as they are, and adds at most a recording for the event that its list acts for. -/
theorem spawns_at_recorded (steps : List OriginStep) :
    ∃ origins, Origins.performAll {} steps = .ok origins ∧
      ∀ s : Session, s.stores.origins = origins →
        (∀ map given data entries t, s.game.mapData map given = .ok data →
          data.eventEntries = .ok entries → Json.Places entries → setupMap map given s = .ok () t →
            t.map.id = map ∧ t.map.SpawnsAt steps entries) ∧
        (∀ key map data entries, key.toInt = .ok map → key.isInt s.map.id = false →
          s.game.mapFile key = .ok (some data) → data.eventEntries = .ok entries →
          Json.Places entries → ∃ pool, candidates key s = .ok (some pool) s ∧
            Candidate.SpawnAt steps map entries pool) ∧
        ∀ d spec, ((setOrigin d spec).after s).map = s.map ∧
          ((setOrigin d spec).after s).player = s.player ∧
          ∃ made, (∀ step ∈ made, ∃ map p, (s.resolve d).map.toInt = .ok map ∧
              step = .record map (s.resolve d).entity p) ∧
            Origins.performAll {} (steps ++ made) =
              .ok ((setOrigin d spec).after s).stores.origins := by
  obtain ⟨origins, horigins, -, hlast⟩ := Origins.origin?_performAll OrderedMap.Distinct.empty steps
  refine ⟨origins, horigins, fun s hs => ⟨?_, ?_, ?_⟩⟩
  · intro map given data entries t hdata hentries hplaces hsetup
    obtain ⟨⟨-, -, -, hid⟩, data', entries', hdata', hentries', hread⟩ := setupMap_reads hsetup
    obtain rfl := Except.ok.inj (hdata.symm.trans hdata')
    obtain rfl := Except.ok.inj (hentries.symm.trans hentries')
    subst hid
    refine ⟨rfl, spawnsAt_readEvents (fun map id => ?_) hplaces hread⟩
    rw [hs, hlast]
    exact Option.or_none
  · intro key map data entries hkey hother hdata hentries hplaces
    have hstored : ∀ map id, s.stores.origins.origin? map id = OriginStep.lastPoint? map id steps := by
      intro map id
      rw [hs, hlast]
      exact Option.or_none
    obtain ⟨pool, hpool, hspawn⟩ := remoteCandidates_eq_ok hstored hkey hdata hentries hplaces
    refine ⟨pool, ?_, hspawn⟩
    rw [candidates, get_bind_apply, hother]
    exact hpool
  · intro d spec
    obtain ⟨notices, hsame | ⟨map, p, hmap, hrecord⟩⟩ := recordsFor_setOrigin d spec s
    · rw [hsame]
      exact ⟨rfl, rfl, [], nofun, by simpa [hs] using horigins⟩
    · rw [hrecord]
      refine ⟨rfl, rfl, [.record map (s.resolve d).entity p], by simpa using hmap, ?_⟩
      rw [Origins.performAll, List.foldlM_append]
      rw [Origins.performAll] at horigins
      rw [horigins, recordOrigin, hs]
      rfl

/-! ### A town -/

/-- The fields of an event that has a place and nothing else. -/
def placedFields (id : Int) (p : Point) : List (String × Json) :=
  [("id", .int id), ("x", .int p.x), ("y", .int p.y)]

theorem isPlacedAt_placedFields (id : Int) (p : Point) : Json.IsPlacedAt id p (placedFields id p) :=
  ⟨rfl, rfl, rfl⟩

/-- The entries of a town with two events. -/
def townEntries : List Json :=
  [.null, .obj (placedFields 1 ⟨3, 4⟩), .obj (placedFields 11 ⟨6, 7⟩)]

theorem mem_townEntries {fields : List (String × Json)} (h : .obj fields ∈ townEntries) :
    fields = placedFields 1 ⟨3, 4⟩ ∨ fields = placedFields 11 ⟨6, 7⟩ := by
  simpa [townEntries] using h

theorem places_townEntries : Json.Places townEntries where
  placed := by
    intro fields hmem _
    rcases mem_townEntries hmem with rfl | rfl
    · exact ⟨1, ⟨3, 4⟩, isPlacedAt_placedFields _ _⟩
    · exact ⟨11, ⟨6, 7⟩, isPlacedAt_placedFields _ _⟩
  distinct := by
    intro fields fields' hmem hmem' _ _ id p p' h h'
    rcases mem_townEntries hmem with rfl | rfl <;> rcases mem_townEntries hmem' with rfl | rfl
    · rfl
    · exact absurd ((h.unique (isPlacedAt_placedFields _ _)).1.symm.trans
        (h'.unique (isPlacedAt_placedFields _ _)).1) (by decide)
    · exact absurd ((h.unique (isPlacedAt_placedFields _ _)).1.symm.trans
        (h'.unique (isPlacedAt_placedFields _ _)).1) (by decide)
    · rfl

/-- A game in which every map is the town. -/
def townGame : Game where
  mapFile := fun _ => .ok (some (.obj [("events", .arr townEntries)]))

/-- Two recordings whose numbers, written without a blank, would read alike. -/
def townSteps : List OriginStep :=
  [.record 2 11 ⟨1, 1⟩, .reload, .record 21 1 ⟨9, 9⟩, .record 2 11 ⟨5, 5⟩, .reload]

/-- The origins that are recorded then. -/
def townOrigins : Origins := (Origins.record {} 2 11 ⟨5, 5⟩).record 21 1 ⟨9, 9⟩

/-- A session on another map, with these origins recorded. -/
def beforeTown : Session :=
  let s := Session.begin townGame {}
  { s with stores.origins := townOrigins }

/-- In the town one event stands at the point recorded last for it, and the other one, for which
nothing is recorded, on its tile of the map; a link sees the former there as well. -/
theorem spawns_at_recorded_town :
    (∃ e, ((setupMap 2).after beforeTown).map.event? 11 = some e ∧ e.body.point = ⟨5, 5⟩) ∧
    (∃ e, ((setupMap 2).after beforeTown).map.event? 1 = some e ∧ e.body.point = ⟨3, 4⟩) ∧
    ∃ pool, candidates (.int 2) beforeTown = .ok (some pool) beforeTown ∧
      ∃ c ∈ pool, c.IsSeenAt 11 ⟨5, 5⟩ := by
  obtain ⟨origins, horigins, hspawn⟩ := spawns_at_recorded townSteps
  obtain rfl : townOrigins = origins := Except.ok.inj horigins
  obtain ⟨hsetup, hsearch, -⟩ := hspawn beforeTown rfl
  have hsucceeds : (setupMap 2).succeeds beforeTown = true := by decide +kernel
  obtain ⟨hid, -, hentry⟩ :=
    hsetup 2 none _ townEntries _ rfl rfl places_townEntries (eq_ok_of_succeeds hsucceeds)
  obtain ⟨pool, hpool, -, hseen⟩ :=
    hsearch (.int 2) 2 _ townEntries rfl rfl rfl rfl places_townEntries
  have hne : ∀ id p, placedFields id p ≠ [] := fun _ _ => List.cons_ne_nil _ _
  rw [hid] at hentry
  obtain ⟨e, he, -, hpoint⟩ :=
    hentry _ 11 ⟨6, 7⟩ (by simp [townEntries]) (hne _ _) (isPlacedAt_placedFields _ _)
  obtain ⟨e', he', -, hpoint'⟩ :=
    hentry _ 1 ⟨3, 4⟩ (by simp [townEntries]) (hne _ _) (isPlacedAt_placedFields _ _)
  obtain ⟨c, hc, hplace⟩ :=
    hseen _ 11 ⟨6, 7⟩ (by simp [townEntries]) (hne _ _) (isPlacedAt_placedFields _ _)
  exact ⟨⟨e, he, hpoint⟩, ⟨e', he', hpoint'⟩, pool, hpool, c, hc, hplace⟩

end Play

end EventLayer
