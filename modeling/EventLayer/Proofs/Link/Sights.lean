/-
**What a link sees of a map, from there and from elsewhere.**

A link reads the events of the current map from the map as it was set up, and those of another map from
its file.  Both readings give the same events in the same order, with the same numbers on the same tiles,
whatever origins are recorded.  They differ in how they read names and notes: when a map is set up, a
value that is no text and blank counts as the empty text, while a link from elsewhere writes it out, so
that null is read as a name.  The two see the same exactly where no name and no note is such a value.

Main definitions:

* `Json.described`, `Json.Numbers` — the entries that describe events, each with a number of its own;
* `Candidate.IsSightOf` — what a link sees of an event, its texts read in one way or another;
* `Json.IsPlainText` — a field that both readings read alike.

Main results:

* `Candidate.sights_ofEvents`, `Play.sights_readEvents` — what the two readings see;
* `Candidate.IsSightOf.eq_iff` — two sights of an entry differ in their texts at most;
* `Play.candidates_setupMap_iff` — **the two see the same where names and notes are plain texts**;
* `Play.candidates_ne_nullHamlet` — an event whose name is null is seen under another name from elsewhere.
-/
import EventLayer.Proofs.Map.Spawning
import Mathlib.Data.List.Forall2

set_option autoImplicit false
set_option relaxedAutoImplicit false

namespace EventLayer

/-- Only zero is no nonzero number. -/
theorem Double.eq_zero_of_isNonzero {q : Rat} (h : (finite q).isNonzero = false) : q = 0 := by
  have hsame : compare? (finite q) (finite 0) = some .eq := by
    simpa only [isNonzero, sameValue, Bool.not_eq_false', beq_iff_eq] using h
  have hcompare : compare? (finite q) (finite 0) =
      some (if q < 0 then .lt else if q = 0 then .eq else .gt) := rfl
  rw [hcompare] at hsame
  split at hsame
  · cases hsame
  · split at hsame
    · next hq => exact hq
    · cases hsame

/-! ### Entries of a map file -/

namespace Json

/-- The fields of the entries that describe events, in order. -/
def described : List Json → List (List (String × Json))
  | [] => []
  | .obj (field :: more) :: rest => (field :: more) :: described rest
  | _ :: rest => described rest

/-- The events of the entries have a place, and each a number that no entry behind it has. -/
structure Numbers (entries : List Json) : Prop where
  placed : ∀ fields ∈ described entries, ∃ id p, IsPlacedAt id p fields
  apart : (described entries).Pairwise fun a b => ∀ id p q, IsPlacedAt id p a → ¬IsPlacedAt id q b

/-- An entry describes an event, or it is passed over. -/
theorem described_cons (entry : Json) (rest : List Json) :
    (∃ field more, entry = .obj (field :: more) ∧
      described (entry :: rest) = (field :: more) :: described rest) ∨
    ((∀ fields, entry = .obj fields → fields = []) ∧ described (entry :: rest) = described rest) := by
  cases entry with
  | obj fields =>
      cases fields with
      | nil => exact Or.inr ⟨fun _ hf => by cases hf; rfl, rfl⟩
      | cons field more => exact Or.inl ⟨field, more, rfl, rfl⟩
  | null | bool | int | float | str | arr => exact Or.inr ⟨nofun, rfl⟩

/-- A field that holds a text, or no text at all but something else than a blank value; a missing field
holds the empty text. -/
def IsPlainText (key : String) (fields : List (String × Json)) : Prop :=
  let v := (OrderedMap.find key fields).getD (.str "")
  v.truthy = true ∨ v = .str ""

/-- The text that a value stands for when a map is set up: a blank value is no text. -/
def label (v : Json) : String := (v.orElse (.str "")).text

/-- A blank value that is no text is written with at least one character. -/
theorem text_eq_label_iff (v : Json) : v.text = v.label ↔ v.truthy = true ∨ v = .str "" := by
  cases hv : v.truthy with
  | true => simp [label, orElse, hv]
  | false =>
      have hblank : v.label = "" := by simp [label, orElse, hv]
      simp only [hblank, Bool.false_eq_true, false_or]
      constructor
      · intro htext
        cases v with
        | null => exact absurd htext (by decide)
        | str s => exact congrArg Json.str htext
        | bool b =>
            obtain rfl : b = false := hv
            exact absurd htext (by decide)
        | int n =>
            obtain rfl : n = 0 := by simpa using hv
            exact absurd htext (by decide)
        | arr items =>
            obtain rfl : items = [] := by simpa [truthy] using hv
            exact absurd htext (by decide)
        | obj fields =>
            obtain rfl : fields = [] := by simpa [truthy] using hv
            exact absurd htext (by decide)
        | float x =>
            -- a float is blank if it is one of the two zeros
            cases x with
            | nan => cases hv
            | infinite negative => cases negative <;> cases hv
            | negZero => exact absurd htext (by decide)
            | finite q =>
                obtain rfl : q = 0 := Double.eq_zero_of_isNonzero hv
                exact absurd htext (by decide)
      · rintro rfl
        rfl

end Json

/-! ### Sights -/

/-- What a link sees of an event on the map. -/
def MapEvent.sight (e : MapEvent) : Candidate := ⟨e.id, e.name, e.note, .int e.body.x, .int e.body.y⟩

namespace Candidate

/-- The number of a candidate and the tile on which it is seen. -/
def spot (c : Candidate) : Int × Json × Json := (c.id, c.x, c.y)

/-- What a link sees of an entry: its event where it has to stand, under texts that are read in a given
way. -/
structure IsSightOf (read : Json → String) (origins : Origins) (map : Int)
    (fields : List (String × Json)) (c : Candidate) : Prop where
  place : ∃ p, Json.IsPlacedAt c.id p fields ∧ c.IsSeenAt c.id ((origins.origin? map c.id).getD p)
  name : c.name = read ((OrderedMap.find "name" fields).getD (.str ""))
  note : c.note = read ((OrderedMap.find "note" fields).getD (.str ""))

variable {read read' : Json → String} {origins : Origins} {map : Int} {fields : List (String × Json)}
  {entries : List Json} {c c' : Candidate}

theorem IsSightOf.spot_eq (h : c.IsSightOf read origins map fields)
    (h' : c'.IsSightOf read' origins map fields) : c.spot = c'.spot := by
  obtain ⟨p, hplaced, hseen⟩ := h.place
  obtain ⟨p', hplaced', hseen'⟩ := h'.place
  obtain ⟨hid, rfl⟩ := hplaced.unique hplaced'
  simp only [spot, hseen.x, hseen.y, hseen'.x, hseen'.y, hid]

/-- **Two sights of an entry differ in their texts at most.** -/
theorem IsSightOf.eq_iff (h : c.IsSightOf read origins map fields)
    (h' : c'.IsSightOf read' origins map fields) : c = c' ↔
      read ((OrderedMap.find "name" fields).getD (.str "")) =
        read' ((OrderedMap.find "name" fields).getD (.str "")) ∧
      read ((OrderedMap.find "note" fields).getD (.str "")) =
        read' ((OrderedMap.find "note" fields).getD (.str "")) := by
  have hspot := h.spot_eq h'
  rw [← h.name, ← h'.name, ← h.note, ← h'.note]
  obtain ⟨id, name, note, x, y⟩ := c
  obtain ⟨id', name', note', x', y'⟩ := c'
  simp only [spot, Prod.mk.injEq] at hspot
  obtain ⟨rfl, rfl, rfl⟩ := hspot
  simp

/-- Sights of the same entries, read in two ways, are on the same spots. -/
theorem map_spot_eq {l : List (List (String × Json))} {pool pool' : List Candidate}
    (h : List.Forall₂ (fun fields c => c.IsSightOf read origins map fields) l pool)
    (h' : List.Forall₂ (fun fields c => c.IsSightOf read' origins map fields) l pool') :
    pool.map spot = pool'.map spot := by
  induction h generalizing pool' with
  | nil =>
      cases h'
      rfl
  | cons hc _ ih =>
      cases h' with
      | cons hc' hrest' => rw [List.map_cons, List.map_cons, hc.spot_eq hc', ih hrest']

/-- Sights of the same entries, read in two ways, are the same if both ways agree on every entry. -/
theorem pools_eq_iff {l : List (List (String × Json))} {pool pool' : List Candidate}
    (h : List.Forall₂ (fun fields c => c.IsSightOf read origins map fields) l pool)
    (h' : List.Forall₂ (fun fields c => c.IsSightOf read' origins map fields) l pool') :
    pool = pool' ↔ ∀ fields ∈ l,
      read ((OrderedMap.find "name" fields).getD (.str "")) =
        read' ((OrderedMap.find "name" fields).getD (.str "")) ∧
      read ((OrderedMap.find "note" fields).getD (.str "")) =
        read' ((OrderedMap.find "note" fields).getD (.str "")) := by
  induction h generalizing pool' with
  | nil =>
      cases h'
      simp
  | cons hc _ ih =>
      cases h' with
      | cons hc' hrest' => rw [List.cons.injEq, List.forall_mem_cons, hc.eq_iff hc', ih hrest']

/-- From elsewhere, a link sees an entry with its texts written out. -/
theorem isSightOf_ofFields (map : Int) (origins : Origins) {id : Int} {p : Point}
    (hplaced : Json.IsPlacedAt id p fields) :
    ∃ c, ofFields map origins fields = .ok c ∧ c.IsSightOf Json.text origins map fields := by
  obtain ⟨c, hc, hseen⟩ := ofFields_eq_ok map origins hplaced
  have hsight : c.name = ((OrderedMap.find "name" fields).getD (.str "")).text ∧
      c.note = ((OrderedMap.find "note" fields).getD (.str "")).text := by
    obtain ⟨number, -, hfound⟩ := Except.bind_eq_ok hc
    dsimp only at hfound
    split at hfound <;>
    · cases hfound
      exact ⟨rfl, rfl⟩
  obtain rfl := hseen.id
  exact ⟨c, hc, ⟨p, hplaced, hseen⟩, hsight.1, hsight.2⟩

/-- **From elsewhere, a link sees the entries in order.** -/
theorem sights_ofEvents (map : Int) (origins : Origins)
    (hplaced : ∀ fields ∈ Json.described entries, ∃ id p, Json.IsPlacedAt id p fields) :
    ∃ pool, ofEvents map origins entries = .ok pool ∧
      List.Forall₂ (fun fields c => c.IsSightOf Json.text origins map fields)
        (Json.described entries) pool := by
  induction entries with
  | nil => exact ⟨[], rfl, .nil⟩
  | cons entry rest ih =>
      rcases Json.described_cons entry rest with ⟨field, more, rfl, hcons⟩ | ⟨hblank, hskip⟩
      · rw [hcons] at hplaced ⊢
        obtain ⟨hhead, htail⟩ := List.forall_mem_cons.mp hplaced
        obtain ⟨id, p, hplace⟩ := hhead
        obtain ⟨c, hc, hsight⟩ := isSightOf_ofFields map origins hplace
        obtain ⟨pool, hpool, hsights⟩ := ih htail
        refine ⟨c :: pool, ?_, .cons hsight hsights⟩
        rw [ofEvents, hc, hpool]
        · rfl
        · intro hempty
          cases hempty
      · rw [hskip] at hplaced ⊢
        obtain ⟨pool, hpool, hsights⟩ := ih hplaced
        refine ⟨pool, ?_, hsights⟩
        rw [← hpool]
        cases entry with
        | obj fields =>
            obtain rfl := hblank fields rfl
            rfl
        | null | bool | int | float | str | arr => rfl

end Candidate

/-! ### The events of a map that is set up -/

namespace Play

open Session

variable {db : Database} {stores : Stores} {map : Int} {entries : List Json}
  {events found : OrderedMap Int MapEvent}

/-- An event of a map that is set up is seen under its labels. -/
theorem isSightOf_sight {fields : List (String × Json)} {id : Int} {p : Point} {e : MapEvent}
    (h : (MapEvent.ofFields map fields db stores).result = .ok e)
    (hplaced : Json.IsPlacedAt id p fields) :
    e.id = id ∧ e.sight.IsSightOf Json.label stores.origins map fields := by
  obtain ⟨hname, hnote, -⟩ := MapEvent.label_ofFields h
  obtain ⟨rfl, hpoint⟩ := MapEvent.point_of_isSpawned (MapEvent.isSpawned_ofFields h) hplaced
  have hx : Json.int e.body.x = .int ((stores.origins.origin? map e.id).getD p).x :=
    congrArg (fun q : Point => Json.int q.x) hpoint
  have hy : Json.int e.body.y = .int ((stores.origins.origin? map e.id).getD p).y :=
    congrArg (fun q : Point => Json.int q.y) hpoint
  exact ⟨rfl, ⟨p, hplaced, rfl, hx, hy⟩, hname, hnote⟩

/-- **When a map is set up, its events are those of the entries, in order.**  A number that is new gets
its event behind those of before. -/
theorem sights_readEvents (hnumbers : Json.Numbers entries)
    (hnew : ∀ fields ∈ Json.described entries, ∀ id p, Json.IsPlacedAt id p fields →
      events.get? id = none)
    (h : (readEvents map db stores events entries).result = .ok found) :
    ∃ new, found.values = events.values ++ new ∧ (∀ e ∈ new, e.erased = false) ∧
      List.Forall₂ (fun fields e => e.sight.IsSightOf Json.label stores.origins map fields)
        (Json.described entries) new := by
  induction entries generalizing events with
  | nil =>
      cases h
      exact ⟨[], by simp, by simp, .nil⟩
  | cons entry rest ih =>
      rcases readEvents_cons h with ⟨hblank, hrest⟩ | ⟨fields, e, rfl, hne, he, hrest⟩
      · rcases Json.described_cons entry rest with ⟨field, more, rfl, -⟩ | ⟨-, hskip⟩
        · exact absurd (hblank _ rfl) (List.cons_ne_nil _ _)
        · rw [hskip] at hnew ⊢
          exact ih ⟨hskip ▸ hnumbers.placed, hskip ▸ hnumbers.apart⟩ hnew hrest
      · rcases Json.described_cons (.obj fields) rest with
          ⟨field, more, hfields, hcons⟩ | ⟨hblank, -⟩
        · obtain rfl : fields = field :: more := by cases hfields; rfl
          have hplaced := hnumbers.placed
          have hapart := hnumbers.apart
          rw [hcons] at hplaced hapart hnew ⊢
          obtain ⟨hhead, htail⟩ := List.forall_mem_cons.mp hplaced
          obtain ⟨hothers, hrests⟩ := List.pairwise_cons.mp hapart
          obtain ⟨id, p, hplace⟩ := hhead
          obtain ⟨rfl, hsight⟩ := isSightOf_sight he hplace
          have hfree : events.get? e.id = none :=
            hnew _ List.mem_cons_self e.id p hplace
          have hvalues : (events.insert e.id e).values = events.values ++ [e] :=
            OrderedMap.values_insert_of_new hfree e
          -- the numbers of the entries behind are still new
          have hlater : ∀ others ∈ Json.described rest, ∀ id q, Json.IsPlacedAt id q others →
              (events.insert e.id e).get? id = none := by
            intro others hmem id q hplace'
            rw [OrderedMap.get?_insert]
            split
            · next hid =>
                obtain rfl : e.id = id := eq_of_beq hid
                exact absurd hplace' (hothers others hmem e.id p q hplace)
            · exact hnew others (List.mem_cons_of_mem _ hmem) id q hplace'
          obtain ⟨new, hfound, herased, hsights⟩ := ih ⟨htail, hrests⟩ hlater hrest
          refine ⟨e :: new, ?_, ?_, .cons hsight hsights⟩
          · rw [hfound, hvalues, List.append_assoc, List.singleton_append]
          · exact List.forall_mem_cons.mpr ⟨(MapEvent.label_ofFields he).2.2, herased⟩
        · exact absurd (hblank fields rfl) hne

variable {s t u : Session} {id : Int} {data : Json}

/-- After a map was set up, a link sees the entries of its file under their labels. -/
theorem sights_setupMap (hfile : s.game.mapFile (.int id) = .ok (some data))
    (hentries : data.eventEntries = .ok entries) (hnumbers : Json.Numbers entries)
    (hsetup : setupMap id none s = .ok () t) :
    List.Forall₂ (fun fields c => c.IsSightOf Json.label s.stores.origins id fields)
      (Json.described entries) t.localCandidates := by
  obtain ⟨-, data', entries', hdata, hentries', hread⟩ := setupMap_reads hsetup
  have hsame : s.game.mapData id none = .ok data := by
    rw [Game.mapData, hfile]
    rfl
  obtain rfl := Except.ok.inj (hsame.symm.trans hdata)
  obtain rfl := Except.ok.inj (hentries.symm.trans hentries')
  obtain ⟨new, hvalues, herased, hsights⟩ := sights_readEvents hnumbers (fun _ _ _ _ _ => rfl) hread
  have hall : t.map.eventList = new := hvalues
  have hpool : t.localCandidates = new.map MapEvent.sight := by
    rw [localCandidates, hall, List.filter_eq_self.mpr fun e he => by rw [herased e he]; rfl]
    rfl
  rw [hpool]
  exact List.forall₂_map_right_iff.mpr hsights

/-- From another map, a link sees the entries of a map file with their texts written out. -/
theorem sights_candidates (hfile : u.game.mapFile (.int id) = .ok (some data))
    (hentries : data.eventEntries = .ok entries) (hnumbers : Json.Numbers entries)
    (hother : u.map.id ≠ id) : ∃ pool, candidates (.int id) u = .ok (some pool) u ∧
      List.Forall₂ (fun fields c => c.IsSightOf Json.text u.stores.origins id fields)
        (Json.described entries) pool := by
  obtain ⟨pool, hpool, hsights⟩ :=
    Candidate.sights_ofEvents id u.stores.origins hnumbers.placed
  obtain ⟨field, hfield, hentries⟩ := Except.bind_eq_ok hentries
  refine ⟨pool, ?_, hsights⟩
  have hremote : ¬(Json.int id).isInt u.map.id = true := by
    simpa using hother.symm
  rw [candidates, get_bind_apply, if_neg hremote, remoteCandidates, get_bind_apply, hfile,
    bind_of_ok (lift_ok_apply _ _)]
  dsimp only
  rw [hfield, bind_of_ok (lift_ok_apply _ _), hentries, bind_of_ok (lift_ok_apply _ _)]
  change ((do return some (← liftM (Candidate.ofEvents id u.stores.origins entries))) :
    Play (Option (List Candidate))) u = _
  rw [hpool]
  rfl

/-- **A map is seen alike from there and from elsewhere, but for blank names and notes.**  What a link
sees right after a map was set up, and what it sees of the map from another one, are the same events in
the same order, with the same numbers and on the same tiles.  They bear the same names and notes exactly
if every name and every note in the file is a plain text. -/
theorem candidates_setupMap_iff (hfile : s.game.mapFile (.int id) = .ok (some data))
    (hentries : data.eventEntries = .ok entries) (hnumbers : Json.Numbers entries)
    (hsetup : setupMap id none s = .ok () t) (hgame : u.game = s.game)
    (horigins : u.stores.origins = s.stores.origins) (hother : u.map.id ≠ id) :
    ∃ pool, candidates (.int id) u = .ok (some pool) u ∧
      pool.map Candidate.spot = t.localCandidates.map Candidate.spot ∧
      (pool = t.localCandidates ↔ ∀ fields ∈ Json.described entries,
        Json.IsPlainText "name" fields ∧ Json.IsPlainText "note" fields) := by
  have hlocal := sights_setupMap hfile hentries hnumbers hsetup
  have hfile' : u.game.mapFile (.int id) = .ok (some data) := by rw [hgame, hfile]
  obtain ⟨pool, hpool, hremote⟩ := sights_candidates hfile' hentries hnumbers hother
  rw [horigins] at hremote
  refine ⟨pool, hpool, Candidate.map_spot_eq hremote hlocal, ?_⟩
  rw [Candidate.pools_eq_iff hremote hlocal]
  simp only [Json.text_eq_label_iff, Json.IsPlainText]

/-! ### A hamlet -/

/-- The fields of an event with a name. -/
def namedFields (id : Int) (name : Json) : List (String × Json) := [("id", .int id), ("name", name)]

/-- The entries of a hamlet with a single event. -/
def hamletEntries (name : Json) : List Json := [.null, .obj (namedFields 1 name)]

theorem numbers_hamletEntries (name : Json) : Json.Numbers (hamletEntries name) where
  placed := by
    intro fields hmem
    obtain rfl : fields = namedFields 1 name := List.mem_singleton.mp hmem
    exact ⟨1, ⟨0, 0⟩, rfl, rfl, rfl⟩
  apart := List.pairwise_singleton _ _

/-- A session in a game in which every map is the hamlet. -/
def beforeHamlet (name : Json) : Session :=
  Session.begin { mapFile := fun _ => .ok (some (.obj [("events", .arr (hamletEntries name))])) } {}

/-- A named event is seen alike from the hamlet and from elsewhere. -/
theorem candidates_setupMap_hamlet : ∃ t pool, setupMap 2 none (beforeHamlet (.str "Well")) = .ok () t ∧
    candidates (.int 2) (beforeHamlet (.str "Well")) = .ok (some pool) (beforeHamlet (.str "Well")) ∧
    pool = t.localCandidates := by
  have hsucceeds : (setupMap 2).succeeds (beforeHamlet (.str "Well")) = true := by decide +kernel
  have hsetup := eq_ok_of_succeeds hsucceeds
  obtain ⟨pool, hpool, -, halike⟩ := candidates_setupMap_iff (u := beforeHamlet (.str "Well")) rfl rfl
    (numbers_hamletEntries (.str "Well")) hsetup rfl rfl (by decide)
  refine ⟨_, pool, hsetup, hpool, halike.mpr ?_⟩
  intro fields hmem
  obtain rfl : fields = namedFields 1 (.str "Well") := List.mem_singleton.mp hmem
  exact ⟨Or.inl rfl, Or.inr rfl⟩

/-- An event whose name is null is seen under another name from elsewhere. -/
theorem candidates_ne_nullHamlet : ∃ t pool, setupMap 2 none (beforeHamlet .null) = .ok () t ∧
    candidates (.int 2) (beforeHamlet .null) = .ok (some pool) (beforeHamlet .null) ∧
    pool.map Candidate.name = ["None"] ∧ t.localCandidates.map Candidate.name = [""] ∧
    pool ≠ t.localCandidates := by
  have hsucceeds : (setupMap 2).succeeds (beforeHamlet .null) = true := by decide +kernel
  have hnames : ((setupMap 2).after (beforeHamlet .null)).localCandidates.map Candidate.name = [""] := by
    decide +kernel
  refine ⟨_, _, eq_ok_of_succeeds hsucceeds, rfl, rfl, hnames, ?_⟩
  intro hsame
  rw [← hsame] at hnames
  exact absurd hnames (by decide)

end Play

end EventLayer
