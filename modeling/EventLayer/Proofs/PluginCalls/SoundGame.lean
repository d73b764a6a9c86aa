/-
**Sound data.**

The editor numbers the entries of its tables from one on, and stands every event of a map on a tile.  The
data of a game are sound if they are as the editor writes them, in the few places that a call of this
layer looks at.  Whether the texts of a call can be read is another matter.

Main definitions:

* `Json.IsThing`, `Json.HoldsThings` — entries of a table of things, and such tables;
* `Json.IsMapNumber`, `Json.IsMapFile` — numbers and files of maps;
* `Game.Sound` — games with sound data;
* `Game.ShowsTreasures` — games whose treasures can be shown.

Main results:

* `Game.Sound.item?_zero` — **nothing bears the number zero**;
* `Game.Sound.isThing_of_item?`, `Game.Sound.itemNamed?_cases` — what is looked up is an entry;
* `Candidate.exists_ofEvents` — the events of a map file can be looked at.
-/
import EventLayer.Proofs.PluginCalls.Texts
import EventLayer.Session.Linking

set_option autoImplicit false
set_option relaxedAutoImplicit false

namespace EventLayer

/-! ### What the editor writes -/

namespace Json

/-- An entry of a table of things. -/
structure IsThing (e : Json) : Prop where
  id : ∃ n : Int, e.field? "id" = some (.int n) ∧ 0 < n
  idInRange : ¬((e.field? "id").getD (.int 0)).IsInfinite
  icon : ∃ n, (((e.field? "iconIndex").getD (.int 0)).orElse (.int 0)).toInt = .ok n

/-- A table of things. -/
structure HoldsThings (table : Json) : Prop where
  isList : ∃ entries, table = .arr entries
  things : ∀ entries, table = .arr entries → ∀ e ∈ entries, e.truthy = true → e.isObject = true → e.IsThing

/-- The fields of an event of a map file: the event has a number and stands on a tile. -/
structure IsPlaced (fields : List (String × Json)) : Prop where
  id : ∃ n, ((OrderedMap.find "id" fields).getD (.int 0)).toInt = .ok n
  x : ∃ n, ((OrderedMap.find "x" fields).getD (.int 0)).number = .ok (.int n)
  y : ∃ n, ((OrderedMap.find "y" fields).getD (.int 0)).number = .ok (.int n)

/-- The number of a map. -/
structure IsMapNumber (v : Json) : Prop where
  toInt : ∃ n, v.toInt = .ok n
  number : ∃ n, v.number = .ok n

theorem isMapNumber_int (n : Int) : (Json.int n).IsMapNumber := ⟨⟨n, rfl⟩, ⟨.int n, rfl⟩⟩

theorem isMapNumber_true : (Json.bool true).IsMapNumber := ⟨⟨1, rfl⟩, ⟨.int 1, rfl⟩⟩

/-- The file of a map. -/
def IsMapFile (file : Json) : Prop :=
  ∃ fields events, file = .obj fields ∧
    ((OrderedMap.find "events" fields).getD .null).orElse (.arr []) = .arr events ∧
    ∀ e, .obj e ∈ events → IsPlaced e

end Json

/-- A game whose data are as the editor writes them. -/
structure Game.Sound (g : Game) : Prop where
  things : ∀ kind, (g.database.table kind).HoldsThings
  maps : ∀ name id, g.database.mapNamed? name = some id → id.IsMapNumber
  /-- The common event that shows treasures can be begun. -/
  display : ∀ entry, g.database.commonEvent? (.int g.config.treasureDisplay) = some entry →
    ∃ l, (EventCommand.readList (CommonEvent.listOf entry)).result = .ok l
  /-- A map can be looked for under any number. -/
  lookups : ∀ map : Json, map.IsMapNumber → ∃ found, g.mapFile map = .ok found
  files : ∀ map file, g.mapFile map = .ok (some file) → file.IsMapFile

/-- The common event that shows the treasures of a game can be begun, if there is one. -/
def Game.ShowsTreasures (g : Game) : Prop :=
  ∀ entry, g.database.commonEvent? (.int g.config.treasureDisplay) = some entry →
    ∃ l, (EventCommand.readList (CommonEvent.listOf entry)).result = .ok l

/-! ### Things -/

theorem Json.IsThing.not_same_zero {e : Json} (h : e.IsThing) :
    ((e.field? "id").getD .null).same (.int 0) = false := by
  obtain ⟨n, hn, hpos⟩ := h.id
  rw [hn, Option.getD_some, Json.same]
  exact beq_eq_false_iff_ne.mpr hpos.ne'

/-- A thing is counted under a key. -/
theorem Json.IsThing.exists_key {e : Json} (h : e.IsThing) : ∃ key?, ItemKey.ofEntry? e = .ok key? := by
  obtain ⟨n, hn, -⟩ := h.id
  cases e with
  | obj fields =>
      cases fields with
      | nil => exact ⟨none, rfl⟩
      | cons first rest =>
          refine ⟨some ⟨(ItemKey.kindOf (first :: rest)).word, n⟩, ?_⟩
          change (do
            let id ← ((OrderedMap.find "id" (first :: rest)).getD (.int 0)).toInt
            return some ⟨(ItemKey.kindOf (first :: rest)).word, id⟩ : Except Fault (Option ItemKey)) = _
          rw [show OrderedMap.find "id" (first :: rest) = some (.int n) from hn]
          rfl
  | null | bool | int | float | str | arr => cases hn

namespace Game.Sound

variable {g : Game}

theorem isThing_of_find? (hg : g.Sound) {kind : ItemKind} {entries : List Json} {e : Json}
    {p : Json → Bool} (htable : g.database.table kind = .arr entries)
    (hp : ∀ e, p e = true → e.truthy = true ∧ e.isObject = true) (h : entries.find? p = some e) :
    e.IsThing := by
  obtain ⟨htruthy, hobject⟩ := hp e (List.find?_some h)
  exact (hg.things kind).things entries htable e (List.mem_of_find?_eq_some h) htruthy hobject

theorem isThing_of_item? (hg : g.Sound) {kind : ItemKind} {id e : Json}
    (h : g.database.item? kind id = some e) : e.IsThing := by
  obtain ⟨entries, htable⟩ := (hg.things kind).isList
  unfold Database.item? Database.entry? at h
  rw [htable] at h
  refine hg.isThing_of_find? htable ?_ h
  intro e he
  simp only [Bool.and_eq_true] at he
  exact he.1

/-- **Nothing bears the number zero.** -/
theorem item?_zero (hg : g.Sound) (kind : ItemKind) : g.database.item? kind (.int 0) = none := by
  cases h : g.database.item? kind (.int 0) with
  | none => rfl
  | some e =>
      have hthing := hg.isThing_of_item? h
      obtain ⟨entries, htable⟩ := (hg.things kind).isList
      unfold Database.item? Database.entry? at h
      rw [htable] at h
      have hsame := List.find?_some h
      rw [hthing.not_same_zero, Bool.and_false] at hsame
      cases hsame

/-- A search comes to an end, and finds a thing if anything. -/
theorem exists_search (hg : g.Sound) (name : String) (kinds : List ItemKind)
    {alike : Option (ItemKind × Json)} (halike : ∀ kind e, alike = some (kind, e) → e.IsThing) :
    ∃ found, g.database.search name alike kinds = .ok found ∧
      ∀ kind e, found = some (kind, e) → e.IsThing := by
  induction kinds generalizing alike with
  | nil => exact ⟨alike, rfl, halike⟩
  | cons kind rest ih =>
      obtain ⟨entries, htable⟩ := (hg.things kind).isList
      have hthing : ∀ {p : Json → Bool} {e : Json},
          (entries.filter fun e => e.truthy && e.isObject).find? p = some e → e.IsThing := by
        intro p e he
        obtain ⟨hmem, hobject⟩ := List.mem_filter.mp (List.mem_of_find?_eq_some he)
        rw [Bool.and_eq_true] at hobject
        exact (hg.things kind).things entries htable e hmem hobject.1 hobject.2
      unfold Database.search
      rw [htable, Json.elements_arr, Except.ok_bind]
      dsimp only
      cases hexact : (entries.filter fun e => e.truthy && e.isObject).find? fun e =>
          Database.entryName e == name with
      | some e =>
          refine ⟨_, rfl, ?_⟩
          rintro _ _ ⟨⟩
          exact hthing hexact
      | none =>
          refine ih ?_
          intro kind' e he
          rcases Option.or_eq_some_iff.mp he with hold | ⟨-, hnew⟩
          · exact halike kind' e hold
          · obtain ⟨e', he', heq⟩ := Option.map_eq_some_iff.mp hnew
            cases heq
            exact hthing he'

/-- A name is the name of a thing or of none. -/
theorem itemNamed?_cases (hg : g.Sound) (name : String) :
    g.database.itemNamed? name = .ok none ∨
      ∃ kind e, g.database.itemNamed? name = .ok (some (kind, e)) ∧ e.IsThing := by
  unfold Database.itemNamed?
  dsimp only
  split
  · exact Or.inl rfl
  · have hnone : ∀ kind e, (none : Option (ItemKind × Json)) = some (kind, e) → e.IsThing := nofun
    obtain ⟨found, hfound, hthing⟩ := hg.exists_search (Text.trim name) [.item, .weapon, .armor] hnone
    rw [hfound]
    cases found with
    | none => exact Or.inl rfl
    | some p => exact Or.inr ⟨p.1, p.2, rfl, hthing p.1 p.2 rfl⟩

end Game.Sound

/-! ### Map files -/

namespace Candidate

/-- A candidate whose place is given by numbers. -/
structure IsPlaced (c : Candidate) : Prop where
  x : ∃ n, c.x.number = .ok (.int n)
  y : ∃ n, c.y.number = .ok (.int n)

theorem exists_ofFields (map : Int) (origins : Origins) {fields : List (String × Json)}
    (h : Json.IsPlaced fields) : ∃ c, ofFields map origins fields = .ok c ∧ c.IsPlaced := by
  obtain ⟨id, hid⟩ := h.id
  unfold ofFields
  dsimp only
  rw [hid, Except.ok_bind]
  cases origins.origin? map id with
  | some p => exact ⟨_, rfl, ⟨p.x, rfl⟩, ⟨p.y, rfl⟩⟩
  | none => exact ⟨_, rfl, h.x, h.y⟩

/-- **The events of a map file can be looked at.** -/
theorem exists_ofEvents (map : Int) (origins : Origins) {events : List Json}
    (h : ∀ e, .obj e ∈ events → Json.IsPlaced e) :
    ∃ pool, ofEvents map origins events = .ok pool ∧ ∀ c ∈ pool, c.IsPlaced := by
  induction events with
  | nil => exact ⟨[], rfl, nofun⟩
  | cons e rest ih =>
      obtain ⟨pool, hpool, hplaced⟩ := ih fun e he => h e (List.mem_cons_of_mem _ he)
      cases e with
      | obj fields =>
          cases fields with
          | nil => exact ⟨pool, hpool, hplaced⟩
          | cons first others =>
              obtain ⟨c, hc, hcPlaced⟩ := exists_ofFields map origins (h _ List.mem_cons_self)
              refine ⟨c :: pool, ?_, ?_⟩
              · rw [ofEvents, hc, hpool]
                · rfl
                · nofun
              · intro c' hc'
                rcases List.mem_cons.mp hc' with rfl | hc'
                · exact hcPlaced
                · exact hplaced c' hc'
      | null | bool | int | float | str | arr => exact ⟨pool, hpool, hplaced⟩

end Candidate

end EventLayer
