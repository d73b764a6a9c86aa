/-
**Stores come back from a save.**

Every store is written as a value and read again from it.  A table whose keys do not repeat comes
back entry by entry and in order.  What does not come back is what a save does not hold: amounts of
gold and counts of things are whole numbers there, so that a fraction is cut off, and the behaviour
of move routes is a known one.

Main definitions:

* `Json.Number.cut`, `Party.kept`, `RouteBehavior.kept`, `Stores.kept` — what comes back;
* `Stores.IsWhole` — the stores that come back as they were;
* `Stores.IsDistinct` — no key of a store repeats.

Main results:

* `ScopedTable.read_toJson`, `SelfStore.read_toJson`, `Origins.read_toJson`, `Party.read_toJson` —
  each store;
* `Session.ofSave_save` — **what the stores of a save are**;
* `Stores.kept_of_isWhole` — whole stores come back as they were.
-/
import EventLayer.Proofs.OrderedMap
import EventLayer.Proofs.Results
import EventLayer.Proofs.Saving.Numeral
import EventLayer.Session.Saving

set_option autoImplicit false
set_option relaxedAutoImplicit false

namespace EventLayer

/-! ### What comes back -/

/-- A number without its fraction; a number that has no whole part stays. -/
def Json.Number.cut (n : Json.Number) : Json.Number :=
  match n.truncate with
  | .ok k => .int k
  | .error _ => n

/-- What comes back of a party: gold and counts without fractions. -/
def Party.kept (p : Party) : Party :=
  { p with gold := p.gold.cut, items := p.items.mapValues Json.Number.cut }

/-- What comes back of a behaviour: one without meaning is normal. -/
def RouteBehavior.kept (b : RouteBehavior) : RouteBehavior := (known? b.word).getD .normal

/-- What comes back of the stores. -/
def Stores.kept (s : Stores) : Stores :=
  { s with party := s.party.kept, behavior := s.behavior.kept }

/-- Stores whose amounts are whole numbers, and whose behaviour is a known one. -/
structure Stores.IsWhole (s : Stores) : Prop where
  gold : ∃ n : Int, s.party.gold = .int n
  items : ∀ n ∈ s.party.items.values, ∃ k : Int, n = .int k
  behavior : (RouteBehavior.known? s.behavior.word).isSome

/-- No key of a store repeats. -/
structure Stores.IsDistinct (s : Stores) : Prop where
  switchTable : s.switchTable.values.Distinct
  variableTable : s.variableTable.values.Distinct
  selfSwitches : s.selfSwitches.slots.Distinct
  selfVariables : s.selfVariables.slots.Distinct
  origins : s.origins.points.Distinct
  items : s.party.items.Distinct

@[simp] theorem Json.Number.cut_int (n : Int) : (Json.Number.int n).cut = .int n := rfl

theorem Json.Number.cut_of_truncate {n : Json.Number} {k : Int} (h : n.truncate = .ok k) :
    n.cut = .int k := by
  rw [cut, h]

theorem RouteBehavior.word_of_known {w : String} {b : RouteBehavior} (h : known? w = some b) :
    b.word = w := by
  unfold known? at h
  split at h
  · cases h
    simp [word, *]
  · split at h
    · cases h
      simp [word, *]
    · split at h
      · cases h
        simp [word, *]
      · cases h

theorem RouteBehavior.word_kept {b : RouteBehavior} (h : (known? b.word).isSome) :
    b.kept.word = b.word := by
  obtain ⟨c, hc⟩ := Option.isSome_iff_exists.mp h
  rw [kept, hc]
  exact word_of_known hc

/-- A party whose amounts are whole comes back as it was. -/
theorem Party.kept_of_whole {p : Party} (hg : ∃ n : Int, p.gold = .int n)
    (hi : ∀ n ∈ p.items.values, ∃ k : Int, n = .int k) : p.kept = p := by
  obtain ⟨members, gold, ⟨entries⟩⟩ := p
  obtain ⟨n, rfl⟩ := hg
  have hentries : entries.map (fun e => (e.1, e.2.cut)) = entries := by
    refine (List.map_congr_left fun e he => ?_).trans (List.map_id _)
    obtain ⟨k, hk⟩ := hi e.2 (List.mem_map_of_mem he)
    rw [hk, Json.Number.cut_int, ← hk]
    rfl
  simp [kept, OrderedMap.mapValues, hentries]

/-- Whole stores are saved as what comes back of them. -/
theorem Session.save_kept {s : Session} (h : s.stores.IsWhole) :
    { s with stores := s.stores.kept }.save = s.save := by
  have hp : s.stores.party.kept = s.stores.party := Party.kept_of_whole h.gold h.items
  have hb : s.stores.behavior.kept.word = s.stores.behavior.word := RouteBehavior.word_kept h.behavior
  simp only [Session.save, Stores.kept, hp, hb]
  rfl

/-! ### Each store -/

@[simp] theorem Json.orElse_obj (fields : List (String × Json)) :
    (Json.obj fields).orElse (.obj []) = .obj fields := by
  cases fields <;> rfl

@[simp] theorem Json.orElse_arr (items : List Json) :
    (Json.arr items).orElse (.arr []) = .arr items := by
  cases items <;> rfl

namespace ScopedTable

/-- The entries of a table are read as they were written. -/
theorem foldl_written {entries : List (Int × Json)}
    (h : ∀ e ∈ entries, Text.isWritable e.1 = true) (m : OrderedMap Int Json) :
    (entries.map fun e => (toString e.1, e.2)).foldl (fun m e =>
      match Text.readInt? e.1 with
      | some id => m.insert id e.2
      | none => m) m = entries.foldl (fun m e => m.insert e.1 e.2) m := by
  induction entries generalizing m with
  | nil => rfl
  | cons e rest ih =>
      rw [List.map_cons, List.foldl_cons, List.foldl_cons]
      dsimp only
      rw [Text.readInt?_toString (h e (by simp))]
      exact ih (fun e he => h e (by simp [he])) _

theorem read_toJson {t : ScopedTable} (hw : t.isWritable = true) (hd : t.values.Distinct)
    (u : ScopedTable) : u.read t.toJson = .ok { u with values := t.values } := by
  have hwrite : ∀ e ∈ t.values.entries, Text.isWritable e.1 = true := fun e he =>
    List.all_eq_true.mp hw e.1 (List.mem_map_of_mem he)
  have hvalues : readValues t.toJson = .ok t.values := by
    rw [readValues, toJson, Json.orElse_obj]
    exact congrArg Except.ok
      ((foldl_written hwrite ∅).trans (OrderedMap.foldl_insert_entries hd))
  rw [read, hvalues]
  rfl

/-- A table that is read in place of one with the same self-scoped numbers. -/
theorem read_like {t u v : ScopedTable} (hw : t.isWritable = true) (hd : t.values.Distinct)
    (hu : u.selfIds = t.selfIds) (h : u.read t.toJson = .ok v) : v = t := by
  rw [read_toJson hw hd, hu] at h
  cases h
  rfl

end ScopedTable

namespace SelfStore

theorem readRow_written {s t : SelfStore} {e : SelfKey × Json}
    (h : s.readRow (.arr [e.1.toJson, e.2]) = .ok t) : t = ⟨s.slots.insert e.1 e.2⟩ := by
  obtain ⟨key, hkey, ht⟩ := Except.bind_eq_ok h
  have hk : key = e.1 := by
    unfold SelfKey.checked at hkey
    split at hkey
    · cases hkey
      rfl
    · cases hkey
  cases ht
  rw [hk]
  rfl

theorem read_toJson {s t : SelfStore} (hd : s.slots.Distinct) (h : read s.toJson = .ok t) :
    t = s := by
  rw [read, toJson, Json.orElse_arr] at h
  have hadd : t = s.slots.entries.foldl (fun s e => ⟨s.slots.insert e.1 e.2⟩) ⟨∅⟩ :=
    Except.foldlM_rows (fun e _ u v => readRow_written) h
  exact hadd.trans (OrderedMap.foldl_entries hd SelfStore.mk fun _ _ => rfl)

end SelfStore

namespace Origins

theorem readEntry_written {o u : Origins} {e : String × Point}
    (h : o.readEntry (e.1, .obj [("x", .int e.2.x), ("y", .int e.2.y)]) = .ok u) :
    u = ⟨o.points.insert e.1 e.2⟩ := by
  cases h
  rfl

theorem read_toJson {o u : Origins} (hd : o.points.Distinct) (h : read o.toJson = .ok u) :
    u = o := by
  rw [read, toJson, Json.orElse_obj] at h
  have hadd : u = o.points.entries.foldl (fun o e => ⟨o.points.insert e.1 e.2⟩) ⟨∅⟩ :=
    Except.foldlM_rows (fun e _ u v => readEntry_written) h
  exact hadd.trans (OrderedMap.foldl_entries hd Origins.mk fun _ _ => rfl)

end Origins

namespace Party

open Json (Number)

theorem toInt_toJson (n : Number) : n.toJson.toInt = n.truncate := by
  cases n <;> rfl

/-- A blank number is a zero of some kind. -/
theorem truncate_of_not_truthy {n : Number} (h : n.toJson.truthy = false) : n.truncate = .ok 0 := by
  cases n with
  | int n =>
      obtain rfl : n = 0 := by simpa [Number.toJson] using h
      rfl
  | float x =>
      have hx : Double.sameValue x (.finite 0) = true := by
        simpa [Number.toJson, Json.truthy, Double.isNonzero] using h
      cases x with
      | nan => cases hx
      | infinite negative => cases negative <;> cases hx
      | negZero => rfl
      | finite q =>
          have hq : q = 0 := by
            simp only [Double.sameValue, Double.compare?, Double.toRat?, Option.getD_some] at hx
            by_cases hlt : q < 0
            · simp [hlt] at hx
            · by_cases hzero : q = 0
              · exact hzero
              · simp [hlt, hzero] at hx
          rw [hq]
          rfl

theorem readRow_written {items more : OrderedMap ItemKey Number} {e : ItemKey × Number}
    (h : readRow items (.arr [.str e.1.kind, .int e.1.id, e.2.toJson]) = .ok more) :
    more = items.insert e.1 e.2.cut := by
  obtain ⟨k, hk, h⟩ := Except.bind_eq_ok h
  rw [toInt_toJson] at hk
  cases h
  rw [Number.cut_of_truncate hk]
  rfl

theorem toInt_gold {n : Number} {k : Int} (h : (n.toJson.orElse (.int 0)).toInt = .ok k) :
    n.cut = .int k := by
  unfold Json.orElse at h
  split at h
  · rw [toInt_toJson] at h
    exact Number.cut_of_truncate h
  · next hblank =>
      cases h
      exact Number.cut_of_truncate (truncate_of_not_truthy (by simpa using hblank))

theorem read_toJson {p q : Party} (hd : p.items.Distinct) (h : read p.toJson = .ok q) :
    q = p.kept := by
  have hfields : p.toJson.orElse (.obj []) = p.toJson := Json.orElse_obj _
  have hmembers : p.toJson.fieldD "members" .null = .ok (.arr p.members) := rfl
  have hgold : p.toJson.fieldD "gold" (.int 0) = .ok p.gold.toJson := rfl
  have hitems : p.toJson.fieldD "items" .null = .ok (.arr (p.items.entries.map fun e =>
      .arr [.str e.1.kind, .int e.1.id, e.2.toJson])) := rfl
  rw [read, hfields, hmembers, hgold, hitems] at h
  simp only [Except.ok_bind, Json.orElse_arr, Json.elements_arr] at h
  obtain ⟨gold, hg, h⟩ := Except.bind_eq_ok h
  obtain ⟨items, hi, h⟩ := Except.bind_eq_ok h
  cases h
  have hadd : items = p.items.entries.foldl (fun m e => m.insert e.1 e.2.cut) ∅ :=
    Except.foldlM_rows (fun e _ u v => readRow_written) hi
  have hback : items = p.items.mapValues Number.cut := by
    have := OrderedMap.foldl_insert_entries (hd.mapValues Number.cut)
    rwa [OrderedMap.mapValues, List.foldl_map, ← hadd] at this
  rw [kept, toInt_gold hg, hback]

end Party

/-! ### All stores -/

/-- The behaviour is read from its word, or is normal. -/
theorem RouteBehavior.result_ofSave (b : RouteBehavior) :
    (ofSave (.str b.word)).result = .ok b.kept := by
  unfold ofSave kept
  dsimp only
  cases known? b.word <;> rfl

/-- Two stores call the same numbers self-scoped. -/
structure Stores.IsLike (s t : Stores) : Prop where
  switchTable : s.switchTable.selfIds = t.switchTable.selfIds
  variableTable : s.variableTable.selfIds = t.variableTable.selfIds

namespace Session

variable {s : Session} {contents : Json}

theorem contents_eq_ok (h : s.contents = .ok contents) :
    s.stores.switchTable.isWritable = true ∧ s.stores.variableTable.isWritable = true ∧
      contents = s.save := by
  unfold Session.contents at h
  split at h
  · next hw =>
      rw [Bool.and_eq_true] at hw
      cases h
      exact ⟨hw.1, hw.2, rfl⟩
  · cases h

/-- **What the stores of a save are.** -/
theorem ofSave_save {config : Config} {old new : Stores} (hd : s.stores.IsDistinct)
    (hc : s.contents = .ok contents) (hold : old.IsLike s.stores)
    (h : (Stores.ofSave contents config old).result = .ok new) : new = s.stores.kept := by
  obtain ⟨hswitches, hvariables, rfl⟩ := contents_eq_ok hc
  obtain ⟨switchTable, hread, h⟩ :=
    Reading.block_eq_ok (w := s.stores.switchTable.toJson) rfl h
  obtain rfl := ScopedTable.read_like hswitches hd.switchTable hold.switchTable hread
  obtain ⟨variableTable, hread, h⟩ :=
    Reading.block_eq_ok (w := s.stores.variableTable.toJson) rfl h
  obtain rfl := ScopedTable.read_like hvariables hd.variableTable hold.variableTable hread
  obtain ⟨selfSwitches, hread, h⟩ := Reading.block_eq_ok (w := s.stores.selfSwitches.toJson) rfl h
  obtain rfl := SelfStore.read_toJson hd.selfSwitches hread
  obtain ⟨selfVariables, hread, h⟩ :=
    Reading.block_eq_ok (w := s.stores.selfVariables.toJson) rfl h
  obtain rfl := SelfStore.read_toJson hd.selfVariables hread
  obtain ⟨origins, hread, h⟩ := Reading.block_eq_ok (w := s.stores.origins.toJson) rfl h
  obtain rfl := Origins.read_toJson hd.origins hread
  obtain ⟨party, hread, h⟩ := Reading.block_eq_ok (w := s.stores.party.toJson) rfl h
  obtain rfl := Party.read_toJson hd.items hread
  obtain ⟨_, hword, h⟩ := Reading.bind_eq_ok h
  cases hword
  obtain ⟨behavior, hread, h⟩ := Reading.bind_eq_ok h
  obtain rfl := Except.ok.inj (hread.symm.trans (RouteBehavior.result_ofSave s.stores.behavior))
  cases h
  rfl

end Session

end EventLayer
