/-
**Laws of maps that remember the order of insertion.**

What the operations of an `OrderedMap` do to its look-ups and to its keys.  A map that is built by
insertions never repeats a key, and a map without repeated keys is rebuilt, entry by entry and in
order, by inserting its entries one after the other.

Main results:

* `OrderedMap.get?_mapValues`, `OrderedMap.get?_modify` — reading after a change of values;
* `OrderedMap.Distinct.insert`, `OrderedMap.Distinct.erase` — no key comes to be repeated;
* `OrderedMap.foldl_insert_entries` — **the entries of a map rebuild it**.
-/
import EventLayer.OrderedMap

set_option autoImplicit false
set_option relaxedAutoImplicit false

namespace EventLayer.OrderedMap

variable {κ ν μ : Type}

/-! ### Values -/

@[simp] theorem values_mapValues (f : ν → μ) (m : OrderedMap κ ν) :
    (m.mapValues f).values = m.values.map f := by
  simp [values, mapValues, Function.comp_def]

@[simp] theorem keys_mapValues (f : ν → μ) (m : OrderedMap κ ν) :
    (m.mapValues f).keys = m.keys := by
  simp [keys, mapValues, Function.comp_def]

theorem mapValues_mapValues {ρ : Type} (f : ν → μ) (g : μ → ρ) (m : OrderedMap κ ν) :
    (m.mapValues f).mapValues g = m.mapValues fun v => g (f v) := by
  simp [mapValues, Function.comp_def]

variable [BEq κ]

/-- Writing a value that looks the same under a function changes nothing under it. -/
theorem map_put_of_find {f : ν → μ} {k : κ} {v w : ν} {l : List (κ × ν)} (h : find k l = some v)
    (hw : f w = f v) : (put k w l).map (fun e => (e.1, f e.2)) = l.map fun e => (e.1, f e.2) := by
  induction l with
  | nil => cases h
  | cons e rest ih =>
      obtain ⟨a, b⟩ := e
      by_cases ha : a == k
      · simp only [find, ha, if_true, Option.some.injEq] at h
        simp [put, ha, hw, h]
      · simp only [find, ha, Bool.false_eq_true, if_false] at h
        simp [put, ha, ih h]

/-- Changing one value within what a function does not look at. -/
theorem mapValues_modify {f : ν → ν} {g : ν → μ} (h : ∀ v, g (f v) = g v) (m : OrderedMap κ ν)
    (k : κ) : (m.modify k f).mapValues g = m.mapValues g := by
  unfold modify
  split
  · rfl
  · next v hv => simp [mapValues, OrderedMap.insert, map_put_of_find hv (h v)]

theorem put_put {k : κ} {v w : ν} {l : List (κ × ν)} (hk : (k == k) = true) :
    put k w (put k v l) = put k w l := by
  induction l with
  | nil => simp [put, hk]
  | cons e rest ih =>
      obtain ⟨a, b⟩ := e
      by_cases ha : a == k
      · simp [put, ha]
      · simp [put, ha, ih]

/-- Changing one value twice. -/
theorem modify_modify [EquivBEq κ] (m : OrderedMap κ ν) (k : κ) (f g : ν → ν) :
    (m.modify k f).modify k g = m.modify k fun v => g (f v) := by
  cases hv : m.get? k with
  | none => simp [modify, hv]
  | some v =>
      have hfirst : m.modify k f = m.insert k (f v) := by simp [modify, hv]
      have hboth : (m.modify k fun v => g (f v)) = m.insert k (g (f v)) := by simp [modify, hv]
      rw [hfirst, hboth, modify, get?_insert_self]
      exact congrArg OrderedMap.mk (put_put BEq.rfl)

theorem find_map (f : ν → μ) (k : κ) (l : List (κ × ν)) :
    find k (l.map fun e => (e.1, f e.2)) = (find k l).map f := by
  induction l with
  | nil => rfl
  | cons e rest ih =>
      obtain ⟨a, b⟩ := e
      by_cases h : a == k
      · simp [find, h]
      · simp [find, h, ih]

@[simp] theorem get?_mapValues (f : ν → μ) (m : OrderedMap κ ν) (k : κ) :
    (m.mapValues f).get? k = (m.get? k).map f := find_map f k m.entries

theorem get?_modify [EquivBEq κ] (m : OrderedMap κ ν) (k k' : κ) (f : ν → ν) :
    (m.modify k f).get? k' = if k == k' then (m.get? k).map f else m.get? k' := by
  unfold modify
  split
  · next h =>
      split
      · next hk =>
          rw [h]
          have : m.get? k' = m.get? k := by
            obtain ⟨l⟩ := m
            simp only [get?]
            clear h
            induction l with
            | nil => rfl
            | cons e rest ih =>
                obtain ⟨a, b⟩ := e
                simp only [find, BEq.congr_right hk, ih]
          rw [this, h]
          rfl
      · rfl
  · next v h =>
      rw [get?_insert, h]
      rfl

/-- A value that is written looks the same under a function wherever it is written among values
that do. -/
theorem map_put {g : ν → μ} {k : κ} {v w : ν} {l l' : List (κ × ν)}
    (hl : l.map (fun e => (e.1, g e.2)) = l'.map fun e => (e.1, g e.2)) (hw : g v = g w) :
    (put k v l).map (fun e => (e.1, g e.2)) = (put k w l').map fun e => (e.1, g e.2) := by
  induction l generalizing l' with
  | nil =>
      obtain rfl : l' = [] := by simpa using hl.symm
      simp [put, hw]
  | cons e rest ih =>
      cases l' with
      | nil => simp at hl
      | cons e' rest' =>
          obtain ⟨a, b⟩ := e
          obtain ⟨a', b'⟩ := e'
          simp only [List.map_cons, List.cons.injEq, Prod.mk.injEq] at hl
          obtain ⟨⟨rfl, hb⟩, hrest⟩ := hl
          by_cases ha : a == k
          · simp [put, ha, hw, hrest]
          · simp [put, ha, hb, ih hrest]

/-- Changing one value to one that looks the same, whatever the change did not have to look at. -/
theorem mapValues_modify_mapValues {f g : ν → ν} (hf : ∀ v, g (f (g v)) = g (f v))
    (hg : ∀ v, g (g v) = g v) (m : OrderedMap κ ν) (k : κ) :
    ((m.mapValues g).modify k f).mapValues g = (m.modify k f).mapValues g := by
  have hsame : (m.mapValues g).mapValues g = m.mapValues g := by
    rw [mapValues_mapValues]
    exact congrArg (m.mapValues ·) (funext hg)
  have hfind : (m.mapValues g).get? k = (m.get? k).map g := find_map g k m.entries
  unfold modify
  rw [hfind]
  cases m.get? k with
  | none => exact hsame
  | some v =>
      exact congrArg OrderedMap.mk (map_put (congrArg OrderedMap.entries hsame) (hf v))

/-! ### Keys without repetition -/

theorem mem_keys_put {k a : κ} {v : ν} {l : List (κ × ν)} (h : a ∈ (put k v l).map (·.1)) :
    a ∈ l.map (·.1) ∨ a = k := by
  induction l with
  | nil => simpa [put] using h
  | cons e rest ih =>
      obtain ⟨b, w⟩ := e
      by_cases hb : b == k
      · simp only [put, hb, if_true, List.map_cons, List.mem_cons] at h
        simp only [List.map_cons, List.mem_cons]
        exact Or.inl h
      · simp only [put, hb, Bool.false_eq_true, if_false, List.map_cons, List.mem_cons] at h
        rcases h with rfl | h
        · simp
        · rcases ih h with h | h
          · exact Or.inl (by simp [h])
          · exact Or.inr h

/-- What stands in a map after an insertion stood there before or was inserted. -/
theorem mem_values_insert {m : OrderedMap κ ν} {k : κ} {v w : ν} (h : w ∈ (m.insert k v).values) :
    w ∈ m.values ∨ w = v := by
  obtain ⟨l⟩ := m
  simp only [values, OrderedMap.insert] at h ⊢
  induction l with
  | nil => simpa [put] using h
  | cons e rest ih =>
      obtain ⟨b, u⟩ := e
      by_cases hb : b == k
      · simp only [put, hb, if_true, List.map_cons, List.mem_cons] at h
        rcases h with rfl | h
        · exact Or.inr rfl
        · exact Or.inl (by simp [h])
      · simp only [put, hb, Bool.false_eq_true, if_false, List.map_cons, List.mem_cons] at h
        rcases h with rfl | h
        · simp
        · rcases ih h with h | h
          · exact Or.inl (by simp [h])
          · exact Or.inr h

/-- What stands in a map after one value was changed stood there before or is the changed one. -/
theorem mem_values_modify {m : OrderedMap κ ν} {k : κ} {f : ν → ν} {w : ν}
    (h : w ∈ (m.modify k f).values) : w ∈ m.values ∨ ∃ v, w = f v := by
  unfold modify at h
  split at h
  · exact Or.inl h
  · next v _ => exact (mem_values_insert h).imp_right fun hw => ⟨v, hw⟩

/-- What is found stands in the map under an equal key. -/
theorem mem_entries_of_get? {m : OrderedMap κ ν} {k : κ} {v : ν} (h : m.get? k = some v) :
    ∃ a, (a == k) = true ∧ (a, v) ∈ m.entries := by
  obtain ⟨l⟩ := m
  simp only [get?] at h ⊢
  induction l with
  | nil => cases h
  | cons e rest ih =>
      obtain ⟨b, u⟩ := e
      by_cases hb : b == k
      · simp only [find, hb, if_true, Option.some.injEq] at h
        exact ⟨b, hb, by simp [h]⟩
      · simp only [find, hb, Bool.false_eq_true, if_false] at h
        obtain ⟨a, ha, hmem⟩ := ih h
        exact ⟨a, ha, List.mem_cons_of_mem _ hmem⟩

theorem mem_values_of_get? {m : OrderedMap κ ν} {k : κ} {v : ν} (h : m.get? k = some v) :
    v ∈ m.values := by
  obtain ⟨a, -, hmem⟩ := mem_entries_of_get? h
  exact List.mem_map_of_mem (f := Prod.snd) hmem

/-- Without repeated keys, every entry is the one that is found under its key. -/
theorem get?_of_mem [ReflBEq κ] {m : OrderedMap κ ν} (hm : m.Distinct) {k : κ} {v : ν}
    (h : (k, v) ∈ m.entries) : m.get? k = some v := by
  obtain ⟨l⟩ := m
  simp only [Distinct, keys, get?] at hm h ⊢
  induction l with
  | nil => cases h
  | cons e rest ih =>
      obtain ⟨a, w⟩ := e
      simp only [List.map_cons, List.pairwise_cons] at hm
      rcases List.mem_cons.mp h with hhead | hrest
      · cases hhead
        rw [find, if_pos BEq.rfl]
      · have hother : (a == k) = false := hm.1 k (List.mem_map_of_mem hrest)
        rw [find, hother]
        exact ih hm.2 hrest

/-- An entry after a write is one from before, or holds the value written under its key. -/
theorem mem_put [ReflBEq κ] {e : κ × ν} {k : κ} {v : ν} {l : List (κ × ν)} (h : e ∈ put k v l) :
    e ∈ l ∨ (e.1 == k) = true ∧ e.2 = v := by
  induction l with
  | nil =>
      rw [put, List.mem_singleton] at h
      subst h
      exact Or.inr ⟨BEq.rfl, rfl⟩
  | cons e' rest ih =>
      obtain ⟨a, w⟩ := e'
      by_cases ha : a == k
      · rw [put, if_pos ha] at h
        rcases List.mem_cons.mp h with rfl | h
        · exact Or.inr ⟨ha, rfl⟩
        · exact Or.inl (List.mem_cons_of_mem _ h)
      · rw [put, if_neg ha] at h
        rcases List.mem_cons.mp h with rfl | h
        · exact Or.inl List.mem_cons_self
        · exact (ih h).imp_left (List.mem_cons_of_mem _)

theorem mem_of_mem_drop {k : κ} {e : κ × ν} {l : List (κ × ν)} (h : e ∈ drop k l) : e ∈ l := by
  induction l with
  | nil => simp [drop] at h
  | cons e' rest ih =>
      obtain ⟨b, w⟩ := e'
      by_cases hb : b == k
      · simp only [drop, hb, if_true] at h
        exact List.mem_cons_of_mem _ h
      · simp only [drop, hb, Bool.false_eq_true, if_false, List.mem_cons] at h
        rcases h with rfl | h
        · simp
        · exact List.mem_cons_of_mem _ (ih h)

theorem Distinct.empty : (∅ : OrderedMap κ ν).Distinct := List.Pairwise.nil

theorem Distinct.insert {m : OrderedMap κ ν} (h : m.Distinct) (k : κ) (v : ν) :
    (m.insert k v).Distinct := by
  obtain ⟨l⟩ := m
  simp only [Distinct, keys, OrderedMap.insert] at h ⊢
  induction l with
  | nil => simp [put]
  | cons e rest ih =>
      obtain ⟨a, b⟩ := e
      simp only [List.map_cons, List.pairwise_cons] at h
      by_cases ha : a == k
      · simpa only [put, ha, if_true, List.map_cons, List.pairwise_cons] using h
      · simp only [put, ha, Bool.false_eq_true, if_false, List.map_cons, List.pairwise_cons]
        refine ⟨fun c hc => ?_, ih h.2⟩
        rcases mem_keys_put hc with hc | rfl
        · exact h.1 c hc
        · simpa using ha

theorem Distinct.erase {m : OrderedMap κ ν} (h : m.Distinct) (k : κ) : (m.erase k).Distinct := by
  obtain ⟨l⟩ := m
  simp only [Distinct, keys, OrderedMap.erase] at h ⊢
  induction l with
  | nil => simp [drop]
  | cons e rest ih =>
      obtain ⟨a, b⟩ := e
      simp only [List.map_cons, List.pairwise_cons, List.mem_map] at h
      by_cases ha : a == k
      · simpa only [drop, ha, if_true] using h.2
      · simp only [drop, ha, Bool.false_eq_true, if_false, List.map_cons, List.pairwise_cons, List.mem_map]
        refine ⟨?_, ih h.2⟩
        rintro c ⟨e, he, rfl⟩
        exact h.1 e.1 ⟨e, mem_of_mem_drop he, rfl⟩

/-! ### Rebuilding a map from its entries -/

/-- A new key goes to the end. -/
theorem put_of_new {k : κ} {v : ν} {l : List (κ × ν)} (h : ∀ e ∈ l, (e.1 == k) = false) :
    put k v l = l ++ [(k, v)] := by
  induction l with
  | nil => rfl
  | cons e rest ih =>
      obtain ⟨a, b⟩ := e
      have ha : (a == k) = false := h (a, b) (by simp)
      simp [put, ha, ih fun e he => h e (by simp [he])]

/-- A value that is inserted under a new key stands behind the others. -/
theorem values_insert_of_new {m : OrderedMap κ ν} {k : κ} (h : m.get? k = none) (v : ν) :
    (m.insert k v).values = m.values ++ [v] := by
  obtain ⟨l⟩ := m
  simp only [values, OrderedMap.insert, get?] at h ⊢
  induction l with
  | nil => rfl
  | cons e rest ih =>
      obtain ⟨a, w⟩ := e
      by_cases ha : a == k
      · simp [find, ha] at h
      · have hrest : find k rest = none := by simpa [find, ha] using h
        simp [put, ha, ih hrest]

theorem foldl_insert_append (done rest : List (κ × ν))
    (h : (done ++ rest).Pairwise fun a b => (a.1 == b.1) = false) :
    rest.foldl (fun m e => m.insert e.1 e.2) (⟨done⟩ : OrderedMap κ ν) = ⟨done ++ rest⟩ := by
  induction rest generalizing done with
  | nil => simp
  | cons e rest ih =>
      have hnew : ∀ a ∈ done, (a.1 == e.1) = false := fun a ha =>
        (List.pairwise_append.1 h).2.2 a ha e (by simp)
      have step : (⟨done⟩ : OrderedMap κ ν).insert e.1 e.2 = ⟨done ++ [e]⟩ := by
        simp only [OrderedMap.insert, put_of_new hnew]
      rw [List.foldl_cons, step, ih (done ++ [e]) (by simpa using h)]
      simp

/-- **The entries of a map without repeated keys rebuild it.** -/
theorem foldl_insert_entries {m : OrderedMap κ ν} (h : m.Distinct) :
    m.entries.foldl (fun m e => m.insert e.1 e.2) (∅ : OrderedMap κ ν) = m :=
  foldl_insert_append [] m.entries (by simpa [Distinct, keys, List.pairwise_map] using h)

/-- Whatever is built around a map is rebuilt from the entries, if each of them is inserted there. -/
theorem foldl_entries {σ : Type} {m : OrderedMap κ ν} (hm : m.Distinct) (f : OrderedMap κ ν → σ)
    {add : σ → κ × ν → σ} (h : ∀ m e, add (f m) e = f (m.insert e.1 e.2)) :
    m.entries.foldl add (f ∅) = f m := by
  rw [List.foldl_hom f h, foldl_insert_entries hm]

theorem Distinct.mapValues {m : OrderedMap κ ν} (h : m.Distinct) (f : ν → μ) :
    (m.mapValues f).Distinct := by
  rwa [Distinct, keys_mapValues]

end EventLayer.OrderedMap
