/-
**Finite maps that remember the order of insertion.**

Every table of a running game is written out in the order in which its keys first appeared: a key
that is set again keeps its place, and a key that was taken out and comes back goes to the end.
This module holds that one container; JSON objects, item counts, self stores and origins are all
built from it.

Keys are compared by `==`.  Where the comparison is coarser than equality (a JSON `1` and `1.0` name
the same slot) the key first written stays in place.

Main definitions:

* `OrderedMap` — a list of entries, read from the front;
* `OrderedMap.get?`, `OrderedMap.insert`, `OrderedMap.erase` — the three operations;
* `OrderedMap.ofList` — the map that a sequence of insertions leaves.

Main results:

* `OrderedMap.get?_insert` — reading after writing, for every key;
* `OrderedMap.get?_erase_self` — an erased key of a map without repeated keys is gone.
-/

set_option autoImplicit false
set_option relaxedAutoImplicit false

namespace EventLayer

/-- A finite map as the list of its entries in insertion order. -/
structure OrderedMap (κ : Type) (ν : Type) where
  entries : List (κ × ν) := []
deriving Repr, DecidableEq

namespace OrderedMap

variable {κ ν : Type}

instance : Inhabited (OrderedMap κ ν) := ⟨{}⟩

instance : EmptyCollection (OrderedMap κ ν) := ⟨{}⟩

@[simp] theorem entries_empty : (∅ : OrderedMap κ ν).entries = [] := rfl

/-- The keys in insertion order. -/
def keys (m : OrderedMap κ ν) : List κ := m.entries.map (·.1)

/-- The values in insertion order of their keys. -/
def values (m : OrderedMap κ ν) : List ν := m.entries.map (·.2)

/-- The number of keys. -/
def size (m : OrderedMap κ ν) : Nat := m.entries.length

/-- Every value replaced by its image; the keys stay where they are. -/
def mapValues {μ : Type} (f : ν → μ) (m : OrderedMap κ ν) : OrderedMap κ μ :=
  ⟨m.entries.map fun e => (e.1, f e.2)⟩

variable [BEq κ]

/-- The value in the first entry whose key equals `k`. -/
def find (k : κ) : List (κ × ν) → Option ν
  | [] => none
  | (k', v) :: rest => if k' == k then some v else find k rest

/-- Overwrite the first entry whose key equals `k`, or add an entry at the end. -/
def put (k : κ) (v : ν) : List (κ × ν) → List (κ × ν)
  | [] => [(k, v)]
  | (k', v') :: rest => if k' == k then (k', v) :: rest else (k', v') :: put k v rest

/-- Drop the first entry whose key equals `k`. -/
def drop (k : κ) : List (κ × ν) → List (κ × ν)
  | [] => []
  | (k', v') :: rest => if k' == k then rest else (k', v') :: drop k rest

/-- The value stored under a key. -/
def get? (m : OrderedMap κ ν) (k : κ) : Option ν := find k m.entries

/-- The value stored under a key, or `d` where there is none. -/
def getD (m : OrderedMap κ ν) (k : κ) (d : ν) : ν := (m.get? k).getD d

/-- Whether a key is present. -/
def contains (m : OrderedMap κ ν) (k : κ) : Bool := (m.get? k).isSome

/-- Store a value: an old key keeps its place, a new one goes to the end. -/
def insert (m : OrderedMap κ ν) (k : κ) (v : ν) : OrderedMap κ ν := ⟨put k v m.entries⟩

/-- Take a key out. -/
def erase (m : OrderedMap κ ν) (k : κ) : OrderedMap κ ν := ⟨drop k m.entries⟩

/-- Change the value stored under a key, if there is one. -/
def modify (m : OrderedMap κ ν) (k : κ) (f : ν → ν) : OrderedMap κ ν :=
  match m.get? k with
  | none => m
  | some v => m.insert k (f v)

/-- The map left by inserting the entries of a list from front to back. -/
def ofList (l : List (κ × ν)) : OrderedMap κ ν := l.foldl (fun m e => m.insert e.1 e.2) ∅

/-! ### Reading after writing -/

@[simp] theorem get?_empty (k : κ) : (∅ : OrderedMap κ ν).get? k = none := rfl

theorem find_put [EquivBEq κ] (k k' : κ) (v : ν) (l : List (κ × ν)) :
    find k' (put k v l) = if k == k' then some v else find k' l := by
  induction l with
  | nil => simp [put, find]
  | cons e rest ih =>
    obtain ⟨a, b⟩ := e
    by_cases h : a == k
    · simp only [put, h, if_true, find]
      rw [BEq.congr_left h]
      split <;> rfl
    · by_cases h' : a == k'
      · have : (k == k') = false := by
          rw [Bool.eq_false_iff]
          intro hk
          exact h (BEq.trans h' (BEq.symm hk))
        simp [put, find, h, h', this]
      · simp [put, find, h, h', ih]

/-- A read after a write sees the write exactly at the keys equal to the one written. -/
theorem get?_insert [EquivBEq κ] (m : OrderedMap κ ν) (k k' : κ) (v : ν) :
    (m.insert k v).get? k' = if k == k' then some v else m.get? k' := find_put k k' v m.entries

@[simp] theorem get?_insert_self [EquivBEq κ] (m : OrderedMap κ ν) (k : κ) (v : ν) :
    (m.insert k v).get? k = some v := by simp [get?_insert]

theorem find_drop_of_ne [EquivBEq κ] {k k' : κ} (h : (k == k') = false) (l : List (κ × ν)) :
    find k' (drop k l) = find k' l := by
  induction l with
  | nil => rfl
  | cons e rest ih =>
    obtain ⟨a, b⟩ := e
    by_cases ha : a == k
    · have : (a == k') = false := by rw [BEq.congr_left ha]; exact h
      simp [drop, ha, find, this]
    · simp [drop, ha, find, ih]

/-- Erasing a key leaves every other key as it was. -/
theorem get?_erase_of_ne [EquivBEq κ] (m : OrderedMap κ ν) {k k' : κ} (h : (k == k') = false) :
    (m.erase k).get? k' = m.get? k' := find_drop_of_ne h m.entries

/-! ### Keys without repetition -/

/-- No two entries have equal keys. -/
def Distinct (m : OrderedMap κ ν) : Prop := m.keys.Pairwise fun a b => (a == b) = false

theorem find_eq_none {k : κ} {l : List (κ × ν)} (h : ∀ e ∈ l, (e.1 == k) = false) :
    find k l = none := by
  induction l with
  | nil => rfl
  | cons e rest ih =>
    obtain ⟨a, b⟩ := e
    have ha := h (a, b) (by simp)
    simp only at ha
    simp [find, ha, ih fun e he => h e (by simp [he])]

/-- In a map without repeated keys an erased key is gone. -/
theorem get?_erase_self [EquivBEq κ] {m : OrderedMap κ ν} (hm : m.Distinct) (k : κ) :
    (m.erase k).get? k = none := by
  obtain ⟨l⟩ := m
  simp only [Distinct, keys] at hm
  simp only [get?, erase]
  induction l with
  | nil => rfl
  | cons e rest ih =>
    obtain ⟨a, b⟩ := e
    simp only [List.map_cons, List.pairwise_cons, List.mem_map] at hm
    by_cases ha : a == k
    · simp only [drop, ha, if_true]
      refine find_eq_none fun e he => ?_
      have := hm.1 e.1 ⟨e, he, rfl⟩
      rw [← Bool.not_eq_true] at this ⊢
      exact fun h => this (BEq.trans ha (BEq.symm h))
    · simp [drop, ha, find, ih hm.2]

end OrderedMap

end EventLayer
