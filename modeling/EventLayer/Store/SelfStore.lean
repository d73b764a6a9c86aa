/-
**What events keep for themselves.**

A self switch or self variable belongs to an entity on a map: it is kept under the numbers of the
map and the entity and a property, which is a letter or the number of a self-scoped switch or
variable.  Keys are compared by value, so that `1` and `1.0` name the same slot while `1` and the
text `"1"` do not.

Main definitions:

* `SelfKey` — a map, an entity and a property;
* `SelfStore`, `SelfStore.value`, `SelfStore.put` — the store;
* `SelfStore.toJson`, `SelfStore.read` — a store as saved.

Main results:

* `SelfStore.value_put` — reading after writing, for every key.
-/
import EventLayer.Json

set_option autoImplicit false
set_option relaxedAutoImplicit false

namespace EventLayer

/-- The address of a self switch or self variable. -/
structure SelfKey where
  map : Json
  entity : Json
  property : Json
deriving Repr

namespace SelfKey

/-- What a key is compared by. -/
def form (k : SelfKey) : Json.KeyForm × Json.KeyForm × Json.KeyForm :=
  (k.map.keyForm, k.entity.keyForm, k.property.keyForm)

instance : BEq SelfKey := ⟨fun a b => decide (a.form = b.form)⟩

theorem beq_iff (a b : SelfKey) : (a == b) = true ↔ a.form = b.form := by
  simp [BEq.beq]

instance : EquivBEq SelfKey where
  rfl := by simp [beq_iff]
  symm := by simp only [beq_iff]; exact Eq.symm
  trans := by simp only [beq_iff]; exact Eq.trans

/-- A key whose parts can all be keys, or a fault. -/
def checked (k : SelfKey) : Except Fault SelfKey :=
  if k.map.isKey && k.entity.isKey && k.property.isKey then .ok k else .error .wrongType

/-- The key that a list of three values stands for. -/
def ofList : List Json → Except Fault SelfKey
  | [map, entity, property] => checked ⟨map, entity, property⟩
  | _ => .error .wrongType

/-- A key as saved. -/
def toJson (k : SelfKey) : Json := .arr [k.map, k.entity, k.property]

end SelfKey

/-- A property of an entity on a map. -/
def SelfKey.of (map : Json) (entity : Int) (property : Json) : SelfKey :=
  ⟨map, .int entity, property⟩

/-- The self switches or self variables of all entities. -/
structure SelfStore where
  slots : OrderedMap SelfKey Json := ∅
deriving Inhabited

namespace SelfStore

/-- The value kept under a key, or a default. -/
def value (s : SelfStore) (k : SelfKey) (d : Json) : Json := s.slots.getD k d

/-- Keep a value under a key. -/
def put (s : SelfStore) (k : SelfKey) (v : Json) : SelfStore := ⟨s.slots.insert k v⟩

theorem value_put (s : SelfStore) (k k' : SelfKey) (v d : Json) :
    (s.put k v).value k' d = if k == k' then v else s.value k' d := by
  simp only [value, put, OrderedMap.getD, OrderedMap.get?_insert]
  split <;> rfl

/-- Whether the switch under a key is on. -/
def isOn (s : SelfStore) (k : SelfKey) : Bool := (s.value k (.bool false)).truthy

/-- A store as saved. -/
def toJson (s : SelfStore) : Json :=
  .arr (s.slots.entries.map fun e => .arr [e.1.toJson, e.2])

/-- The slot that a row of a save records; other values record none. -/
def readRow (s : SelfStore) (row : Json) : Except Fault SelfStore :=
  match row with
  | .arr [.arr [map, entity, property], v] => do
    return s.put (← SelfKey.checked ⟨map, entity, property⟩) v
  | _ => .ok s

/-- A store from a save. -/
def read (rows : Json) : Except Fault SelfStore := do
  (← (rows.orElse (.arr [])).elements).foldlM readRow {}

end SelfStore

end EventLayer
