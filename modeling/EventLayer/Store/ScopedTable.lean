/-
**Switches and variables.**

A table of switches or variables is indexed by numbers from one on.  Some numbers are self-scoped:
what stands there belongs to the entity for which the table is read or written, and is kept in a
self store.

Main definitions:

* `Scope` — the entity for which a table is read;
* `ScopedTable`, `ScopedTable.value`, `ScopedTable.put` — the table beside its self store;
* `ScopedTable.toJson`, `ScopedTable.isWritable`, `ScopedTable.read` — a table as saved.

Main results:

* `ScopedTable.put_nonpos` — nothing is written below number one;
* `ScopedTable.value_of_not_self` — a plain number is read alike for every entity.
-/
import EventLayer.Command
import EventLayer.Store.SelfStore

set_option autoImplicit false
set_option relaxedAutoImplicit false

namespace EventLayer

/-- The entity on a map for which self-scoped slots are read and written. -/
structure Scope where
  /-- The number of the map, as a link may have found it in the data. -/
  map : Json
  entity : Int
deriving Repr, Inhabited

/-- A property of the entity of a scope. -/
def Scope.key (s : Scope) (property : Json) : SelfKey := SelfKey.of s.map s.entity property

/-- A table of switches or variables. -/
structure ScopedTable where
  values : OrderedMap Int Json := ∅
  selfIds : List Int := []
deriving Inhabited

namespace ScopedTable

/-- Whether a number is self-scoped. -/
def isSelf (t : ScopedTable) (id : Int) : Bool := t.selfIds.contains id

/-- What stands at a slot for the entity of a scope, or a default. -/
def value (t : ScopedTable) (store : SelfStore) (scope : Scope) (slot : SlotRef) (d : Json) :
    Json :=
  match slot with
  | none => d
  | some id => if t.isSelf id then store.value (scope.key (.int id)) d else t.values.getD id d

/-- Write a value at a number, for the entity of a scope: the table and its self store afterwards.
-/
def put (t : ScopedTable) (store : SelfStore) (scope : Scope) (id : Int) (v : Json) :
    ScopedTable × SelfStore :=
  if id ≤ 0 then (t, store)
  else if t.isSelf id then (t, store.put (scope.key (.int id)) v)
  else ({ t with values := t.values.insert id v }, store)

@[simp] theorem put_nonpos {t : ScopedTable} {store : SelfStore} {scope : Scope} {id : Int}
    {v : Json} (h : id ≤ 0) : t.put store scope id v = (t, store) := by simp [put, h]

theorem value_of_not_self {t : ScopedTable} {id : Int} (h : t.isSelf id = false)
    (store store' : SelfStore) (scope scope' : Scope) (d : Json) :
    t.value store scope (some id) d = t.value store' scope' (some id) d := by
  simp [value, h]

/-- A table as saved; self-scoped slots are not part of it. -/
def toJson (t : ScopedTable) : Json :=
  .obj (t.values.entries.map fun e => (toString e.1, e.2))

/-- Whether the numbers of the slots are short enough for the texts of a save. -/
def isWritable (t : ScopedTable) : Bool := t.values.keys.all Text.isWritable

/-- The values of a table from a save; a key that is no number is passed over. -/
def readValues (data : Json) : Except Fault (OrderedMap Int Json) :=
  match data.orElse (.obj []) with
  | .obj fields =>
    .ok (fields.foldl (fun m e =>
      match Text.readInt? e.1 with
      | some id => m.insert id e.2
      | none => m) ∅)
  | _ => .error .notAnObject

/-- A table with the values of a save. -/
def read (t : ScopedTable) (data : Json) : Except Fault ScopedTable :=
  return { t with values := ← readValues data }

end ScopedTable

end EventLayer
