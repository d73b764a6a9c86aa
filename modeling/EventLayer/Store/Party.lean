/-
**The party's inventory.**

A party holds gold and counts of things, each within its limit: counts run from zero to 99, gold
from zero to 99,999,999.  A thing whose count falls to zero leaves the inventory, and comes back at
its end.  Amounts are mostly whole, but a variable can hold a fraction, and that much is given then.

Main definitions:

* `ItemKey`, `ItemKey.ofEntry?` — what a count is kept under;
* `Party.count`, `Party.gain` — counts of things;
* `Party.gainGold` — gold;
* `Party.toJson`, `Party.read` — a party as saved.

Main results:

* `Party.count_gain_self` — what a count becomes;
* `Party.gold_gainGold_le` — gold stays within its limit.
-/
import EventLayer.Command
import EventLayer.Json.Number

set_option autoImplicit false
set_option relaxedAutoImplicit false

namespace EventLayer

/-- What a count of things is kept under. -/
structure ItemKey where
  kind : String
  id : Int
deriving Repr, DecidableEq

/-- The kind of a thing, told from the fields that its entry carries. -/
def ItemKey.kindOf (entry : List (String × Json)) : ItemKind :=
  if (OrderedMap.find "wtypeId" entry).isSome then .weapon
  else if (OrderedMap.find "atypeId" entry).isSome then .armor
  else .item

/-- The key of a database entry; a blank value or no object has none. -/
def ItemKey.ofEntry? (entry : Json) : Except Fault (Option ItemKey) :=
  match entry with
  | .obj [] => .ok none
  | .obj fields => do
    let id ← ((OrderedMap.find "id" fields).getD (.int 0)).toInt
    return some ⟨(kindOf fields).word, id⟩
  | _ => .ok none

/-- What the party holds. -/
structure Party where
  members : List Json := []
  gold : Json.Number := .int 0
  items : OrderedMap ItemKey Json.Number := ∅
deriving Inhabited

namespace Party

open Json (Number)

/-- The greatest count of a thing. -/
def maxCount : Int := 99

/-- The greatest amount of gold. -/
def maxGold : Int := 99999999

/-- A number brought between zero and a limit; the undefined number becomes zero. -/
def clamp (limit : Int) (n : Number) : Number := (Number.int 0).larger (n.smaller (.int limit))

theorem clamp_int (limit n : Int) : clamp limit (.int n) = .int (max 0 (min n limit)) := by
  rw [clamp, Number.smaller_int, Number.larger_int]

theorem not_below_clamp {limit : Int} (h : 0 ≤ limit) (n : Number) :
    (Number.int limit).below (clamp limit n) = false := by
  have h0 : (Number.int limit).below (.int 0) = false := by simp; omega
  have hl : (Number.int limit).below (.int limit) = false := by simp
  simp only [clamp, Number.larger, Number.smaller]
  split
  · split <;> assumption
  · split <;> simp_all

/-- How many of a thing the party holds. -/
def count (p : Party) (key : ItemKey) : Number := p.items.getD key (.int 0)

/-- Whether a count can grow no more. -/
def isFull (n : Number) : Bool := !n.below (.int maxCount)

/-- Put a count in place of the one that the party holds. -/
def hold (p : Party) (key : ItemKey) (n : Number) : Party :=
  { p with items := if n.toJson.truthy then p.items.insert key n else p.items.erase key }

/-- Give the party a number of a thing, or take it for a negative one. -/
def gain (p : Party) (key : ItemKey) (amount : Number) : Except Fault Party :=
  return p.hold key (clamp maxCount (← (p.count key).plus amount))

/-- Give the party gold, or take it for a negative amount. -/
def gainGold (p : Party) (amount : Number) : Except Fault Party :=
  return { p with gold := clamp maxGold (← p.gold.plus amount) }

theorem gold_gainGold_le {p q : Party} {amount : Number} (h : p.gainGold amount = .ok q) :
    (Number.int maxGold).below q.gold = false := by
  unfold gainGold at h
  cases hs : p.gold.plus amount with
  | error e =>
    rw [hs] at h
    cases h
  | ok n =>
    rw [hs] at h
    cases h
    exact not_below_clamp (by decide) n

theorem count_hold_self {p : Party} (h : p.items.Distinct) {key : ItemKey} {n : Number}
    (hn : n.toJson.truthy = true ∨ n = .int 0) : (p.hold key n).count key = n := by
  rcases hn with hn | rfl
  · simp [hold, count, OrderedMap.getD, hn]
  · simp [hold, count, OrderedMap.getD, Number.toJson, OrderedMap.get?_erase_self h]

theorem count_gain_self {p : Party} (h : p.items.Distinct) {key : ItemKey} {m n : Int}
    (hp : p.count key = .int m) :
    ∃ q, p.gain key (.int n) = .ok q ∧ q.count key = .int (max 0 (min (m + n) maxCount)) := by
  refine ⟨_, by rw [gain, hp, Number.plus_int]; rfl, ?_⟩
  rw [clamp_int]
  refine count_hold_self h ?_
  simp [Number.toJson]
  omega

/-- How many of the thing with a database entry the party holds; none for what has no key. -/
def countOf (p : Party) (entry : Json) : Except Fault Number := do
  match ← ItemKey.ofEntry? entry with
  | some key => return p.count key
  | none => return .int 0

/-- Give the party a number of the thing with a database entry. -/
def gainOf (p : Party) (entry amount : Json) : Except Fault Party := do
  match ← ItemKey.ofEntry? entry with
  | some key => p.gain key (← amount.number)
  | none => return p

/-! ### Saving -/

/-- A party as saved. -/
def toJson (p : Party) : Json :=
  .obj [("members", .arr p.members), ("gold", p.gold.toJson),
    ("items", .arr (p.items.entries.map fun e =>
      .arr [.str e.1.kind, .int e.1.id, e.2.toJson]))]

/-- The count that a row of a saved party records; other values record none. -/
def readRow (items : OrderedMap ItemKey Number) (row : Json) :
    Except Fault (OrderedMap ItemKey Number) :=
  match row with
  | .arr [kind, id, n] => do
    let n ← n.toInt
    let key : ItemKey := ⟨kind.text, ← id.toInt⟩
    return items.insert key (.int n)
  | _ => .ok items

/-- A party from a save; what is missing is blank. -/
def read (data : Json) : Except Fault Party := do
  let data := data.orElse (.obj [])
  let members ← ((← data.fieldD "members" .null).orElse (.arr [])).elements
  let gold ← ((← data.fieldD "gold" (.int 0)).orElse (.int 0)).toInt
  let rows ← ((← data.fieldD "items" .null).orElse (.arr [])).elements
  let items ← rows.foldlM readRow ∅
  return { members, gold := .int gold, items }

end Party

end EventLayer
