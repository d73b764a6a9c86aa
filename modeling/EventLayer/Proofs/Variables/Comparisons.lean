/-
**Comparing variables that hold whole numbers.**

A variable is compared at three places.  A conditional branch compares whole numbers exactly.  A page and a
branch of a route turn the variable into a floating-point number first, and the page its bound as well.  This
fails where the number is too large, and then the map cannot choose its pages, or the frame of the route
fails.  Elsewhere rounding keeps the order.  It can make two numbers equal, so that a page counts for a
variable just below its bound, but a number below `2 ^ 53` is told apart from every other.

Main definitions:

* `Double.TooLarge` — a whole number is rounded to an infinity;
* `Relation.Between` — what a relation says of two members of an order;
* `MapEvent.OnlyCompares` — only comparisons of whole numbers can fail when an event chooses its page.

Main results:

* `Double.nearest_lt_of_lt` — **a number below `2 ^ 53` is told apart from every other**;
* `Play.test_variable_int`, `RouteCondition.holds_variableIs_int`,
  `PageCondition.holds_variableAtLeast_int` — the three comparisons;
* `Session.compares_ints` — **where the comparisons agree, and where they fail**.
-/
import EventLayer.Proofs.Map.Asking
import EventLayer.Proofs.Route.Failing
import EventLayer.Proofs.Variables.Arithmetic

set_option autoImplicit false
set_option relaxedAutoImplicit false

namespace EventLayer

variable {v k n : Int}

/-! ### Rounded whole numbers -/

namespace Double

/-- A whole number is rounded to an infinity. -/
def TooLarge (n : Int) : Prop := overflow ≤ n.natAbs

instance (n : Int) : Decidable (TooLarge n) := inferInstanceAs (Decidable (_ ≤ _))

theorem tooLarge_iff : TooLarge n ↔ (overflow : Rat) ≤ |(n : Rat)| := by
  rw [TooLarge, ← Int.cast_abs, ← Nat.cast_natAbs, Nat.cast_le]

theorem not_tooLarge_of_lt (h : n.natAbs < 2 ^ 53) : ¬TooLarge n := by
  have hlt := natCast_lt_overflow h.le
  rw [Nat.cast_lt] at hlt
  exact not_le.2 hlt

/-- A number that is too large cannot be rounded. -/
theorem toDouble_of_tooLarge (h : TooLarge n) : (Json.int n).toDouble = .error .tooLarge := by
  change ofIntChecked n = _
  unfold ofIntChecked ofInt
  rw [ofRat_eq_infinite_iff.2 ⟨tooLarge_iff.1 h, rfl⟩]

/-- Every other can be. -/
theorem toDouble_of_not_tooLarge (h : ¬TooLarge n) :
    ∃ x, (Json.int n).toDouble = .ok x ∧ x.toRat? = some (nearest n) := by
  rw [tooLarge_iff, not_le] at h
  refine ⟨_, ?_, toRat?_ofRat h⟩
  change ofIntChecked n = _
  unfold ofIntChecked ofInt
  split
  · next hinfinite => exact absurd (ofRat_eq_infinite_iff.1 hinfinite).1 (not_le.2 h)
  · rfl

/-- **A number below `2 ^ 53` is told apart from every other.** -/
theorem nearest_lt_of_lt (h : v < k) (hsmall : v.natAbs < 2 ^ 53 ∨ k.natAbs < 2 ^ 53) :
    nearest v < nearest k := by
  rcases hsmall with hsmall | hsmall
  · have hv := nearest_intCast (n := v) (by omega)
    have hnext := nearest_intCast (n := v + 1) (by omega)
    have hle : nearest (v + 1 : Int) ≤ nearest k := nearest_mono (Int.cast_le.2 h)
    rw [hnext] at hle
    rw [hv]
    exact (Int.cast_lt.2 (Int.lt_succ v)).trans_le hle
  · have hk := nearest_intCast (n := k) (by omega)
    have hbefore := nearest_intCast (n := k - 1) (by omega)
    have hle : nearest v ≤ nearest (k - 1 : Int) := nearest_mono (Int.cast_le.2 (by omega))
    rw [hbefore] at hle
    rw [hk]
    exact hle.trans_lt (Int.cast_lt.2 (by omega))

end Double

open Double

/-! ### Relations -/

namespace Relation

variable {α β : Type} [LinearOrder α] [LinearOrder β]

/-- What a relation says of two members of an order. -/
def Between (r : Relation) (a b : α) : Prop :=
  match r with
  | .equal => a = b
  | .unequal => a ≠ b
  | .atLeast => b ≤ a
  | .atMost => a ≤ b
  | .above => b < a
  | .below => a < b

instance (r : Relation) (a b : α) : Decidable (r.Between a b) :=
  match r with
  | .equal => inferInstanceAs (Decidable (a = b))
  | .unequal => inferInstanceAs (Decidable (a ≠ b))
  | .atLeast => inferInstanceAs (Decidable (b ≤ a))
  | .atMost => inferInstanceAs (Decidable (a ≤ b))
  | .above => inferInstanceAs (Decidable (b < a))
  | .below => inferInstanceAs (Decidable (a < b))

theorem allows_eq_decide (r : Relation) (a b : α) :
    r.allows (some (if a < b then .lt else if a = b then .eq else .gt)) = decide (r.Between a b) := by
  rcases lt_trichotomy a b with h | rfl | h
  · rw [if_pos h]
    cases r <;> simp [allows, Between, h, h.le, h.ne, h.not_ge, h.not_gt]
  · rw [if_neg (lt_irrefl a), if_pos rfl]
    cases r <;> simp [allows, Between]
  · rw [if_neg h.not_gt, if_neg h.ne']
    cases r <;> simp [allows, Between, h, h.le, h.ne', h.not_ge, h.not_gt]

/-- It says the same of others that are in the same order. -/
theorem between_congr {a b : α} {a' b' : β} (hlt : a < b ↔ a' < b') (hgt : b < a ↔ b' < a') (r : Relation) :
    r.Between a b ↔ r.Between a' b' := by
  have hle := not_congr hgt
  have hge := not_congr hlt
  rw [not_lt, not_lt] at hle hge
  have heq : a = b ↔ a' = b' := by rw [le_antisymm_iff, le_antisymm_iff, hle, hge]
  cases r with
  | equal => exact heq
  | unequal => exact not_congr heq
  | atLeast => exact hge
  | atMost => exact hle
  | above => exact hgt
  | below => exact hlt

/-- Whole numbers are compared exactly. -/
theorem holds_int (r : Relation) (v k : Int) : r.holds (.int v) (.int k) = .ok (decide (r.Between v k)) := by
  have horder : (Json.int v).order (.int k) = .ok (Double.compare? (.finite v) (.finite k)) := by
    unfold Json.order
    rfl
  have hallows : r.allows (Double.compare? (.finite v) (.finite k)) = decide (r.Between v k) := by
    rw [compare?_of_toRat? rfl rfl, allows_eq_decide]
    exact decide_eq_decide.2 (between_congr Int.cast_lt Int.cast_lt r)
  have hsame : (Json.int v).same (.int k) = decide (v = k) := by
    unfold Json.same
    rfl
  by_cases hequal : r = .equal
  · rw [hequal]
    exact congrArg Except.ok hsame
  by_cases hunequal : r = .unequal
  · rw [hunequal, holds, hsame, ← decide_not]
    rfl
  rw [holds.eq_3 _ _ _ hequal hunequal, horder, ← hallows]
  rfl

theorem holdsOn_of_toRat? {x y : Double} {a b : Rat} (hx : x.toRat? = some a) (hy : y.toRat? = some b)
    (r : Relation) : r.holdsOn x y = decide (r.Between a b) := by
  rw [holdsOn, compare?_of_toRat? hx hy, allows_eq_decide]

end Relation

theorem Double.nearest_between_iff (hsmall : v.natAbs < 2 ^ 53 ∨ k.natAbs < 2 ^ 53) (r : Relation) :
    r.Between (nearest v) (nearest k) ↔ r.Between v k := by
  refine Relation.between_congr ⟨fun h => ?_, fun h => nearest_lt_of_lt h hsmall⟩
    ⟨fun h => ?_, fun h => nearest_lt_of_lt h hsmall.symm⟩ r
  · exact not_le.1 fun hle => not_le.2 h (nearest_mono (Int.cast_le.2 hle))
  · exact not_le.1 fun hle => not_le.2 h (nearest_mono (Int.cast_le.2 hle))

/-! ### The three comparisons -/

namespace PageCondition

/-- A page rounds both numbers. -/
theorem reaches_int (v k : Int) : reaches (.int v) (.int k) =
    if TooLarge v ∨ TooLarge k then .error .tooLarge else .ok (decide (nearest k ≤ nearest v)) := by
  unfold reaches
  by_cases hv : TooLarge v
  · rw [toDouble_of_tooLarge hv, if_pos (Or.inl hv)]
    rfl
  by_cases hk : TooLarge k
  · obtain ⟨x, hx, -⟩ := toDouble_of_not_tooLarge hv
    rw [hx, toDouble_of_tooLarge hk, if_pos (Or.inr hk)]
    rfl
  obtain ⟨x, hx, hxr⟩ := toDouble_of_not_tooLarge hv
  obtain ⟨y, hy, hyr⟩ := toDouble_of_not_tooLarge hk
  have hless : x.less y = decide (nearest v < nearest k) := Relation.holdsOn_of_toRat? hxr hyr .below
  rw [hx, hy, if_neg (not_or.2 ⟨hv, hk⟩)]
  change Except.ok (!x.less y) = _
  rw [hless, ← decide_not]
  exact congrArg Except.ok (decide_eq_decide.2 not_lt)

/-- Only two numbers from `2 ^ 53` on can be rounded to the same. -/
theorem nearest_le_iff (v k : Int) :
    nearest k ≤ nearest v ↔ k ≤ v ∨ (2 ^ 53 ≤ v.natAbs ∧ 2 ^ 53 ≤ k.natAbs ∧ nearest v = nearest k) := by
  constructor
  · intro h
    refine or_iff_not_imp_left.2 fun hlt => ?_
    have hlarge : ¬(v.natAbs < 2 ^ 53 ∨ k.natAbs < 2 ^ 53) := fun hsmall =>
      not_le.2 (nearest_lt_of_lt (not_le.1 hlt) hsmall) h
    rw [not_or, not_lt, not_lt] at hlarge
    exact ⟨hlarge.1, hlarge.2, le_antisymm (nearest_mono (Int.cast_le.2 (not_le.1 hlt).le)) h⟩
  · rintro (hle | ⟨-, -, hsame⟩)
    · exact nearest_mono (Int.cast_le.2 hle)
    · exact hsame.ge

variable {db : Database} {stores : Stores} {scope : Scope} {id : Int}

/-- **What a page says of a variable.** -/
theorem holds_variableAtLeast_int (db : Database) (hv : stores.variableFor scope (some id) = .int v)
    (k : Int) : (variableAtLeast id (.int k)).holds db stores scope =
      if TooLarge v ∨ TooLarge k then .error .tooLarge
      else .ok (decide (k ≤ v ∨ (2 ^ 53 ≤ v.natAbs ∧ 2 ^ 53 ≤ k.natAbs ∧ nearest v = nearest k))) := by
  rw [holds, hv, reaches_int, decide_eq_decide.2 (nearest_le_iff v k)]

theorem exists_variableAtLeast_iff (hv : stores.variableFor scope (some id) = .int v) :
    (∃ b, (variableAtLeast id (.int k)).holds db stores scope = .ok b) ↔ ¬TooLarge v ∧ ¬TooLarge k := by
  rw [holds_variableAtLeast_int db hv, ← not_or]
  split
  · next hlarge => exact iff_of_false (fun ⟨b, h⟩ => by cases h) fun h => h hlarge
  · next hfits => exact iff_of_true ⟨_, rfl⟩ hfits

end PageCondition

namespace RouteCondition

variable {stores : Stores} {scope : Scope} {id : Nat} {x : Double} {q : Rat}

/-- A branch of a route rounds the variable. -/
theorem inStores_int (hv : stores.variableFor scope (some id) = .int v) (hx : x.toRat? = some q)
    (r : Relation) : (variableIs id r x).inStores stores scope =
      if TooLarge v then .error .tooLarge else .ok (decide (r.Between (nearest v) q)) := by
  rw [inStores, hv]
  split
  · next hlarge =>
      rw [toDouble_of_tooLarge hlarge]
      rfl
  · next hfits =>
      obtain ⟨y, hy, hyr⟩ := toDouble_of_not_tooLarge hfits
      rw [hy, ← Relation.holdsOn_of_toRat? hyr hx]
      rfl

/-- **What a branch of a route says of a variable.** -/
theorem holds_variableIs_int {s : Session} {who : CharacterId}
    (hv : s.stores.variableFor (s.scopeOf who) (some id) = .int v) (hx : x.toRat? = some (k : Rat))
    (hsmall : k.natAbs < 2 ^ 53) (r : Relation) : (variableIs id r x).holds who s =
      if TooLarge v then .error .tooLarge s else .ok (decide (r.Between v k)) s := by
  have hrelates := nearest_between_iff (v := v) (Or.inr hsmall) r
  rw [nearest_intCast hsmall.le] at hrelates
  have hreads : (variableIs id r x).ReadsStores := trivial
  rw [holds_eq_inStores hreads, inStores_int hv hx, decide_eq_decide.2 hrelates]
  split <;> rfl

/-- **The conditions that fail.** -/
theorem failsFor_iff {c : RouteCondition} : c.FailsFor stores scope ↔
    ∃ id r x v, c = variableIs id r x ∧ stores.variableFor scope (some id) = .int v ∧ TooLarge v := by
  unfold FailsFor
  constructor
  · rintro ⟨e, h⟩
    cases c with
    | variableIs id r x =>
        rw [inStores] at h
        cases hvalue : stores.variableFor scope (some id) with
        | int v =>
            refine ⟨id, r, x, v, rfl, hvalue, not_not.1 fun hfits => ?_⟩
            obtain ⟨y, hy, -⟩ := toDouble_of_not_tooLarge hfits
            rw [hvalue, hy] at h
            cases h
        | null | bool | float | arr | obj =>
            rw [hvalue] at h
            cases h
        | str text =>
            rw [hvalue, Json.toDouble] at h
            split at h <;> cases h
    | const | switchIs | selfSwitchIs | playerWithin | chance | facing => cases h
  · rintro ⟨id, r, x, v, rfl, hv, hlarge⟩
    refine ⟨.tooLarge, ?_⟩
    rw [inStores, hv, toDouble_of_tooLarge hlarge]
    rfl

end RouteCondition

/-! ### Choosing pages and following routes -/

/-- Of all that the choice of an event's page comes to, only comparisons of whole numbers can fail. -/
def MapEvent.OnlyCompares (e : MapEvent) (db : Database) (stores : Stores) : Prop :=
  e.CanShow db stores ∧ ∀ c, e.Asks db stores c → (∃ b, c.holds db stores e.scope = .ok b) ∨
    ∃ id v k, c = .variableAtLeast id (.int k) ∧ stores.variableFor e.scope (some id) = .int v

/-- Then the choice fails exactly if a number that it comes to is too large. -/
theorem MapEvent.OnlyCompares.answered_iff {e : MapEvent} {db : Database} {stores : Stores}
    (h : e.OnlyCompares db stores) :
    ((∀ c, e.Asks db stores c → ∃ b, c.holds db stores e.scope = .ok b) ∧ e.CanShow db stores) ↔
      ∀ id v k, e.Asks db stores (.variableAtLeast id (.int k)) →
        stores.variableFor e.scope (some id) = .int v → ¬TooLarge v ∧ ¬TooLarge k := by
  rw [and_iff_left h.1]
  constructor
  · intro hanswered id v k hasks hv
    exact (PageCondition.exists_variableAtLeast_iff hv).1 (hanswered _ hasks)
  · intro hfits c hasks
    rcases h.2 c hasks with hholds | ⟨id, v, k, rfl, hv⟩
    · exact hholds
    · exact (PageCondition.exists_variableAtLeast_iff hv).2 (hfits id v k hasks hv)

namespace Play

open Session

theorem test_variable_int {s : Session} {slot : SlotRef} {o : Operand} (d : Nat)
    (hv : s.variableValue slot = .int v) (ho : operand o s = .ok (.int k) s) (r : Relation) :
    test d (.variable slot r o) s = .ok (decide (r.Between v k)) s := by
  have hholds : (liftM (r.holds (s.variableValue slot) (.int k)) : Play Bool) s =
      .ok (decide (r.Between v k)) s := by
    rw [hv, Relation.holds_int]
    rfl
  exact (bind_of_ok ho).trans hholds

/-- **When the pages of a map can be chosen.** -/
theorem returns_refreshMap_int {s : Session}
    (h : ∀ e ∈ s.map.eventList, e.OnlyCompares s.game.database s.stores) : refreshMap.Returns s
      (∀ e ∈ s.map.eventList, ∀ id v k, e.Asks s.game.database s.stores (.variableAtLeast id (.int k)) →
        s.stores.variableFor e.scope (some id) = .int v → ¬TooLarge v ∧ ¬TooLarge k)
      fun _ t => t.ShowsDuePages :=
  (returns_refreshMap s).iff (forall₂_congr fun e he => (h e he).answered_iff)

/-- **When a frame of a route comes to an end.** -/
theorem finishes_walk_int {s : Session} {who : CharacterId}
    (h : ∀ e, .move (.faulty e) ∉ (s.character who).activeRoute.steps) : (walk who).Finishes s
      ((s.character who).waitCount ≤ 0 → ∀ n ≤ (s.character who).activeRoute.length, ∀ t,
        Play.Passes who (s.character who).activeRoute n s t → ∀ id r x v,
          t.asked? who (s.character who).activeRoute = some (.variableIs id r x) →
            t.stores.variableFor (t.scopeOf who) (some id) = .int v → ¬TooLarge v) := by
  have hbalks : ∀ t : Session, ¬t.Balks who (s.character who).activeRoute ↔ ∀ id r x v,
      t.asked? who (s.character who).activeRoute = some (.variableIs id r x) →
        t.stores.variableFor (t.scopeOf who) (some id) = .int v → ¬TooLarge v := by
    intro t
    constructor
    · exact fun hnot id r x v hasks hv hlarge =>
        hnot (Or.inr ⟨_, hasks, RouteCondition.failsFor_iff.2 ⟨id, r, x, v, rfl, hv, hlarge⟩⟩)
    · rintro hfits (⟨e, hfaulty⟩ | ⟨c, hasks, hfails⟩)
      · exact h e (List.mem_of_getElem? hfaulty)
      · obtain ⟨id, r, x, v, rfl, hv, hlarge⟩ := RouteCondition.failsFor_iff.1 hfails
        exact hfits id r x v hasks hv hlarge
  exact (finishes_walk who s).iff (forall_congr' fun _ => forall₂_congr fun n _ =>
    forall₂_congr fun t _ => hbalks t)

end Play

namespace Session

open Play

/-- **Where the comparisons agree, and where they fail.**  A conditional branch compares whole numbers
exactly.  So does a branch of a route, if its operand is below `2 ^ 53` and the variable is not too large.  A
page takes two numbers from `2 ^ 53` on for the same if they are rounded to the same.  Choosing the pages of
a map and following a route fail exactly where they come to a number that is too large. -/
theorem compares_ints (s : Session) :
    (∀ d slot r o v k, s.variableValue slot = .int v → operand o s = .ok (.int k) s →
      test d (.variable slot r o) s = .ok (decide (r.Between v k)) s) ∧
    (∀ who id r x v k, s.stores.variableFor (s.scopeOf who) (some (id : Nat)) = .int v →
      Double.toRat? x = some ((k : Int) : Rat) → k.natAbs < 2 ^ 53 →
        (RouteCondition.variableIs id r x).holds who s =
          if TooLarge v then .error .tooLarge s else .ok (decide (r.Between v k)) s) ∧
    (∀ scope id v k, s.stores.variableFor scope (some id) = .int v →
      (PageCondition.variableAtLeast id (.int k)).holds s.game.database s.stores scope =
        if TooLarge v ∨ TooLarge k then .error .tooLarge
        else .ok (decide (k ≤ v ∨ (2 ^ 53 ≤ v.natAbs ∧ 2 ^ 53 ≤ k.natAbs ∧ nearest v = nearest k)))) ∧
    ((∀ e ∈ s.map.eventList, e.OnlyCompares s.game.database s.stores) → refreshMap.Returns s
      (∀ e ∈ s.map.eventList, ∀ id v k, e.Asks s.game.database s.stores (.variableAtLeast id (.int k)) →
        s.stores.variableFor e.scope (some id) = .int v → ¬TooLarge v ∧ ¬TooLarge k)
      fun _ t => t.ShowsDuePages) ∧
    (∀ who, (∀ e, .move (.faulty e) ∉ (s.character who).activeRoute.steps) → (walk who).Finishes s
      ((s.character who).waitCount ≤ 0 → ∀ n ≤ (s.character who).activeRoute.length, ∀ t,
        Play.Passes who (s.character who).activeRoute n s t → ∀ id r x v,
          t.asked? who (s.character who).activeRoute = some (.variableIs id r x) →
            t.stores.variableFor (t.scopeOf who) (some id) = .int v → ¬TooLarge v)) :=
  ⟨fun d _ r _ _ _ hv ho => test_variable_int d hv ho r,
    fun _ _ r _ _ _ hv hx hsmall => RouteCondition.holds_variableIs_int hv hx hsmall r,
    fun _ _ _ k hv => PageCondition.holds_variableAtLeast_int _ hv k,
    returns_refreshMap_int, fun _ => finishes_walk_int⟩

/-! ### A threshold -/

/-- A game with one map.  Its first event shows a page from a value of the first variable on, and the route
of its second event asks whether that variable is above zero. -/
def thresholdGame (bound : Int) : Game where
  mapFile := fun _ =>
    let asks : Json := .obj [("variableValid", true), ("variableId", 1), ("variableValue", .int bound)]
    let script (line : String) : Json := .obj [("code", 45), ("parameters", .arr [.str line])]
    let route : Json := .obj [("list", .arr [script "rbIf(v[1] > 0)", script "rbEnd()", .obj [("code", 0)]])]
    .ok (some (.obj [("events", .arr [.null,
      .obj [("id", 1), ("pages", .arr [.obj [("conditions", asks)]])],
      .obj [("id", 2), ("pages", .arr [.obj [("moveType", 3), ("moveRoute", route)]])]])]))

/-- The game on its map, where the first variable holds a whole number. -/
def gated (bound v : Int) : Session :=
  ((setupMap 1).after (Session.begin (thresholdGame bound) {})).setVariable 1 (.int v)

/-- The condition in the route of the second event. -/
def aboveZero : RouteCondition := .variableIs 1 .above (.finite 0)

/-- The page that the first event shows after the pages were chosen anew. -/
def thresholdPage (s : Session) : Option Int := ((refreshMap.after s).event? 1).map (·.pageIndex)

/-- The first variable is not an event's own. -/
theorem variableFor_gated (bound v : Int) (h : (gated bound v).stores.variableTable.isSelf 1 = false)
    (scope : Scope) : (gated bound v).stores.variableFor scope (some 1) = .int v := by
  have hvalue : (gated bound v).variableValue (some 1) = .int v := by
    rw [gated, variableValue_setVariable, if_pos ⟨by decide, rfl⟩]
  exact (ScopedTable.value_of_not_self h ..).trans hvalue

theorem exists_refresh_gated : ∀ e ∈ (gated 3 5).map.eventList,
    ∃ e', (e.refresh (gated 3 5).game.database (gated 3 5).stores).result = .ok e' := by
  have hrefresh : ∀ e ∈ (gated 3 5).map.eventList,
      (e.refresh (gated 3 5).game.database (gated 3 5).stores).result.isOk = true := by
    decide +kernel
  intro e he
  have hok := hrefresh e he
  cases hresult : (e.refresh (gated 3 5).game.database (gated 3 5).stores).result with
  | ok e' => exact ⟨e', rfl⟩
  | error fault =>
      rw [hresult] at hok
      cases hok

theorem onlyCompares_gated : ∀ e ∈ (gated 3 5).map.eventList,
    e.OnlyCompares (gated 3 5).game.database (gated 3 5).stores := by
  intro e he
  obtain ⟨hanswered, hshow⟩ := MapEvent.exists_refresh_iff.1 (exists_refresh_gated e he)
  exact ⟨hshow, fun c hc => Or.inl (hanswered c hc)⟩

/-- The route of the second event has no step of the wrong shape. -/
theorem not_faulty_gated (e : Fault) :
    .move (.faulty e) ∉ ((gated 3 (2 ^ 1024 : Nat)).character (.event 2)).activeRoute.steps := by
  have hscripts : ((gated 3 (2 ^ 1024 : Nat)).character (.event 2)).activeRoute.steps.all
      (fun step => match step with
        | .move _ => false
        | _ => true) = true := by decide +kernel
  exact fun he => absurd (List.all_eq_true.1 hscripts _ he) Bool.false_ne_true

/-- With small numbers all comparisons agree and the pages can be chosen; a number that is too large stops
the frame of the route. -/
theorem compares_gated :
    test 0 (.variable (some 1) .atLeast (.constant (.int 3))) (gated 3 5) = .ok true (gated 3 5) ∧
    aboveZero.holds (.event 2) (gated 3 5) = .ok true (gated 3 5) ∧
    (PageCondition.variableAtLeast 1 (.int 3)).holds (gated 3 5).game.database (gated 3 5).stores ⟨1, 1⟩ =
      .ok true ∧
    (∃ a t, refreshMap (gated 3 5) = .ok a t ∧ t.ShowsDuePages) ∧
    ∃ e t, walk (.event 2) (gated 3 (2 ^ 1024 : Nat)) = .error e t := by
  obtain ⟨hbranch, hroute, hpage, hrefresh, -⟩ := compares_ints (gated 3 5)
  have hvalue := variableFor_gated 3 5 (by decide +kernel)
  have hlarge := variableFor_gated 3 (2 ^ 1024 : Nat) (by decide +kernel)
  refine ⟨?_, ?_, ?_, ?_, ?_⟩
  · rw [hbranch 0 (some 1) .atLeast (.constant (.int 3)) 5 3 (hvalue _) rfl]
    exact congrArg (EStateM.Result.ok · _) (by decide)
  · refine (hroute (.event 2) 1 .above (.finite 0) 5 0 (hvalue _) rfl (by decide)).trans ?_
    rw [if_neg (not_tooLarge_of_lt (by decide))]
    exact congrArg (EStateM.Result.ok · _) (by decide)
  · refine (hpage ⟨1, 1⟩ 1 _ 3 (hvalue _)).trans (if_neg ?_)
    exact not_or.2 ⟨not_tooLarge_of_lt (by decide), not_tooLarge_of_lt (by decide)⟩
  · refine (hrefresh onlyCompares_gated).ok fun e he => (onlyCompares_gated e he).answered_iff.1 ?_
    exact MapEvent.exists_refresh_iff.1 (exists_refresh_gated e he)
  · have hwalk := (compares_ints (gated 3 (2 ^ 1024 : Nat))).2.2.2.2 (.event 2) not_faulty_gated
    refine hwalk.error fun h => ?_
    exact h (by decide +kernel) 0 (Nat.zero_le _) _ (.zero _) 1 .above (.finite 0) _ (by decide +kernel)
      (hlarge _) (by decide +kernel)

/-- A page counts for a variable just below its bound, where a conditional branch tells them apart.  If the
variable is too large, neither the pages can be chosen nor the route be followed. -/
theorem not_compares_gated :
    test 0 (.variable (some 1) .atLeast (.constant (.int 9007199254740993)))
        (gated 9007199254740993 9007199254740992) = .ok false (gated 9007199254740993 9007199254740992) ∧
    thresholdPage (gated 9007199254740993 9007199254740992) = some 0 ∧
    refreshMap.succeeds (gated 3 (2 ^ 1024 : Nat)) = false ∧
    (walk (.event 2)).succeeds (gated 3 (2 ^ 1024 : Nat)) = false := by
  refine ⟨?_, by decide +kernel, by decide +kernel, by decide +kernel⟩
  have hvalue := variableFor_gated 9007199254740993 9007199254740992 (by decide +kernel)
  rw [test_variable_int (k := 9007199254740993) 0 (hvalue _) rfl .atLeast]
  exact congrArg (EStateM.Result.ok · _) (by decide)

end Session

end EventLayer
