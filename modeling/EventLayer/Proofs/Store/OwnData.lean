/-
**What an event reads.**

The conditions of an event's pages read switches and variables for the event by name, those of its move
route read them in a scope that is pushed for the event.  Both come to the same: each looks at the slot that
belongs to the event, or at the one that all share.  So whatever command lists are running, whomever they
are linked to and whatever scopes are pushed, two sessions that agree on the shared slots, on the party and
on what the event keeps for itself make no difference to its conditions.

Main definitions:

* `Session.AgreeFor` — sessions that agree on what an entity may read;
* `RouteCondition.ReadsStores` — the conditions on switches, self switches and variables;
* `Slot`, `ScopedTable.slotOf` — where a switch or variable is kept for an entity.

Main results:

* `PageCondition.holds_of_agree`, `RouteCondition.holds_of_agree` — **conditions under agreement**;
* `RouteCondition.holds_eq_inOwnScope` — a route reads in its own scope;
* `Session.readsAlike` — **pages and routes look at the same slot**;
* `MapEvent.reads_own_data` — **an event reads its own data, whoever is running**.
-/
import EventLayer.Map.Paging
import EventLayer.Proofs.Preserves
import EventLayer.Session.Walking

set_option autoImplicit false
set_option relaxedAutoImplicit false

namespace EventLayer

/-! ### Agreement -/

/-- Tables that agree on the numbers that are self-scoped and on what all entities share. -/
structure ScopedTable.Agree (t t' : ScopedTable) : Prop where
  isSelf : ∀ id, t.isSelf id = t'.isSelf id
  shared : ∀ id, t.values.get? id = t'.values.get? id

/-- Self stores that agree on what one entity keeps. -/
def SelfStore.AgreeFor (scope : Scope) (s s' : SelfStore) : Prop :=
  ∀ property, s.slots.get? (scope.key property) = s'.slots.get? (scope.key property)

/-- Sessions of one game that agree on what an entity may read: the shared switches and variables, those of
its own, and the party. -/
structure Session.AgreeFor (scope : Scope) (s t : Session) : Prop where
  database : s.game.database = t.game.database
  switchTable : s.stores.switchTable.Agree t.stores.switchTable
  variableTable : s.stores.variableTable.Agree t.stores.variableTable
  selfSwitches : s.stores.selfSwitches.AgreeFor scope t.stores.selfSwitches
  selfVariables : s.stores.selfVariables.AgreeFor scope t.stores.selfVariables
  members : s.stores.party.members = t.stores.party.members
  counts : ∀ key, s.stores.party.count key = t.stores.party.count key

section Agreement

variable {scope : Scope} {s t : Session}

theorem SelfStore.AgreeFor.value {s s' : SelfStore} (h : s.AgreeFor scope s') (property d : Json) :
    s.value (scope.key property) d = s'.value (scope.key property) d := by
  rw [SelfStore.value, SelfStore.value, OrderedMap.getD, OrderedMap.getD, h property]

theorem ScopedTable.Agree.value {t t' : ScopedTable} {s s' : SelfStore} (ht : t.Agree t')
    (hs : s.AgreeFor scope s') (slot : SlotRef) (d : Json) :
    t.value s scope slot d = t'.value s' scope slot d := by
  cases slot with
  | none => rfl
  | some id =>
      rw [ScopedTable.value, ScopedTable.value, ht.isSelf, hs.value, OrderedMap.getD, OrderedMap.getD,
        ht.shared]

namespace Session.AgreeFor

theorem switchFor (h : s.AgreeFor scope t) (slot : SlotRef) :
    s.stores.switchFor scope slot = t.stores.switchFor scope slot :=
  congrArg Json.truthy (h.switchTable.value h.selfSwitches slot _)

theorem variableFor (h : s.AgreeFor scope t) (slot : SlotRef) :
    s.stores.variableFor scope slot = t.stores.variableFor scope slot :=
  h.variableTable.value h.selfVariables slot _

theorem isOn (h : s.AgreeFor scope t) (channel : Json) :
    s.stores.selfSwitches.isOn (scope.key channel) = t.stores.selfSwitches.isOn (scope.key channel) :=
  congrArg Json.truthy (h.selfSwitches.value channel _)

theorem countOf (h : s.AgreeFor scope t) (entry : Json) :
    s.stores.party.countOf entry = t.stores.party.countOf entry := by
  unfold Party.countOf
  simp only [h.counts]

end Session.AgreeFor

/-! ### Conditions of pages -/

/-- **A condition of a page** holds for an entity in both sessions or in neither. -/
theorem PageCondition.holds_of_agree (h : s.AgreeFor scope t) (c : PageCondition) :
    c.holds s.game.database s.stores scope = c.holds t.game.database t.stores scope := by
  cases c with
  | switchOn id => exact congrArg Except.ok (h.switchFor _)
  | variableAtLeast id bound => rw [holds, holds, h.variableFor]
  | selfSwitchOn channel =>
      rw [holds, holds, SelfKey.checked]
      split
      · exact congrArg Except.ok (h.isOn channel)
      · rfl
  | holdsItem id =>
      rw [holds, holds, h.database]
      cases t.game.database.item? .item (.int id) with
      | none => rfl
      | some entry => exact congrArg (· >>= _) (h.countOf entry)
  | hasMember id => rw [holds, holds, h.members]
  | faulty e => rfl

theorem PageCondition.allHold_of_agree (h : s.AgreeFor scope t) (conditions : List PageCondition) :
    allHold s.game.database s.stores scope conditions = allHold t.game.database t.stores scope conditions := by
  induction conditions with
  | nil => rfl
  | cons c rest ih => rw [allHold, allHold, holds_of_agree h, ih]

theorem MapEvent.firstCounting_of_agree (h : s.AgreeFor scope t) (pages : List (Page × Nat)) :
    firstCounting s.game.database s.stores scope pages = firstCounting t.game.database t.stores scope pages := by
  induction pages with
  | nil => rfl
  | cons p rest ih =>
      rw [firstCounting, firstCounting, Page.counts, Page.counts, PageCondition.allHold_of_agree h, ih]

end Agreement

/-! ### Conditions of routes -/

/-- The conditions on switches, self switches and variables. -/
def RouteCondition.ReadsStores : RouteCondition → Prop
  | .switchIs _ _ | .selfSwitchIs _ _ | .variableIs _ _ _ => True
  | .const _ | .playerWithin _ _ | .chance _ | .facing _ => False

namespace RouteCondition

variable {s t : Session} {who who' : CharacterId}

/-- What such a condition comes to for an entity. -/
def inStores (s : Stores) (scope : Scope) : RouteCondition → Except Fault Bool
  | .switchIs id expected => .ok (s.switchFor scope (some id) == expected)
  | .selfSwitchIs channel expected => .ok (s.selfSwitches.isOn (scope.key (.str channel)) == expected)
  | .variableIs id relation operand => orFalse do
      let v ← (s.variableFor scope (some id)).toDouble
      return relation.holdsOn v operand
  | _ => .ok false

/-- Such a condition looks at the stores only, and changes nothing. -/
theorem holds_eq_inStores {c : RouteCondition} (h : c.ReadsStores) (who : CharacterId) (s : Session) :
    c.holds who s = (liftM (c.inStores s.stores (s.scopeOf who)) : Play Bool) s := by
  cases c with
  | switchIs id expected => rfl
  | selfSwitchIs channel expected => rfl
  | variableIs id relation operand => rfl
  | const _ => cases h
  | playerWithin _ _ => cases h
  | chance _ => cases h
  | facing _ => cases h

theorem inStores_of_agree {scope : Scope} (h : s.AgreeFor scope t) (c : RouteCondition) :
    c.inStores s.stores scope = c.inStores t.stores scope := by
  cases c with
  | switchIs id expected => rw [inStores, inStores, h.switchFor]
  | selfSwitchIs channel expected => rw [inStores, inStores, h.isOn]
  | variableIs id relation operand => rw [inStores, inStores, h.variableFor]
  | const _ | playerWithin _ _ | chance _ | facing _ => rfl

/-- **A condition of a route** on the stores comes to the same in both sessions, and leaves each as it is. -/
theorem holds_of_agree (h : s.AgreeFor (s.scopeOf who) t) (hscope : t.scopeOf who' = s.scopeOf who)
    {c : RouteCondition} (hc : c.ReadsStores) : ∃ r : Except Fault Bool,
      c.holds who s = (liftM r : Play Bool) s ∧ c.holds who' t = (liftM r : Play Bool) t := by
  refine ⟨c.inStores s.stores (s.scopeOf who), holds_eq_inStores hc who s, ?_⟩
  rw [holds_eq_inStores hc, hscope, ← inStores_of_agree h]

/-! ### The scope of a route -/

/-- A condition whose switch or variable is looked at in a scope that is pushed for the character. -/
def inOwnScope (c : RouteCondition) (who : CharacterId) : Play Bool := do
  let scope := (← get).scopeOf who
  match c with
  | .switchIs id expected => Play.inScope scope (do return (← get).switchValue (some id) == expected)
  | .variableIs id relation operand =>
    let value ← Play.inScope scope (do return (← get).variableValue (some id))
    orFalse do
      let v ← value.toDouble
      return relation.holdsOn v operand
  | c => c.holds who

/-- **A route looks at switches and variables in a scope of its own.** -/
theorem holds_eq_inOwnScope (c : RouteCondition) (who : CharacterId) (s : Session) :
    c.holds who s = c.inOwnScope who s := by
  cases c <;> rfl

end RouteCondition

/-! ### Slots -/

/-- Where a switch or variable is kept: where all share it, or where an entity keeps it for itself. -/
inductive Slot where
  | shared (id : Int)
  | own (key : SelfKey)

namespace ScopedTable

/-- The slot of a number for an entity. -/
def slotOf (t : ScopedTable) (scope : Scope) (id : Int) : Slot :=
  if t.isSelf id then .own (scope.key (.int id)) else .shared id

/-- What stands at a slot, or a default. -/
def at? (t : ScopedTable) (store : SelfStore) : Slot → Option Json
  | .shared id => t.values.get? id
  | .own key => store.slots.get? key

/-- A number is looked up at its slot. -/
theorem value_eq_at? (t : ScopedTable) (store : SelfStore) (scope : Scope) (id : Int) (d : Json) :
    t.value store scope (some id) d = (t.at? store (t.slotOf scope id)).getD d := by
  unfold value slotOf
  dsimp only
  split <;> rfl

end ScopedTable

namespace Stores

/-- What stands at the slot of a switch. -/
def switchAt (s : Stores) (slot : Slot) : Bool :=
  ((s.switchTable.at? s.selfSwitches slot).getD (.bool false)).truthy

/-- What stands at the slot of a variable. -/
def variableAt (s : Stores) (slot : Slot) : Json := (s.variableTable.at? s.selfVariables slot).getD (.int 0)

theorem switchFor_eq_switchAt (s : Stores) (scope : Scope) (id : Int) :
    s.switchFor scope (some id) = s.switchAt (s.switchTable.slotOf scope id) :=
  congrArg Json.truthy (s.switchTable.value_eq_at? s.selfSwitches scope id _)

theorem variableFor_eq_variableAt (s : Stores) (scope : Scope) (id : Int) :
    s.variableFor scope (some id) = s.variableAt (s.variableTable.slotOf scope id) :=
  s.variableTable.value_eq_at? s.selfVariables scope id _

end Stores

namespace Session

variable {s : Session} {e : MapEvent}

/-- An event on the map reads in its own scope. -/
theorem scopeOf_event (he : s.event? e.id = some e) : s.scopeOf (.event e.id) = e.scope := by
  rw [scopeOf, mapOf, he]
  rfl

/-- Pages and routes of an event look a number up at one slot: for a switch and for a variable, the condition
of a page, and what is read in the scope that a route pushes. -/
structure ReadsAlike (s : Session) (e : MapEvent) (n : Int) : Prop where
  pageSwitch : (PageCondition.switchOn n).holds s.game.database s.stores e.scope =
    .ok (s.stores.switchAt (s.stores.switchTable.slotOf e.scope n))
  routeSwitch : Play.inScope (s.scopeOf (.event e.id)) (do return (← get).switchValue (some n)) s =
    .ok (s.stores.switchAt (s.stores.switchTable.slotOf e.scope n)) s
  pageVariable : ∀ bound, (PageCondition.variableAtLeast n bound).holds s.game.database s.stores e.scope =
    PageCondition.reaches (s.stores.variableAt (s.stores.variableTable.slotOf e.scope n)) bound
  routeVariable : Play.inScope (s.scopeOf (.event e.id)) (do return (← get).variableValue (some n)) s =
    .ok (s.stores.variableAt (s.stores.variableTable.slotOf e.scope n)) s

/-- **Pages and routes look at the same slot**, whatever scopes are pushed. -/
theorem readsAlike (he : s.event? e.id = some e) (n : Int) : s.ReadsAlike e n where
  pageSwitch := congrArg Except.ok (s.stores.switchFor_eq_switchAt e.scope n)
  routeSwitch := by
    rw [scopeOf_event he]
    exact congrArg (EStateM.Result.ok · s) (s.stores.switchFor_eq_switchAt e.scope n)
  pageVariable := fun bound =>
    congrArg (PageCondition.reaches · bound) (s.stores.variableFor_eq_variableAt e.scope n)
  routeVariable := by
    rw [scopeOf_event he]
    exact congrArg (EStateM.Result.ok · s) (s.stores.variableFor_eq_variableAt e.scope n)

end Session

/-! ### An event and its data -/

/-- **An event reads its own data, whoever is running.**  In two sessions that agree on what an event may
read, all conditions of its pages come to the same, and so do the conditions of its move route on switches,
self switches and variables, which are read in a scope pushed for the event; and pages and routes look each
number up at the same slot. -/
theorem MapEvent.reads_own_data {s t : Session} {e e' : MapEvent} (he : s.event? e.id = some e)
    (he' : t.event? e'.id = some e') (hscope : e'.scope = e.scope) (hagree : s.AgreeFor e.scope t) :
    (∀ c : PageCondition, c.holds t.game.database t.stores e'.scope =
      c.holds s.game.database s.stores e.scope) ∧
    (e'.pages = e.pages → e'.properPage t.game.database t.stores = e.properPage s.game.database s.stores) ∧
    (∀ c : RouteCondition, c.ReadsStores → ∃ r : Except Fault Bool,
      c.holds (.event e.id) s = (liftM r : Play Bool) s ∧
        c.holds (.event e'.id) t = (liftM r : Play Bool) t) ∧
    (∀ c : RouteCondition, c.holds (.event e.id) s = c.inOwnScope (.event e.id) s) ∧
    ∀ n, s.ReadsAlike e n := by
  have hfor : s.AgreeFor (s.scopeOf (.event e.id)) t := by rwa [Session.scopeOf_event he]
  have hroute : t.scopeOf (.event e'.id) = s.scopeOf (.event e.id) := by
    rw [Session.scopeOf_event he, Session.scopeOf_event he', hscope]
  refine ⟨fun c => ?_, fun hpages => ?_, fun c hc => RouteCondition.holds_of_agree hfor hroute hc,
    fun c => c.holds_eq_inOwnScope _ s, Session.readsAlike he⟩
  · rw [hscope]
    exact (PageCondition.holds_of_agree hagree c).symm
  · rw [properPage, properPage, hpages, hscope]
    exact (firstCounting_of_agree hagree _).symm

/-- An event that nothing has happened to. -/
def bystander : MapEvent where
  id := 1
  map := 1

/-- A map with this event, for which self switch A is off. -/
def quietMap : Session where
  map.id := 1
  map.events := ⟨[(1, bystander)]⟩

/-- The same while a command list is running that is linked elsewhere, a scope is pushed, and self switch A of
another event is on. -/
def busyMap : Session :=
  { quietMap with
    stores.selfSwitches := ⟨⟨[(SelfKey.of (.int 1) 2 (.str "A"), .bool true)]⟩⟩
    interpreter.root := { map := 1, event := 2, link := { map := .int 3, event := 4 } }
    scopes := [⟨.int 1, 2⟩]
    active := some 0 }

theorem agreeFor_busyMap : quietMap.AgreeFor bystander.scope busyMap where
  database := rfl
  switchTable := ⟨fun _ => rfl, fun _ => rfl⟩
  variableTable := ⟨fun _ => rfl, fun _ => rfl⟩
  selfSwitches := fun _ => rfl
  selfVariables := fun _ => rfl
  members := rfl
  counts := fun _ => rfl

/-- Self switch A of the event is off for its route, whoever is running. -/
theorem MapEvent.reads_own_data_busyMap :
    quietMap.event? bystander.id = some bystander ∧ busyMap.event? bystander.id = some bystander ∧
      quietMap.AgreeFor bystander.scope busyMap ∧
      (RouteCondition.selfSwitchIs "A" false).holds (.event bystander.id) busyMap = .ok true busyMap := by
  have hquiet : quietMap.event? bystander.id = some bystander := rfl
  have hbusy : busyMap.event? bystander.id = some bystander := rfl
  have hoff : (RouteCondition.selfSwitchIs "A" false).holds (.event bystander.id) quietMap =
      .ok true quietMap := rfl
  obtain ⟨-, -, hroute, -⟩ := MapEvent.reads_own_data hquiet hbusy rfl agreeFor_busyMap
  obtain ⟨r, hr, hr'⟩ := hroute (.selfSwitchIs "A" false) trivial
  have hsame := hr.symm.trans hoff
  cases r with
  | error e => cases hsame
  | ok on =>
      cases hsame
      exact ⟨hquiet, hbusy, agreeFor_busyMap, hr'⟩

end EventLayer
