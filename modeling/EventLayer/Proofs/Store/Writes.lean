/-
**What the data commands write.**

Three commands write switches, variables and self switches.  The numbers that a command names are
those of its range, and the self switch that it names is that of its channel.  What stands at a
self-scoped number belongs to an entity: the innermost scope pushed by hand, if there is one, or else
the one that the command list acts for.  Self switches always belong to the one that the list acts
for.  Whatever else is stored stays as it is, also where the command fails halfway.

Main definitions:

* `Instruction.WritesData` — the instructions of these commands;
* `Instruction.NamesSwitch`, `Instruction.NamesVariable`, `Instruction.NamesChannel` — what they name;
* `Stores.ChangesOnly` — nothing else has changed, for any other entity.

Main results:

* `Stores.ChangesOnly.setSwitch`, `Stores.ChangesOnly.setVariable`,
  `Stores.ChangesOnly.setSelfSwitch` — a single write;
* `Play.step_changesOnly` — **a data command writes what it names, for the entity addressed**.
-/
import EventLayer.Proofs.Enduring
import EventLayer.Proofs.Reachable
import EventLayer.Proofs.Results
import EventLayer.Proofs.Stack

set_option autoImplicit false
set_option relaxedAutoImplicit false

namespace EventLayer

/-! ### What a command names -/

namespace Instruction

/-- The codes of the commands that write switches, variables and self switches. -/
def dataCodes : List Int := [121, 122, 123]

/-- The instruction of a command with one of these codes; parameters of the wrong shape make it one
that fails. -/
inductive WritesData : Instruction → Prop
  | read {code : Int} {params : Json} {i : Instruction} :
      code ∈ dataCodes → Instruction.read (some code) params = .ok i → WritesData i
  | faulty (e : Fault) : WritesData (.faulty e)

/-- Whether a command writes the switch with a number. -/
def NamesSwitch : Instruction → Int → Prop
  | .setSwitches first last _, id => first ≤ id ∧ id ≤ last
  | _, _ => False

/-- Whether a command writes the variable with a number. -/
def NamesVariable : Instruction → Int → Prop
  | .changeVariables first last _ _, id =>
      ∃ a b, rangeBound first = .ok a ∧ rangeBound last = .ok b ∧ a ≤ id ∧ id ≤ b
  | _, _ => False

/-- Whether a command writes the self switch of a channel. -/
def NamesChannel : Instruction → Json → Prop
  | .setSelfSwitch given, channel => ∃ on, given = .ok (channel, on)
  | _, _ => False

theorem readVariables_eq_ok {params : Json} {i : Instruction} (h : readVariables params = .ok i) :
    i = .idle ∨ ∃ first last op source, i = .changeVariables first last op source := by
  obtain ⟨first, -, h⟩ := Except.bind_eq_ok h
  obtain ⟨last, -, h⟩ := Except.bind_eq_ok h
  obtain ⟨op, -, h⟩ := Except.bind_eq_ok h
  obtain ⟨type, -, h⟩ := Except.bind_eq_ok h
  dsimp only at h
  split at h
  · obtain ⟨value, -, h⟩ := Except.bind_eq_ok h
    cases h
    exact Or.inr ⟨_, _, _, _, rfl⟩
  · obtain ⟨value, -, h⟩ := Except.bind_eq_ok h
    obtain ⟨slot, -, h⟩ := Except.bind_eq_ok h
    cases h
    exact Or.inr ⟨_, _, _, _, rfl⟩
  · obtain ⟨low, -, h⟩ := Except.bind_eq_ok h
    obtain ⟨high, -, h⟩ := Except.bind_eq_ok h
    cases h
    exact Or.inr ⟨_, _, _, _, rfl⟩
  · cases h
    exact Or.inl rfl

/-- What the instruction of a data command can be. -/
theorem WritesData.shape {i : Instruction} (h : i.WritesData) :
    (∃ first last on, i = .setSwitches first last on) ∨
      (∃ first last op source, i = .changeVariables first last op source) ∨
      (∃ given, i = .setSelfSwitch given) ∨ i = .idle ∨ ∃ e, i = .faulty e := by
  rcases h with ⟨hcode, hread⟩ | e
  · simp only [dataCodes, List.mem_cons, List.not_mem_nil, or_false] at hcode
    rcases hcode with rfl | rfl | rfl
    · obtain ⟨_, -, hread⟩ := Except.bind_eq_ok hread
      obtain ⟨first, -, hread⟩ := Except.bind_eq_ok hread
      obtain ⟨_, -, hread⟩ := Except.bind_eq_ok hread
      obtain ⟨last, -, hread⟩ := Except.bind_eq_ok hread
      obtain ⟨_, -, hread⟩ := Except.bind_eq_ok hread
      cases hread
      exact Or.inl ⟨_, _, _, rfl⟩
    · rcases readVariables_eq_ok hread with rfl | hvariables
      · exact Or.inr (Or.inr (Or.inr (Or.inl rfl)))
      · exact Or.inr (Or.inl hvariables)
    · cases hread
      exact Or.inr (Or.inr (Or.inl ⟨_, rfl⟩))
  · exact Or.inr (Or.inr (Or.inr (Or.inr ⟨e, rfl⟩)))

/-- A command of the data with one of these codes is a data command, whatever its parameters are. -/
theorem writesData_ofFields {fields : List (String × Json)} {c : Json} {code : Int}
    (hc : ((OrderedMap.find "code" fields).getD (.int 0)).asKey = .ok c)
    (hwhole : c.whole? = some code) (hcode : code ∈ dataCodes) :
    (ofFields fields).WritesData := by
  have hread : (((OrderedMap.find "code" fields).getD (.int 0)).asKey.bind fun c =>
      read c.whole? (PluginCall.paramsOf fields)) = read (some code) (PluginCall.paramsOf fields) := by
    rw [hc, ← hwhole]
    rfl
  unfold ofFields
  dsimp only
  rw [hread]
  split
  · next i hi => exact .read hcode hi
  · next e _ => exact .faulty e

end Instruction

theorem Play.mem_numbers {first last id : Int} (h : id ∈ numbers first last) :
    first ≤ id ∧ id ≤ last := by
  simp only [numbers, List.mem_map, List.mem_range] at h
  obtain ⟨i, hi, rfl⟩ := h
  omega

/-! ### What has changed -/

/-- From one state of the stores to another only what a command names has changed: plain numbers,
self-scoped ones for the entity of a scope, and self switches for an entity of their own. -/
structure Stores.ChangesOnly (i : Instruction) (scope own : Scope) (s t : Stores) : Prop where
  switchValues : ∀ id, t.switchTable.values.get? id ≠ s.switchTable.values.get? id →
    0 < id ∧ i.NamesSwitch id ∧ s.switchTable.isSelf id = false
  variableValues : ∀ id, t.variableTable.values.get? id ≠ s.variableTable.values.get? id →
    0 < id ∧ i.NamesVariable id ∧ s.variableTable.isSelf id = false
  selfSwitches : ∀ key, t.selfSwitches.slots.get? key ≠ s.selfSwitches.slots.get? key →
    (∃ id, 0 < id ∧ i.NamesSwitch id ∧ s.switchTable.isSelf id = true ∧
      key.form = (scope.key (.int id)).form) ∨
      ∃ channel, i.NamesChannel channel ∧ key.form = (own.key channel).form
  selfVariables : ∀ key, t.selfVariables.slots.get? key ≠ s.selfVariables.slots.get? key →
    ∃ id, 0 < id ∧ i.NamesVariable id ∧ s.variableTable.isSelf id = true ∧
      key.form = (scope.key (.int id)).form
  selfIds : t.switchTable.selfIds = s.switchTable.selfIds ∧
    t.variableTable.selfIds = s.variableTable.selfIds
  rest : t.origins = s.origins ∧ t.party = s.party ∧ t.behavior = s.behavior

/-- Where a read after a write differs from the read before it, the key is the one written. -/
theorem OrderedMap.eq_of_get?_insert_ne {κ ν : Type} [BEq κ] [EquivBEq κ] {m : OrderedMap κ ν}
    {k k' : κ} {v : ν} (h : (m.insert k v).get? k' ≠ m.get? k') : (k == k') = true := by
  by_cases hk : (k == k') = true
  · exact hk
  · rw [get?_insert, if_neg hk] at h
    exact absurd rfl h

/-! ### A write at a number -/

namespace ScopedTable

variable {t : ScopedTable} {store : SelfStore} {scope : Scope} {id : Int} {v : Json}

@[simp] theorem selfIds_put : (t.put store scope id v).1.selfIds = t.selfIds := by
  unfold put
  split
  · rfl
  · split
    · rfl
    · rfl

/-- The table itself is written at a plain number from one on. -/
theorem get?_put_ne {id' : Int}
    (h : (t.put store scope id v).1.values.get? id' ≠ t.values.get? id') :
    id' = id ∧ 0 < id ∧ t.isSelf id = false := by
  unfold put at h
  split at h
  · exact absurd rfl h
  · next hpos =>
      split at h
      · exact absurd rfl h
      · next hself =>
          have hid : id = id' := by simpa using OrderedMap.eq_of_get?_insert_ne h
          exact ⟨hid.symm, by omega, by simpa using hself⟩

/-- The self store is written at a self-scoped number, for the entity of the scope. -/
theorem get?_put_self_ne {key : SelfKey}
    (h : (t.put store scope id v).2.slots.get? key ≠ store.slots.get? key) :
    0 < id ∧ t.isSelf id = true ∧ key.form = (scope.key (.int id)).form := by
  unfold put at h
  split at h
  · exact absurd rfl h
  · next hpos =>
      split at h
      · next hself =>
          have hkey := OrderedMap.eq_of_get?_insert_ne h
          rw [SelfKey.beq_iff] at hkey
          exact ⟨by omega, hself, hkey.symm⟩
      · exact absurd rfl h

end ScopedTable

namespace Stores.ChangesOnly

variable {i : Instruction} {scope own : Scope} {s t : Stores} {id : Int}

theorem refl (i : Instruction) (scope own : Scope) (s : Stores) : s.ChangesOnly i scope own s := by
  constructor
  · intro id h
    exact absurd rfl h
  · intro id h
    exact absurd rfl h
  · intro key h
    exact absurd rfl h
  · intro key h
    exact absurd rfl h
  · exact ⟨rfl, rfl⟩
  · exact ⟨rfl, rfl, rfl⟩

/-- A switch that the command names is written for the entity of the scope. -/
theorem setSwitch (h : s.ChangesOnly i scope own t) (hid : i.NamesSwitch id) (on : Bool) :
    s.ChangesOnly i scope own (t.setSwitch scope id on) := by
  have hself : t.switchTable.isSelf id = s.switchTable.isSelf id := by
    simp only [ScopedTable.isSelf, h.selfIds.1]
  refine ⟨?_, h.variableValues, ?_, h.selfVariables, ?_, h.rest⟩
  · intro id' hid'
    by_cases hthen : t.switchTable.values.get? id' = s.switchTable.values.get? id'
    · rw [← hthen] at hid'
      obtain ⟨rfl, hpos, hplain⟩ := ScopedTable.get?_put_ne hid'
      exact ⟨hpos, hid, by rw [← hself, hplain]⟩
    · exact h.switchValues id' hthen
  · intro key hkey
    by_cases hthen : t.selfSwitches.slots.get? key = s.selfSwitches.slots.get? key
    · rw [← hthen] at hkey
      obtain ⟨hpos, hscoped, hform⟩ := ScopedTable.get?_put_self_ne hkey
      exact Or.inl ⟨id, hpos, hid, by rw [← hself, hscoped], hform⟩
    · exact h.selfSwitches key hthen
  · exact ⟨ScopedTable.selfIds_put.trans h.selfIds.1, h.selfIds.2⟩

/-- A variable that the command names is written for the entity of the scope. -/
theorem setVariable (h : s.ChangesOnly i scope own t) (hid : i.NamesVariable id) (v : Json) :
    s.ChangesOnly i scope own (t.setVariable scope id v) := by
  have hself : t.variableTable.isSelf id = s.variableTable.isSelf id := by
    simp only [ScopedTable.isSelf, h.selfIds.2]
  refine ⟨h.switchValues, ?_, h.selfSwitches, ?_, ?_, h.rest⟩
  · intro id' hid'
    by_cases hthen : t.variableTable.values.get? id' = s.variableTable.values.get? id'
    · rw [← hthen] at hid'
      obtain ⟨rfl, hpos, hplain⟩ := ScopedTable.get?_put_ne hid'
      exact ⟨hpos, hid, by rw [← hself, hplain]⟩
    · exact h.variableValues id' hthen
  · intro key hkey
    by_cases hthen : t.selfVariables.slots.get? key = s.selfVariables.slots.get? key
    · rw [← hthen] at hkey
      obtain ⟨hpos, hscoped, hform⟩ := ScopedTable.get?_put_self_ne hkey
      exact ⟨id, hpos, hid, by rw [← hself, hscoped], hform⟩
    · exact h.selfVariables key hthen
  · exact ⟨h.selfIds.1, ScopedTable.selfIds_put.trans h.selfIds.2⟩

/-- The self switch of a channel that the command names is written. -/
theorem setSelfSwitch {channel : Json} (h : s.ChangesOnly i scope own t)
    (hchannel : i.NamesChannel channel) (v : Json) :
    s.ChangesOnly i scope own
      { t with selfSwitches := t.selfSwitches.put (own.key channel) v } := by
  refine ⟨h.switchValues, h.variableValues, ?_, h.selfVariables, h.selfIds, h.rest⟩
  intro key hkey
  by_cases hthen : t.selfSwitches.slots.get? key = s.selfSwitches.slots.get? key
  · rw [← hthen] at hkey
    have hwrote := OrderedMap.eq_of_get?_insert_ne hkey
    rw [SelfKey.beq_iff] at hwrote
    exact Or.inr ⟨channel, hchannel, hwrote.symm⟩
  · exact h.selfSwitches key hthen

end Stores.ChangesOnly

/-! ### Carrying a data command out -/

namespace Play

open Session

/-- A session in which a command has written what it names only, and which goes on to address the
same entities: the scope's for switches and variables, an own one for self switches. -/
structure Writing (i : Instruction) (d : Nat) (scope own : Scope) (s : Stores) (t : Session) :
    Prop where
  stores : s.ChangesOnly i scope own t.stores
  scope_eq : t.currentScope = scope
  own_eq : t.resolve d = own

variable {i : Instruction} {d : Nat} {scope own : Scope} {s : Stores}

/-- Beginning a command, and ending it, changes nothing of what the list acts for. -/
theorem Writing.updateFrame {F : Frame → Frame}
    (hF : ∀ f, (F f).map = f.map ∧ (F f).event = f.event ∧ (F f).link = f.link) {t : Session}
    (h : Writing i d scope own s t) : Writing i d scope own s (t.updateFrame d F) :=
  ⟨h.stores, (currentScope_updateFrame hF t d).trans h.scope_eq,
    (resolve_updateFrame hF t d d).trans h.own_eq⟩

theorem Writing.setSwitches {ids : List Int} (hids : ∀ id ∈ ids, i.NamesSwitch id) (on : Bool)
    {t : Session} (h : Writing i d scope own s t) :
    Writing i d scope own s (ids.foldl (fun t id => t.setSwitch id on) t) := by
  induction ids generalizing t with
  | nil => exact h
  | cons id rest ih =>
      have hfirst : Writing i d scope own s (t.setSwitch id on) := by
        refine ⟨?_, h.scope_eq, h.own_eq⟩
        have hwritten : (t.setSwitch id on).stores = t.stores.setSwitch scope id on := by
          rw [← h.scope_eq]
          rfl
        rw [hwritten]
        exact h.stores.setSwitch (hids id (by simp)) on
      exact ih (fun id hid => hids id (by simp [hid])) hfirst

theorem preserves_changeEach_writing {op : VariableOp} {value : Json} {ids : List Int}
    (hids : ∀ id ∈ ids, i.NamesVariable id) :
    (changeEach op value ids).Preserves (Writing i d scope own s) := by
  induction ids with
  | nil => exact preserves_pure ()
  | cons id rest ih =>
      refine preserves_getBind fun t => (preserves_except _).bind fun new => ?_
      refine Preserves.bind (preserves_modify ?_) fun _ => ih fun id hid => hids id (by simp [hid])
      intro t h
      refine ⟨?_, h.scope_eq, h.own_eq⟩
      have hwritten : (t.setVariable id new).stores = t.stores.setVariable scope id new := by
        rw [← h.scope_eq]
        rfl
      rw [hwritten]
      exact h.stores.setVariable (hids id (by simp)) new

theorem preserves_drawBetween_writing (low high : Json) :
    (drawBetween low high).Preserves (Writing i d scope own s) := by
  have hdraw : ∀ span : Json.Number, (do
      let t ← get
      modify fun t => { t with draws := t.draws.whole.2 }
      low.plus (← (Json.int t.draws.whole.1).modulo span.toJson) : Play Json).Preserves
        (Writing i d scope own s) := by
    intro span
    refine preserves_getBind fun t => Preserves.bind (preserves_modify ?_) fun _ => ?_
    · intro t h
      exact ⟨h.stores, h.scope_eq, h.own_eq⟩
    · exact (preserves_except _).bind fun _ => preserves_except _
  rw [drawBetween_eq_modify]
  refine (preserves_except _).bind fun width => (preserves_except _).bind fun count =>
    (preserves_except _).bind fun span => ?_
  dsimp only
  split
  · exact (preserves_throw _).bind fun _ => hdraw span
  · exact hdraw span

/-- The value that a variable command works with is found without a write. -/
theorem preserves_sourceValue_writing (source : VariableSource) :
    (sourceValue source).Preserves (Writing i d scope own s) := by
  cases source with
  | operand o =>
      rcases o with v | slot
      · exact preserves_pure v
      · exact preserves_getBind fun t => preserves_pure _
  | random low high => exact preserves_drawBetween_writing low high

theorem preserves_requestRefresh_writing :
    (modify requestRefresh : Play PUnit).Preserves (Writing i d scope own s) := by
  refine preserves_modify ?_
  intro t h
  exact ⟨h.stores, h.scope_eq, h.own_eq⟩

/-- **What a data command writes is what it names**, one write after the other. -/
theorem preserves_carryOutPlain_writing (hi : i.WritesData) :
    (carryOutPlain d i).Preserves (Writing i d scope own s) := by
  rcases hi.shape with ⟨first, last, on, rfl⟩ | ⟨first, last, op, source, rfl⟩ | ⟨given, rfl⟩ | rfl |
    ⟨e, rfl⟩
  · refine Preserves.bind (preserves_modify ?_) fun _ => preserves_requestRefresh_writing
    intro t h
    have hids : ∀ id ∈ numbers first last, (Instruction.setSwitches first last on).NamesSwitch id := by
      intro id hid
      exact mem_numbers hid
    exact h.setSwitches hids on
  · refine (preserves_sourceValue_writing source).bind fun value => ?_
    refine preserves_exceptBind fun a ha => preserves_exceptBind fun b hb => ?_
    refine Preserves.bind (preserves_changeEach_writing ?_) fun _ => preserves_requestRefresh_writing
    intro id hid
    exact ⟨a, b, ha, hb, mem_numbers hid⟩
  · refine preserves_getBind_of fun t ht => Preserves.ite ?_ (preserves_pure ())
    refine preserves_exceptBind fun found hfound => preserves_exceptBind fun key hkey => ?_
    refine Preserves.bind (preserves_modify ?_) fun _ => preserves_requestRefresh_writing
    intro u hu
    have hchannel : (Instruction.setSelfSwitch given).NamesChannel found.1 := ⟨found.2, hfound⟩
    have hwritten : key = own.key found.1 := by
      rw [← ht.own_eq]
      unfold SelfKey.checked at hkey
      split at hkey
      · cases hkey
        rfl
      · cases hkey
    refine ⟨?_, hu.scope_eq, hu.own_eq⟩
    rw [hwritten]
    exact hu.stores.setSelfSwitch hchannel _
  · exact preserves_pure ()
  · exact preserves_throw e

/-- A data command is followed by the next one of its list. -/
theorem carryOut_of_writesData (hi : i.WritesData) : carryOut d i = (do
    let f := (← get).frame d
    carryOutPlain d i
    return f.index + 1) := by
  rcases hi.shape with ⟨first, last, on, rfl⟩ | ⟨first, last, op, source, rfl⟩ | ⟨given, rfl⟩ | rfl |
    ⟨e, rfl⟩
  · rfl
  · rfl
  · rfl
  · rfl
  · rfl

theorem preserves_carryOut_writing (hi : i.WritesData) :
    (carryOut d i).Preserves (Writing i d scope own s) := by
  rw [carryOut_of_writesData hi]
  refine preserves_getBind fun t => ?_
  exact (preserves_carryOutPlain_writing hi).bind fun _ => preserves_pure _

/-- The same holds from the beginning of the command to the choice of the next one. -/
theorem preserves_command_writing {c : EventCommand} (hi : c.instruction.WritesData) : (do
    modify (updateFrame d (beginCommand c))
    let next ← carryOut d c.instruction
    modify (updateFrame d fun f => { f with index := next }) : Play Unit).Preserves
      (Writing c.instruction d scope own s) := by
  refine Preserves.bind (preserves_modify ?_) fun _ =>
    (preserves_carryOut_writing hi).bind fun next => preserves_modify ?_
  · intro t ht
    refine ht.updateFrame ?_
    intro f
    exact ⟨rfl, rfl, rfl⟩
  · intro t ht
    refine ht.updateFrame ?_
    intro f
    exact ⟨rfl, rfl, rfl⟩

/-- The list at a depth is about to carry out a data command. -/
structure AtDataCommand (s : Session) (d : Nat) (i : Instruction) : Prop where
  /-- The list is the innermost one that is being run. -/
  active : s.active = some d
  current : ∃ c, (s.frame d).current? = some c ∧ c.instruction = i
  writes : i.WritesData

theorem AtDataCommand.currentScope_eq {s : Session} (h : AtDataCommand s d i) :
    s.currentScope = s.scopes.headD (s.resolve d) := by
  unfold currentScope
  rw [h.active]
  cases s.scopes with
  | nil => rfl
  | cons scope rest => rfl

/-- **A data command writes what it names, for the entity addressed.**  Self-scoped switches and
variables belong to the innermost scope pushed by hand, or else to the entity that the list acts for;
self switches belong to that one in any case. -/
theorem step_changesOnly {s : Session} (h : AtDataCommand s d i) :
    s.stores.ChangesOnly i (s.scopes.headD (s.resolve d)) (s.resolve d) ((step d).after s).stores := by
  obtain ⟨c, hcurrent, rfl⟩ := h.current
  have hown : Writing c.instruction d (s.scopes.headD (s.resolve d)) (s.resolve d) s.stores s :=
    ⟨.refl _ _ _ _, h.currentScope_eq, rfl⟩
  rcases step_of_current hcurrent with hstep | hstep
  · rw [after_of_error hstep]
    exact hown.stores
  · have hcommand := preserves_command_writing h.writes s hown
    unfold after at hcommand ⊢
    rw [hstep]
    exact hcommand.stores

/-! ### A scope pushed by hand -/

/-- A game whose first switch is self-scoped, with two events on its maps. -/
def scopedGame : Game where
  database := { selfSwitches := [1] }
  mapFile := fun _ =>
    let page : Json := .obj [("list", .arr [])]
    .ok (some (.obj [("events", .arr [.null, .obj [("id", 1), ("pages", .arr [page])],
      .obj [("id", 2), ("pages", .arr [page])]])]))

/-- A list that turns the first switch on. -/
def switchOnList : Json := .arr [.obj [("code", 121), ("parameters", .arr [1, 1, 0])]]

/-- The first event is about to turn the first switch on. -/
def atSwitch : Session :=
  (modify fun s => { s with active := some 0 } : Play PUnit).after
    ((setupInterpreter switchOnList 1).after ((setupMap 1).after (Session.begin scopedGame {})))

/-- The same, while switches are read for the second event. -/
def atSwitchScoped : Session :=
  (modify fun s => { s with scopes := [⟨1, 2⟩] } : Play PUnit).after atSwitch

theorem reachable_atSwitchScoped : Reachable scopedGame atSwitchScoped := by
  have hbegin : Reachable scopedGame (Session.begin scopedGame {}) := .begin {}
  have hlist := (hbegin.after (.setupMap 1 none)).after (.setupInterpreter switchOnList 1)
  exact (hlist.after (.activate (some 0))).after (.enterScopes [⟨1, 2⟩])

theorem writesData_switchOn : (Instruction.setSwitches 1 1 true).WritesData :=
  @Instruction.WritesData.read 121 (.arr [1, 1, 0]) _ (by decide) rfl

/-- The first event's switch is turned on for the first event. -/
theorem step_changesOnly_atSwitch :
    AtDataCommand atSwitch 0 (.setSwitches 1 1 true) ∧
      atSwitch.stores.ChangesOnly (.setSwitches 1 1 true) (atSwitch.resolve 0) (atSwitch.resolve 0)
        ((step 0).after atSwitch).stores := by
  have hat : AtDataCommand atSwitch 0 (.setSwitches 1 1 true) :=
    ⟨rfl, ⟨_, rfl, rfl⟩, writesData_switchOn⟩
  exact ⟨hat, step_changesOnly hat⟩

/-- Under a scope pushed by hand the first event's command writes the second event's switch. -/
theorem not_changesOnly_atSwitchScoped :
    Reachable scopedGame atSwitchScoped ∧ AtDataCommand atSwitchScoped 0 (.setSwitches 1 1 true) ∧
      ¬ atSwitchScoped.stores.ChangesOnly (.setSwitches 1 1 true) (atSwitchScoped.resolve 0)
        (atSwitchScoped.resolve 0) ((step 0).after atSwitchScoped).stores := by
  refine ⟨reachable_atSwitchScoped, ⟨rfl, ⟨_, rfl, rfl⟩, writesData_switchOn⟩, ?_⟩
  intro h
  have hbefore : (atSwitchScoped.stores.selfSwitches.slots.get? ⟨1, 2, 1⟩).isSome = false := by
    decide +kernel
  have hafter :
      (((step 0).after atSwitchScoped).stores.selfSwitches.slots.get? ⟨1, 2, 1⟩).isSome = true := by
    decide +kernel
  have hchanged : ((step 0).after atSwitchScoped).stores.selfSwitches.slots.get? ⟨1, 2, 1⟩ ≠
      atSwitchScoped.stores.selfSwitches.slots.get? ⟨1, 2, 1⟩ := by
    intro hsame
    rw [hsame, hbefore] at hafter
    cases hafter
  rcases h.selfSwitches _ hchanged with ⟨id, -, -, -, hform⟩ | ⟨channel, hchannel, -⟩
  · have hentity : Json.keyForm 2 = Json.keyForm 1 := congrArg (fun form => form.2.1) hform
    exact absurd hentity (by decide)
  · exact hchannel

end Play

end EventLayer
