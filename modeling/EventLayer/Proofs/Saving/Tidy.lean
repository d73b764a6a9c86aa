/-
**Tidy sessions.**

A session can come back from a save only if no key of its stores repeats, if the numbers that it
calls self-scoped are those of the game, and if the player faces somewhere.  The stores are written in
few places, each of which leaves them tidy, and whoever is turned faces somewhere afterwards: tidiness
lasts.

Main definitions:

* `Stores.IsTidy`, `Session.IsTidy` — tidy stores and sessions.

Main results:

* `Stores.isTidy_setSwitch`, `Stores.isTidy_setVariable`, `Stores.isTidy_ofSave` — writing stores;
* `Play.lasting_isTidy`, `Session.Reachable.isTidy` — **every reachable session is tidy**.
-/
import EventLayer.Proofs.Lasting
import EventLayer.Proofs.Saving.Stores

set_option autoImplicit false
set_option relaxedAutoImplicit false

namespace EventLayer

/-- Stores in which no key repeats, and whose self-scoped numbers are those of a game. -/
structure Stores.IsTidy (g : Game) (s : Stores) : Prop where
  distinct : s.IsDistinct
  like : s.IsLike (Stores.fresh g)

/-- A session of a game with tidy stores, in which the player faces somewhere. -/
def Session.IsTidy (g : Game) (s : Session) : Prop :=
  s.game = g ∧ s.stores.IsTidy g ∧ s.player.body.direction ≠ 0

/-! ### Writing stores -/

namespace Stores

variable {g : Game} {s : Stores}

theorem isTidy_fresh (g : Game) : (Stores.fresh g).IsTidy g where
  distinct := ⟨.empty, .empty, .empty, .empty, .empty, .empty⟩
  like := ⟨rfl, rfl⟩

theorem distinct_put {t : ScopedTable} {store : SelfStore} (ht : t.values.Distinct)
    (hs : store.slots.Distinct) (scope : Scope) (id : Int) (v : Json) :
    (t.put store scope id v).1.values.Distinct ∧ (t.put store scope id v).2.slots.Distinct ∧
      (t.put store scope id v).1.selfIds = t.selfIds := by
  unfold ScopedTable.put
  split
  · exact ⟨ht, hs, rfl⟩
  · split
    · exact ⟨ht, hs.insert _ _, rfl⟩
    · exact ⟨ht.insert _ _, hs, rfl⟩

theorem isTidy_setSwitch (h : s.IsTidy g) (scope : Scope) (id : Int) (on : Bool) :
    (s.setSwitch scope id on).IsTidy g := by
  obtain ⟨ht, hs, hids⟩ :=
    distinct_put h.distinct.switchTable h.distinct.selfSwitches scope id (.bool on)
  exact
    { distinct := { h.distinct with switchTable := ht, selfSwitches := hs }
      like := { h.like with switchTable := hids.trans h.like.switchTable } }

theorem isTidy_setVariable (h : s.IsTidy g) (scope : Scope) (id : Int) (v : Json) :
    (s.setVariable scope id v).IsTidy g := by
  obtain ⟨ht, hs, hids⟩ := distinct_put h.distinct.variableTable h.distinct.selfVariables scope id v
  exact
    { distinct := { h.distinct with variableTable := ht, selfVariables := hs }
      like := { h.like with variableTable := hids.trans h.like.variableTable } }

theorem isTidy_party (h : s.IsTidy g) {party : Party} (hp : party.items.Distinct) :
    { s with party }.IsTidy g :=
  { distinct := { h.distinct with items := hp }, like := { h.like with } }

theorem distinct_hold {p : Party} (hp : p.items.Distinct) (key : ItemKey) (n : Json.Number) :
    (p.hold key n).items.Distinct := by
  unfold Party.hold
  dsimp only
  split
  · exact hp.insert _ _
  · exact hp.erase _

theorem distinct_gainOf {p q : Party} {entry amount : Json} (hp : p.items.Distinct)
    (h : p.gainOf entry amount = .ok q) : q.items.Distinct := by
  obtain ⟨key?, -, h⟩ := Except.bind_eq_ok h
  cases key? with
  | none =>
      cases h
      exact hp
  | some key =>
      obtain ⟨n, -, h⟩ := Except.bind_eq_ok h
      obtain ⟨m, -, h⟩ := Except.bind_eq_ok h
      cases h
      exact distinct_hold hp key _

theorem distinct_gainGold {p q : Party} {amount : Json.Number} (hp : p.items.Distinct)
    (h : p.gainGold amount = .ok q) : q.items.Distinct := by
  obtain ⟨n, -, h⟩ := Except.bind_eq_ok h
  cases h
  exact hp

/-! ### Reading stores -/

theorem distinct_readValues {data : Json} {m : OrderedMap Int Json}
    (h : ScopedTable.readValues data = .ok m) : m.Distinct := by
  unfold ScopedTable.readValues at h
  split at h
  · next fields hfields =>
      cases h
      refine List.foldlRecOn fields _ .empty fun m hm e _ => ?_
      split
      · exact hm.insert _ _
      · exact hm
  · cases h

theorem distinct_readRow {s t : SelfStore} {row : Json} (hs : s.slots.Distinct)
    (h : s.readRow row = .ok t) : t.slots.Distinct := by
  unfold SelfStore.readRow at h
  split at h
  · obtain ⟨key, -, h⟩ := Except.bind_eq_ok h
    cases h
    exact hs.insert _ _
  · cases h
    exact hs

theorem distinct_readSelf {rows : Json} {s : SelfStore} (h : SelfStore.read rows = .ok s) :
    s.slots.Distinct := by
  obtain ⟨rows, -, h⟩ := Except.bind_eq_ok h
  exact Except.foldlM_keeps (P := fun s => s.slots.Distinct) (fun s t a hs => distinct_readRow hs)
    .empty h

theorem distinct_readEntry {o u : Origins} {entry : String × Json} (ho : o.points.Distinct)
    (h : o.readEntry entry = .ok u) : u.points.Distinct := by
  unfold Origins.readEntry at h
  split at h
  · obtain ⟨x, -, h⟩ := Except.bind_eq_ok h
    obtain ⟨y, -, h⟩ := Except.bind_eq_ok h
    cases h
    exact ho.insert _ _
  · cases h
    exact ho

theorem distinct_readOrigins {data : Json} {o : Origins} (h : Origins.read data = .ok o) :
    o.points.Distinct := by
  unfold Origins.read at h
  split at h
  · exact Except.foldlM_keeps (P := fun o => o.points.Distinct)
      (fun o u a ho => distinct_readEntry ho) .empty h
  · cases h

theorem distinct_readCount {items more : OrderedMap ItemKey Json.Number} {row : Json}
    (hi : items.Distinct) (h : Party.readRow items row = .ok more) : more.Distinct := by
  unfold Party.readRow at h
  split at h
  · obtain ⟨n, -, h⟩ := Except.bind_eq_ok h
    obtain ⟨id, -, h⟩ := Except.bind_eq_ok h
    cases h
    exact hi.insert _ _
  · cases h
    exact hi

theorem distinct_readParty {data : Json} {p : Party} (h : Party.read data = .ok p) :
    p.items.Distinct := by
  obtain ⟨_, -, h⟩ := Except.bind_eq_ok h
  obtain ⟨_, -, h⟩ := Except.bind_eq_ok h
  obtain ⟨_, -, h⟩ := Except.bind_eq_ok h
  obtain ⟨_, -, h⟩ := Except.bind_eq_ok h
  obtain ⟨_, -, h⟩ := Except.bind_eq_ok h
  obtain ⟨_, -, h⟩ := Except.bind_eq_ok h
  obtain ⟨items, hi, h⟩ := Except.bind_eq_ok h
  cases h
  exact Except.foldlM_keeps (fun _ _ _ => distinct_readCount) .empty hi

theorem selfIds_read {t u : ScopedTable} {data : Json} (h : t.read data = .ok u) :
    u.values.Distinct ∧ u.selfIds = t.selfIds := by
  obtain ⟨m, hm, h⟩ := Except.bind_eq_ok h
  cases h
  exact ⟨distinct_readValues hm, rfl⟩

/-- Stores each of which has been read from a save, in place of others. -/
structure ReadInPlaceOf (old new : Stores) : Prop where
  switchTable : ∃ data, old.switchTable.read data = .ok new.switchTable
  variableTable : ∃ data, old.variableTable.read data = .ok new.variableTable
  selfSwitches : ∃ data, SelfStore.read data = .ok new.selfSwitches
  selfVariables : ∃ data, SelfStore.read data = .ok new.selfVariables
  origins : ∃ data, Origins.read data = .ok new.origins
  party : ∃ data, Party.read data = .ok new.party

theorem readInPlaceOf_ofSave {save : Json} {config : Config} {old new : Stores}
    (h : (ofSave save config old).result = .ok new) : ReadInPlaceOf old new := by
  obtain ⟨_, -, h⟩ := Reading.bind_eq_ok h
  obtain ⟨switchTable, hswitches, h⟩ := Reading.bind_eq_ok h
  obtain ⟨_, -, h⟩ := Reading.bind_eq_ok h
  obtain ⟨variableTable, hvariables, h⟩ := Reading.bind_eq_ok h
  obtain ⟨_, -, h⟩ := Reading.bind_eq_ok h
  obtain ⟨selfSwitches, hselfSwitches, h⟩ := Reading.bind_eq_ok h
  obtain ⟨_, -, h⟩ := Reading.bind_eq_ok h
  obtain ⟨selfVariables, hselfVariables, h⟩ := Reading.bind_eq_ok h
  obtain ⟨_, -, h⟩ := Reading.bind_eq_ok h
  obtain ⟨origins, horigins, h⟩ := Reading.bind_eq_ok h
  obtain ⟨_, -, h⟩ := Reading.bind_eq_ok h
  obtain ⟨party, hparty, h⟩ := Reading.bind_eq_ok h
  obtain ⟨_, -, h⟩ := Reading.bind_eq_ok h
  obtain ⟨behavior, -, h⟩ := Reading.bind_eq_ok h
  cases h
  exact ⟨⟨_, hswitches⟩, ⟨_, hvariables⟩, ⟨_, hselfSwitches⟩, ⟨_, hselfVariables⟩, ⟨_, horigins⟩,
    ⟨_, hparty⟩⟩

/-- Stores from any save whatever are tidy. -/
theorem isTidy_ofSave {save : Json} {config : Config} {old new : Stores}
    (hold : old.IsLike (fresh g)) (h : (ofSave save config old).result = .ok new) :
    new.IsTidy g := by
  have hread := readInPlaceOf_ofSave h
  obtain ⟨_, hswitches⟩ := hread.switchTable
  obtain ⟨_, hvariables⟩ := hread.variableTable
  obtain ⟨_, hselfSwitches⟩ := hread.selfSwitches
  obtain ⟨_, hselfVariables⟩ := hread.selfVariables
  obtain ⟨_, horigins⟩ := hread.origins
  obtain ⟨_, hparty⟩ := hread.party
  exact
    { distinct :=
        { switchTable := (selfIds_read hswitches).1
          variableTable := (selfIds_read hvariables).1
          selfSwitches := distinct_readSelf hselfSwitches
          selfVariables := distinct_readSelf hselfVariables
          origins := distinct_readOrigins horigins
          items := distinct_readParty hparty }
      like :=
        { switchTable := (selfIds_read hswitches).2.trans hold.switchTable
          variableTable := (selfIds_read hvariables).2.trans hold.variableTable } }

end Stores

/-! ### Characters -/

namespace Session

variable {g : Game} {s : Session}

theorem isTidy_begin (g : Game) (draws : Draws) : (Session.begin g draws).IsTidy g :=
  ⟨rfl, Stores.isTidy_fresh g, show Direction.down ≠ 0 by decide⟩

/-- Changing a character, if nobody is turned to face nowhere. -/
theorem isTidy_updateCharacter {who : CharacterId} {f : Character → Character} (h : s.IsTidy g)
    (hf : ∀ c, c.direction ≠ 0 → (f c).direction ≠ 0) : (s.updateCharacter who f).IsTidy g := by
  cases who with
  | player => exact ⟨h.1, h.2.1, hf _ h.2.2⟩
  | event id => exact h
  | follower place => exact h

/-- A session with other tidy stores. -/
theorem isTidy_stores (h : s.IsTidy g) {stores : Stores} (hstores : stores.IsTidy g) :
    { s with stores }.IsTidy g :=
  ⟨h.1, hstores, h.2.2⟩

end Session

/-! ### Tidiness lasts -/

namespace Play

open Session

variable {g : Game}

theorem enduring_isTidy : Enduring (IsTidy g) where
  aside := fun _ _ _ _ h _ => h
  setReserved := fun _ h => h
  setSwitch := fun id on h => isTidy_stores h (Stores.isTidy_setSwitch h.2.1 _ id on)
  setVariable := fun id v h => isTidy_stores h (Stores.isTidy_setVariable h.2.1 _ id v)
  setSelfSwitch := fun _ _ h => isTidy_stores h
    { distinct := { h.2.1.distinct with selfSwitches := h.2.1.distinct.selfSwitches.insert _ _ }
      like := { h.2.1.like with } }
  requestRefresh := fun h => h
  recordOrigin := fun _ _ _ h => isTidy_stores h
    { distinct := { h.2.1.distinct with origins := h.2.1.distinct.origins.insert _ _ }
      like := { h.2.1.like with } }
  setBehavior := fun _ h => isTidy_stores h
    { distinct := { h.2.1.distinct with }, like := { h.2.1.like with } }
  gain := by
    rintro s t party hs (⟨entry, amount, hgain⟩ | ⟨amount, hgain⟩) ht
    · exact isTidy_stores ht
        (Stores.isTidy_party ht.2.1 (Stores.distinct_gainOf hs.2.1.distinct.items hgain))
    · exact isTidy_stores ht
        (Stores.isTidy_party ht.2.1 (Stores.distinct_gainGold hs.2.1.distinct.items hgain))
  forceRoute := by
    intro s who route h
    refine isTidy_updateCharacter h ?_
    intro c hc
    rwa [Character.direction_forceRoute]
  eraseEvent := preserves_eraseEvent (fun _ _ h => h) fun _ _ _ h => h
  onFrame := fun _ _ _ h => h
  await := fun _ _ h => h

/-- **Tidiness lasts.** -/
theorem lasting_isTidy : Lasting (IsTidy g) :=
  { enduring_isTidy.sustained (fun _ h => h) fun _ h => h with
    onCharacter := fun _ _ hf h => isTidy_updateCharacter h hf
    onParty := fun _ _ _ h => h
    onMap := fun _ _ h => h
    commonEvents := preserves_commonEvents fun _ _ _ h => h
    clear := fun h => h
    setupInterpreter := preserves_setupInterpreter (fun _ _ h => h) fun _ _ h => h
    jump := fun _ _ h => h
    enterScopes := fun _ h => h
    setSelfVariable := fun _ _ h => isTidy_stores h
      { distinct := { h.2.1.distinct with selfVariables := h.2.1.distinct.selfVariables.insert _ _ }
        like := { h.2.1.like with } }
    setMembers := fun _ h =>
      isTidy_stores h (Stores.isTidy_party h.2.1 h.2.1.distinct.items)
    newStores := by
      rintro s members ⟨rfl, -, hd⟩
      exact ⟨rfl, Stores.isTidy_party (Stores.isTidy_fresh s.game) .empty, hd⟩
    savedStores := fun hs hread ht => isTidy_stores ht (Stores.isTidy_ofSave hs.2.1.like hread) }

end Play

/-- **Every session that a game comes to is tidy.** -/
theorem Session.Reachable.isTidy {g : Game} {s : Session} (h : Reachable g s) : s.IsTidy g :=
  h.lasting (Session.isTidy_begin g) Play.lasting_isTidy

end EventLayer
