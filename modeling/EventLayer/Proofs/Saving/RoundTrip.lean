/-
**Saving and loading restore a game.**

A save of a reachable session is loaded into any session of the same game, in whatever state that
is.  If the load comes to a result, then every switch, variable, self switch and self variable reads
as it did, for every entity, and so do the counts of things, apart from fractions, and the origins;
the map has the events of its file, each at its saved origin and on the page that the saved stores
call for; and saving again gives the same contents, apart from the fractions that were cut off and a
behaviour without meaning.

Main definitions:

* `Session.IsOver` — a session of a game, in whatever state;
* `Session.Restores` — what a session that was loaded has to do with the one that was saved.

Main results:

* `Session.stores_load` — the stores that a load leaves;
* `Session.restores_load` — **saving and loading restore a game**.
-/
import EventLayer.Proofs.Saving.Reload
import EventLayer.Proofs.Saving.Tidy

set_option autoImplicit false
set_option relaxedAutoImplicit false

namespace EventLayer

/-! ### What the stores that come back answer -/

theorem Party.countOf_kept (p : Party) (entry : Json) :
    p.kept.countOf entry = (p.countOf entry).map Json.Number.cut := by
  unfold countOf
  cases ItemKey.ofEntry? entry with
  | error e => rfl
  | ok key? =>
      cases key? with
      | none => rfl
      | some key =>
          simp only [Except.ok_bind, kept, count, OrderedMap.getD, OrderedMap.get?_mapValues]
          cases p.items.get? key <;> rfl

namespace Session

variable {g : Game} {s t t' : Session} {contents : Json}

/-- A session of a game, in whatever state. -/
structure IsOver (g : Game) (t : Session) : Prop where
  game : t.game = g
  like : t.stores.IsLike (Stores.fresh g)

/-- What a session that was loaded has to do with the one whose contents were saved. -/
structure Restores (s : Session) (contents : Json) (t : Session) : Prop where
  /-- It is saved as what comes back of the stores. -/
  again : t.contents = .ok { s with stores := s.stores.kept }.save
  /-- Where nothing is cut off, it is saved as before. -/
  same : s.stores.IsWhole → t.contents = .ok contents
  switchTable : ∀ scope slot d, t.stores.switchTable.value t.stores.selfSwitches scope slot d =
    s.stores.switchTable.value s.stores.selfSwitches scope slot d
  variableTable : ∀ scope slot d, t.stores.variableTable.value t.stores.selfVariables scope slot d =
    s.stores.variableTable.value s.stores.selfVariables scope slot d
  selfSwitches : ∀ key d, t.stores.selfSwitches.value key d = s.stores.selfSwitches.value key d
  selfVariables : ∀ key d, t.stores.selfVariables.value key d = s.stores.selfVariables.value key d
  counts : ∀ entry, t.stores.party.countOf entry =
    (s.stores.party.countOf entry).map Json.Number.cut
  origins : ∀ map event, t.stores.origins.origin? map event = s.stores.origins.origin? map event
  map : t.map.id = s.map.id
  /-- The events of the map are those of its file, at their origins and on the pages that count. -/
  events : ∃ entries, t.map.IsSpawned s.game t.stores entries

/-- **What a load of a save leaves**: the stores that come back, and the party where it stood. -/
theorem load_contents (hs : s.IsTidy g) (hmap : 0 < s.map.id) (ht : t.IsOver g)
    (hc : s.contents = .ok contents) (h : Play.load contents t = .ok () t') :
    t'.game = g ∧ t'.stores = s.stores.kept ∧ t'.savePosition = s.savePosition ∧
      ∃ entries, t'.map.IsSpawned t'.game t'.stores entries := by
  have hcontents : contents.orElse (.obj []) = contents := by
    rw [(contents_eq_ok hc).2.2]
    exact Json.orElse_obj _
  have hfield : contents.fieldD "map" .null = .ok s.savePosition := by
    rw [(contents_eq_ok hc).2.2]
    rfl
  rw [Play.load, hcontents] at h
  obtain ⟨_, u, hget, h⟩ := Play.bind_eq_ok h
  cases hget
  obtain ⟨stores, hstores, h⟩ := Play.reading_bind_eq_ok h
  obtain ⟨_, u, hu, h⟩ := Play.bind_eq_ok h
  obtain ⟨_, v, hv, h⟩ := Play.bind_eq_ok h
  obtain ⟨position, hposition, h⟩ := Play.except_bind_eq_ok h
  obtain rfl := Except.ok.inj (hfield.symm.trans hposition)
  have hlike : t.stores.IsLike s.stores :=
    { switchTable := ht.like.switchTable.trans hs.2.1.like.switchTable.symm
      variableTable := ht.like.variableTable.trans hs.2.1.like.variableTable.symm }
  have hkept : stores = s.stores.kept := ofSave_save hs.2.1.distinct hc hlike hstores
  cases hu
  cases hv
  obtain ⟨hgame, hstores', hposition', hspawned⟩ := Play.loadPosition_save hmap hs.2.2 h
  exact ⟨hgame.trans ht.game, hstores'.trans hkept, hposition', hspawned⟩

/-- A session is saved as its stores and its position are. -/
theorem contents_of_kept (hc : s.contents = .ok contents) (hstores : t.stores = s.stores.kept)
    (hposition : t.savePosition = s.savePosition) :
    t.contents = .ok { s with stores := s.stores.kept }.save := by
  obtain ⟨hswitches, hvariables, -⟩ := contents_eq_ok hc
  have hwritable : (t.stores.switchTable.isWritable && t.stores.variableTable.isWritable) = true := by
    rw [hstores, Bool.and_eq_true]
    exact ⟨hswitches, hvariables⟩
  rw [Session.contents, if_pos hwritable, save, hposition, hstores]
  rfl

/-- **Saving and loading restore a game.**  A save of any session that the game comes to, loaded
into any session of the game, gives back what was saved. -/
theorem restores_load (hs : Reachable g s) (hmap : 0 < s.map.id) (ht : t.IsOver g)
    (hc : s.contents = .ok contents) (h : Play.load contents t = .ok () t') :
    s.Restores contents t' := by
  obtain ⟨hgame, hstores, hposition, hspawned⟩ := load_contents hs.isTidy hmap ht hc h
  have hagain := contents_of_kept hc hstores hposition
  have hid : t'.map.id = s.map.id := by
    have := congrArg (fun v => v.field? "mapId") hposition
    simpa [savePosition, Json.field?, OrderedMap.find] using this
  rw [hgame, ← hs.isTidy.1] at hspawned
  exact
    { again := hagain
      same := fun hwhole => by rw [hagain, save_kept hwhole, (contents_eq_ok hc).2.2]
      switchTable := fun scope slot d => by rw [hstores]; rfl
      variableTable := fun scope slot d => by rw [hstores]; rfl
      selfSwitches := fun key d => by rw [hstores]; rfl
      selfVariables := fun key d => by rw [hstores]; rfl
      counts := fun entry => by rw [hstores]; exact Party.countOf_kept _ entry
      origins := fun map event => by rw [hstores]; rfl
      map := hid
      events := hspawned }

/-! ### A small game -/

/-- A game with one thing and one map, on which one event stands. -/
def smallGame : Game where
  database := { items := .arr [.null, .obj [("id", 1)]] }
  mapFile := fun _ =>
    .ok (some (.obj [("events", .arr [.null, .obj [("id", 1), ("x", 4), ("y", 5)]])]))

/-- The small game on its map, where nothing else has happened. -/
def onSmallMap : Session := (Play.setupMap 1).after (Session.begin smallGame {})

theorem reachable_onSmallMap : Reachable smallGame onSmallMap :=
  .after (.begin {}) (.setupMap 1 none)

/-- Switch 3 is on, the event has another origin, and there are two and a half pieces of gold. -/
def playedSmallGame : Session :=
  (Play.gainGold (.float (.finite (5 / 2)))).after <|
    (modify (recordOrigin 1 1 ⟨2, 3⟩) : Play PUnit).after <|
      (modify (setSwitch 3 true) : Play PUnit).after onSmallMap

theorem reachable_playedSmallGame : Reachable smallGame playedSmallGame :=
  .after (.after (.after reachable_onSmallMap (.setSwitch 3 true)) (.recordOrigin 1 1 ⟨2, 3⟩))
    (.gainGold _)

/-- Whether a load comes to a result. -/
def loads (contents : Json) (t : Session) : Bool :=
  match Play.load contents t with
  | .ok _ _ => true
  | .error _ _ => false

theorem exists_of_loads (h : loads contents t = true) : ∃ t', Play.load contents t = .ok () t' := by
  unfold loads at h
  split at h
  · next t' ht => exact ⟨t', ht⟩
  · cases h

theorem isOver_begin (g : Game) (draws : Draws) : (Session.begin g draws).IsOver g :=
  ⟨rfl, rfl, rfl⟩

/-- The small game is restored in a session in which nothing has happened. -/
theorem restores_load_smallGame : ∃ contents t', playedSmallGame.contents = .ok contents ∧
    Play.load contents (Session.begin smallGame {}) = .ok () t' ∧
      playedSmallGame.Restores contents t' := by
  have hc : playedSmallGame.contents = .ok playedSmallGame.save :=
    if_pos (by decide +kernel)
  have hl : loads playedSmallGame.save (Session.begin smallGame {}) = true := by decide +kernel
  obtain ⟨t', ht'⟩ := exists_of_loads hl
  exact ⟨_, t', hc, ht', restores_load reachable_playedSmallGame (by decide +kernel)
    (isOver_begin smallGame {}) hc ht'⟩

/-! ### What does not come back -/

/-- Every session of the game into which the contents are loaded has the same contents. -/
def ComesBack (g : Game) (s : Session) : Prop :=
  ∀ t t' contents, t.IsOver g → s.contents = .ok contents → Play.load contents t = .ok () t' →
    t'.contents = .ok contents

theorem not_comesBack (hs : s.IsTidy g) (hmap : 0 < s.map.id) (hc : s.contents = .ok s.save)
    (hl : loads s.save (Session.begin g {}) = true)
    (hne : { s with stores := s.stores.kept }.save.same s.save ≠ s.save.same s.save) :
    ¬s.ComesBack g := by
  intro h
  have hover := isOver_begin g {}
  obtain ⟨t', ht'⟩ := exists_of_loads hl
  obtain ⟨-, hstores, hposition, -⟩ := load_contents hs hmap hover hc ht'
  have hagain := contents_of_kept hc hstores hposition
  have hsame := Except.ok.inj (hagain.symm.trans (h _ _ _ hover hc ht'))
  exact hne (congrArg (fun v => v.same s.save) hsame)

/-- The small game with two and a half pieces of gold. -/
def withGold : Session := (Play.gainGold (.float (.finite (5 / 2)))).after onSmallMap

/-- The small game with two and a half things. -/
def withThing : Session := (Play.gainItem .item 1 (.float (.finite (5 / 2)))).after onSmallMap

/-- The small game with a behaviour that has no meaning. -/
def withWord : Session :=
  (modify fun s => { s with stores.behavior := .other "still" } : Play PUnit).after onSmallMap

/-- A save does not come back as it was where gold or a count is a fraction, or where the behaviour
has no meaning. -/
theorem not_comesBack_smallGame :
    (Reachable smallGame withGold ∧ 0 < withGold.map.id ∧ ¬withGold.ComesBack smallGame) ∧
      (Reachable smallGame withThing ∧ 0 < withThing.map.id ∧
        ¬withThing.ComesBack smallGame) ∧
      (Reachable smallGame withWord ∧ 0 < withWord.map.id ∧ ¬withWord.ComesBack smallGame) := by
  have hgold : Reachable smallGame withGold := .after reachable_onSmallMap (.gainGold _)
  have hthing : Reachable smallGame withThing := .after reachable_onSmallMap (.gainItem _ _ _)
  have hword : Reachable smallGame withWord := .after reachable_onSmallMap (.setBehavior _)
  refine ⟨⟨hgold, by decide +kernel, ?_⟩, ⟨hthing, by decide +kernel, ?_⟩,
    hword, by decide +kernel, ?_⟩
  · exact not_comesBack hgold.isTidy (by decide +kernel) (if_pos (by decide +kernel))
      (by decide +kernel) (by decide +kernel)
  · exact not_comesBack hthing.isTidy (by decide +kernel) (if_pos (by decide +kernel))
      (by decide +kernel) (by decide +kernel)
  · exact not_comesBack hword.isTidy (by decide +kernel) (if_pos (by decide +kernel))
      (by decide +kernel) (by decide +kernel)

end Session

end EventLayer
