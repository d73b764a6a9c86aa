/-
**Events while no command is carried out.**

Characters that move, pages that are chosen and events that are started leave much as it was: the command
lists, what waits to be run, and of every event its number, whether it is erased, and that no route is
forced on it.

Main definitions:

* `MapEvent.GoesOn` — an event later on;
* `Session.GoesOn` — a session later on.

Main results:

* `MapEvent.goesOn_refresh`, `Play.find_refreshEvents` — the choice of pages;
* `Session.GoesOn.of_stirs` — **what happens on a map leaves events as they were**.
-/
import EventLayer.Proofs.Lasting
import EventLayer.Proofs.Map.Erasing
import EventLayer.Proofs.Saving.Reload

set_option autoImplicit false
set_option relaxedAutoImplicit false

namespace EventLayer

/-! ### Events -/

namespace MapEvent

/-- An event and the same one later on, which neither was erased meanwhile nor put on a route. -/
structure GoesOn (e e' : MapEvent) : Prop where
  id : e'.id = e.id
  erased : e'.erased = e.erased
  forcing : e'.body.forcing = true → e.body.forcing = true

variable {e e' e'' : MapEvent} {db : Database} {stores : Stores}

theorem GoesOn.refl (e : MapEvent) : e.GoesOn e := ⟨rfl, rfl, fun h => h⟩

theorem GoesOn.trans (h : e.GoesOn e') (h' : e'.GoesOn e'') : e.GoesOn e'' :=
  ⟨h'.id.trans h.id, h'.erased.trans h.erased, fun hf => h.forcing (h'.forcing hf)⟩

theorem GoesOn.adjust {f : Character → Character} (hf : Character.Adjusts f) (e : MapEvent) :
    e.GoesOn { e with body := f e.body } :=
  ⟨rfl, rfl, hf.forcing e.body⟩

theorem goesOn_startIfAny (e : MapEvent) : e.GoesOn e.startIfAny := by
  unfold startIfAny
  split
  · exact ⟨rfl, rfl, fun h => h⟩
  · exact .refl e

/-- A page that is taken on ends a forced route. -/
theorem forcing_showPage (h : e.showPage.result = .ok e') : e'.body.forcing = false := by
  obtain ⟨_, _, _, _, -, hforcing, rfl⟩ := wears_of_showPage h
  exact hforcing

theorem goesOn_refresh (h : (e.refresh db stores).result = .ok e') : e.GoesOn e' := by
  obtain ⟨due, -, h⟩ := Reading.bind_eq_ok h
  split at h
  · cases h
    exact .refl e
  · have hstands := standsAs_showPage h
    refine ⟨hstands.id, hstands.erased, fun hf => ?_⟩
    rw [forcing_showPage h] at hf
    cases hf

end MapEvent

namespace Play

/-- Every event after the choice of pages is the one with its number before, on the page that is due. -/
theorem find_refreshEvents {db : Database} {stores : Stores} {l l' : List (Int × MapEvent)} {id : Int}
    {e' : MapEvent} (h : (refreshEvents db stores l).result = .ok l')
    (he : OrderedMap.find id l' = some e') :
    ∃ e, OrderedMap.find id l = some e ∧ (e.refresh db stores).result = .ok e' := by
  induction l generalizing l' with
  | nil =>
      cases h
      cases he
  | cons entry rest ih =>
      obtain ⟨number, e⟩ := entry
      obtain ⟨new, hnew, h⟩ := Reading.bind_eq_ok h
      obtain ⟨left, hleft, h⟩ := Reading.bind_eq_ok h
      cases h
      simp only [OrderedMap.find] at he ⊢
      split at he
      · next hsame =>
          cases he
          exact ⟨e, by rw [if_pos hsame], hnew⟩
      · next hother =>
          rw [if_neg hother]
          exact ih hleft he

/-- The choice of pages leaves the events in their places. -/
theorem numbers_refreshEvents {db : Database} {stores : Stores} {l l' : List (Int × MapEvent)}
    (h : (refreshEvents db stores l).result = .ok l') :
    l'.map (fun e => (e.1, e.2.id)) = l.map fun e => (e.1, e.2.id) := by
  induction l generalizing l' with
  | nil =>
      cases h
      rfl
  | cons entry rest ih =>
      obtain ⟨new, hnew, h⟩ := Reading.bind_eq_ok h
      obtain ⟨left, hleft, h⟩ := Reading.bind_eq_ok h
      cases h
      rw [List.map_cons, List.map_cons, ih hleft, (MapEvent.goesOn_refresh hnew).id]

end Play

/-! ### Sessions -/

namespace Session

/-- The numbers of the events on the map, under those that they are held by. -/
def numbers (s : Session) : OrderedMap Int Int := s.map.events.mapValues (·.id)

/-- A session and the same one later on, while no command was carried out. -/
structure GoesOn (s t : Session) : Prop where
  lists : t.interpreter = s.interpreter
  pending : t.map.pending = s.map.pending
  reserved : t.scratch.reserved = s.scratch.reserved
  game : t.game = s.game
  numbers : t.numbers = s.numbers
  events : ∀ id e', t.event? id = some e' → ∃ e, s.event? id = some e ∧ e.GoesOn e'

variable {s t u : Session}

theorem GoesOn.refl (s : Session) : s.GoesOn s :=
  ⟨rfl, rfl, rfl, rfl, rfl, fun _ e' he => ⟨e', he, .refl e'⟩⟩

/-- A change of an event that leaves its number leaves all numbers. -/
theorem numbers_updateEvent (s : Session) (id : Int) {f : MapEvent → MapEvent}
    (hf : ∀ e, (f e).id = e.id) : (s.updateEvent id f).numbers = s.numbers :=
  OrderedMap.mapValues_modify hf s.map.events id

/-- Events that go on, while everything else stays. -/
theorem GoesOn.setEvents (h : s.GoesOn t) (events : OrderedMap Int MapEvent)
    (hnumbers : events.mapValues (·.id) = t.numbers)
    (hevents : ∀ id e', events.get? id = some e' → ∃ e, t.event? id = some e ∧ e.GoesOn e') :
    s.GoesOn { t with map.events := events } where
  lists := h.lists
  pending := h.pending
  reserved := h.reserved
  game := h.game
  numbers := hnumbers.trans h.numbers
  events := fun id e'' he'' => by
    obtain ⟨e', he', hlater⟩ := hevents id e'' he''
    obtain ⟨e, he, hfirst⟩ := h.events id e' he'
    exact ⟨e, he, hfirst.trans hlater⟩

theorem GoesOn.updateEvent (h : s.GoesOn t) (id : Int) {f : MapEvent → MapEvent}
    (hf : ∀ e : MapEvent, e.GoesOn (f e)) : s.GoesOn (t.updateEvent id f) := by
  refine h.setEvents (t.map.events.modify id f) (t.numbers_updateEvent id fun e => (hf e).id)
    fun id' e' he' => ?_
  rw [OrderedMap.get?_modify] at he'
  split at he'
  · next hsame =>
      obtain ⟨e, he, rfl⟩ := Option.map_eq_some_iff.mp he'
      exact ⟨e, eq_of_beq hsame ▸ he, hf e⟩
  · exact ⟨e', he', .refl e'⟩

theorem GoesOn.startWhere (h : s.GoesOn t) (test : MapEvent → Bool) : s.GoesOn (t.startWhere test) := by
  have hstart : ∀ e : MapEvent, e.GoesOn (if test e then e.startIfAny else e) := fun e => by
    split
    · exact e.goesOn_startIfAny
    · exact .refl e
  refine h.setEvents _ ?_ fun id e' he' => ?_
  · rw [OrderedMap.mapValues_mapValues]
    exact congrArg (fun f => t.map.events.mapValues f) (funext fun e => (hstart e).id)
  obtain ⟨e, he, rfl⟩ := Option.map_eq_some_iff.mp ((event?_startWhere test t id).symm.trans he')
  exact ⟨e, he, hstart e⟩

theorem GoesOn.updateCharacter (h : s.GoesOn t) (who : CharacterId) {f : Character → Character}
    (hf : ∀ e : MapEvent, e.GoesOn { e with body := f e.body }) : s.GoesOn (t.updateCharacter who f) := by
  cases who with
  | event id => exact h.updateEvent id hf
  | player => exact ⟨h.lists, h.pending, h.reserved, h.game, h.numbers, h.events⟩
  | follower place => exact ⟨h.lists, h.pending, h.reserved, h.game, h.numbers, h.events⟩

theorem stirring_goesOn (s : Session) : Play.Stirring s.GoesOn where
  aside := fun _ _ _ _ h => ⟨h.lists, h.pending, h.reserved, h.game, h.numbers, h.events⟩
  adjust := fun who _ hf h => h.updateCharacter who fun e => .adjust hf e
  step := fun who d h => h.updateCharacter who fun e =>
    ⟨rfl, rfl, (Character.adjusts_face d).forcing e.body⟩
  rest := fun id _ h => h.updateEvent id fun _ => ⟨rfl, rfl, fun hf => hf⟩
  startOne := fun id h => h.updateEvent id MapEvent.goesOn_startIfAny
  startWhere := fun test h => h.startWhere test
  party := fun _ _ h => ⟨h.lists, h.pending, h.reserved, h.game, h.numbers, h.events⟩

theorem goesOn_refreshMap (s : Session) : Play.refreshMap.Preserves s.GoesOn := by
  have hn : ∀ t notices, s.GoesOn t → s.GoesOn { t with notices } := fun _ _ h =>
    ⟨h.lists, h.pending, h.reserved, h.game, h.numbers, h.events⟩
  refine Play.preserves_getBind_of fun t ht => Play.preserves_readingBind hn fun events hevents => ?_
  refine Play.preserves_modify fun u hu => ⟨hu.lists, hu.pending, hu.reserved, hu.game, ?_, ?_⟩
  · refine Eq.trans ?_ ht.numbers
    exact congrArg OrderedMap.mk (Play.numbers_refreshEvents hevents)
  intro id e'' he''
  obtain ⟨e', he', hrefresh⟩ := Play.find_refreshEvents hevents he''
  obtain ⟨e, he, hlater⟩ := ht.events id e' he'
  exact ⟨e, he, hlater.trans (MapEvent.goesOn_refresh hrefresh)⟩

/-- **What happens on a map leaves the events as they were**, and all that is run. -/
theorem GoesOn.of_stirs {α : Type} {act : Play α} (hact : Play.Stirs act) (s : Session) :
    s.GoesOn (act.after s) :=
  (stirring_goesOn s).of_stirs (goesOn_refreshMap s)
    (fun _ h => ⟨h.lists, h.pending, h.reserved, h.game, h.numbers, h.events⟩)
    (Play.preserves_commonEvents fun _ _ _ h => ⟨h.lists, h.pending, h.reserved, h.game, h.numbers, h.events⟩)
    hact s (.refl s)

end Session

end EventLayer
