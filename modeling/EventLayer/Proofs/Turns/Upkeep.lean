/-
**What every event keeps.**

An event is changed in few ways: it moves, it rests, it is started and begins to run, it is put on a
route, it is erased, and its page is chosen anew.  A map that is set up reads its events from a file.  A
property of single events that these changes leave is had by all events of the map, whatever is done in a
game; and one event of the map keeps what the changes leave that a part of a frame makes.

Main definitions:

* `MapEvent.Upheld` — properties of an event that its changes leave;
* `Session.EveryEvent`, `Session.EventIs` — all events of the map have a property, or the one under a number
  has.

Main results:

* `Play.Sustained.of_events`, `Play.startWaiting_of_events` — the runs of command lists, and their
  beginnings;
* `Session.Does.everyEvent`, `Session.Course.everyEvent` — **what the changes of an event leave, every
  turn leaves for all events**;
* `Play.acting_event?` — a frame of another event leaves an event alone.
-/
import EventLayer.Proofs.Turns.Queues

set_option autoImplicit false
set_option relaxedAutoImplicit false

namespace EventLayer

/-- A property of an event that its changes leave, and that an event from a map file has. -/
structure MapEvent.Upheld (Q : MapEvent → Prop) : Prop where
  adjust : ∀ {e : MapEvent} {f : Character → Character}, Character.Adjusts f → Q e →
    Q { e with body := f e.body }
  step : ∀ {e : MapEvent} (d : Int), Q e → Q { e with body := Session.stepped e.body d }
  rest : ∀ {e : MapEvent} (n : Nat), Q e → Q { e with stopCount := n }
  startIfAny : ∀ {e : MapEvent}, Q e → Q e.startIfAny
  clearStarting : ∀ {e : MapEvent}, Q e → Q e.clearStarting
  force : ∀ {e : MapEvent} (route : Option Route), Q e → Q { e with body := e.body.forceRoute route }
  erase : ∀ {e : MapEvent}, Q e → Q e.erase
  refresh : ∀ {e e' : MapEvent} {db : Database} {stores : Stores}, Q e →
    (e.refresh db stores).result = .ok e' → Q e'
  read : ∀ {map : Int} {fields : List (String × Json)} {db : Database} {stores : Stores} {e : MapEvent},
    (MapEvent.ofFields map fields db stores).result = .ok e → Q e

namespace Session

/-- All events of the map have a property. -/
def EveryEvent (Q : MapEvent → Prop) (s : Session) : Prop := ∀ id e, s.event? id = some e → Q e

variable {Q : MapEvent → Prop} {s t : Session}

theorem EveryEvent.of_events (hs : s.EveryEvent Q) (h : t.map.events = s.map.events) : t.EveryEvent Q :=
  fun id e he => hs id e ((congrArg (OrderedMap.get? · id) h).symm.trans he)

theorem EveryEvent.updateEvent (hs : s.EveryEvent Q) (id : Int) {f : MapEvent → MapEvent}
    (hf : ∀ e, Q e → Q (f e)) : (s.updateEvent id f).EveryEvent Q := by
  intro id' e' he'
  by_cases hid : id = id'
  · subst hid
    rw [event?_updateEvent] at he'
    obtain ⟨e, he, rfl⟩ := Option.map_eq_some_iff.mp he'
    exact hf e (hs id e he)
  · rw [event?_updateEvent_of_ne hid] at he'
    exact hs id' e' he'

theorem EveryEvent.updateCharacter (hs : s.EveryEvent Q) (who : CharacterId) {f : Character → Character}
    (hf : ∀ e, Q e → Q { e with body := f e.body }) : (s.updateCharacter who f).EveryEvent Q := by
  cases who with
  | event id => exact hs.updateEvent id hf
  | player => exact hs
  | follower place => exact hs

theorem EveryEvent.startWhere (hs : s.EveryEvent Q) (test : MapEvent → Bool)
    (hstart : ∀ e, Q e → Q e.startIfAny) : (s.startWhere test).EveryEvent Q := by
  intro id e' he'
  obtain ⟨e, he, rfl⟩ := Option.map_eq_some_iff.mp ((event?_startWhere test s id).symm.trans he')
  split
  · exact hstart e (hs id e he)
  · exact hs id e he

/-- The event under a number has a property. -/
def EventIs (id : Int) (Q : MapEvent → Prop) (s : Session) : Prop := ∃ e, s.event? id = some e ∧ Q e

variable {id : Int}

theorem EventIs.of_events (hs : s.EventIs id Q) (h : t.map.events = s.map.events) : t.EventIs id Q := by
  obtain ⟨e, he, hQ⟩ := hs
  exact ⟨e, (congrArg (OrderedMap.get? · id) h).trans he, hQ⟩

theorem EventIs.updateEvent (hs : s.EventIs id Q) (id' : Int) {f : MapEvent → MapEvent}
    (hf : ∀ e, Q e → Q (f e)) : (s.updateEvent id' f).EventIs id Q := by
  obtain ⟨e, he, hQ⟩ := hs
  by_cases hid : id' = id
  · subst hid
    exact ⟨f e, by rw [event?_updateEvent, he, Option.map_some], hf e hQ⟩
  · exact ⟨e, by rw [event?_updateEvent_of_ne hid, he], hQ⟩

theorem EventIs.updateCharacter (hs : s.EventIs id Q) (who : CharacterId) {f : Character → Character}
    (hf : ∀ e, Q e → Q { e with body := f e.body }) : (s.updateCharacter who f).EventIs id Q := by
  cases who with
  | event id' => exact hs.updateEvent id' hf
  | player => exact hs
  | follower place => exact hs

theorem EventIs.startWhere (hs : s.EventIs id Q) (test : MapEvent → Bool)
    (hstart : ∀ e, Q e → Q e.startIfAny) : (s.startWhere test).EventIs id Q := by
  obtain ⟨e, he, hQ⟩ := hs
  refine ⟨if test e then e.startIfAny else e, by rw [event?_startWhere, he, Option.map_some], ?_⟩
  split
  · exact hstart e hQ
  · exact hQ

end Session

namespace Play

open Session

variable {Q : MapEvent → Prop} {s t : Session}

/-! ### Command lists -/

section Events

variable {P : Session → Prop} (hsame : ∀ {s t : Session}, P s → t.map.events = s.map.events → P t)

include hsame

/-- Of the events, the runs of command lists change those that are put on a route and those that are
erased. -/
theorem Sustained.of_events
    (hforce : ∀ {s : Session} (who : CharacterId) (route : Option Route), P s →
      P (s.updateCharacter who (·.forceRoute route)))
    (herase : ∀ {s : Session} (id : Int), P s → P (s.updateEvent id MapEvent.erase)) : Sustained P := by
  refine Enduring.sustained ?_ (fun _ hs => hsame hs rfl) fun _ hs => hsame hs rfl
  exact
    { aside := fun _ _ _ _ hs _ => hsame hs rfl
      setSwitch := fun _ _ hs => hsame hs rfl
      setVariable := fun _ _ hs => hsame hs rfl
      setSelfSwitch := fun _ _ hs => hsame hs rfl
      requestRefresh := fun hs => hsame hs rfl
      recordOrigin := fun _ _ _ hs => hsame hs rfl
      setBehavior := fun _ hs => hsame hs rfl
      gain := fun _ _ ht => hsame ht rfl
      onFrame := fun _ _ _ hs => hsame hs rfl
      setReserved := fun _ hs => hsame hs rfl
      forceRoute := hforce
      await := fun _ _ hs => hsame hs rfl
      eraseEvent := fun id s hs => by
        rw [after_of_ok (eraseEvent_apply id s)]
        exact herase id hs }

theorem commonEvents_of_events : commonEvents.Preserves P := preserves_commonEvents fun _ _ _ hs => hsame hs rfl

/-- Of the events, the beginning of a list changes the one whose list it is. -/
theorem begins_of_events
    (hclear : ∀ {s : Session} (id : Int), P s → P (s.updateEvent id MapEvent.clearStarting)) {b : Begun}
    (h : s.Begins b t) (hs : P s) : P t := by
  have hsetup : ∀ (list : Json) (event : Int) (u : Session), P u →
      P ((setupInterpreter list event).after u) := fun list event u hu =>
    hsame hu (congrArg MapState.events (map_setupInterpreter list event u))
  have hpassed : P s.passed := hsame hs rfl
  cases h with
  | pending _ => exact hsetup _ _ _ (hsame hs rfl)
  | reserved _ _ _ => exact hsetup _ _ _ hpassed
  | event _ _ => exact hsetup _ _ _ (hclear _ hpassed)
  | autorun _ _ _ => exact hsetup _ _ _ hpassed
  | common _ _ _ _ => exact hsetup _ _ _ (commonEvents_of_events hsame _ hpassed)

theorem startWaiting_of_events
    (hclear : ∀ {s : Session} (id : Int), P s → P (s.updateEvent id MapEvent.clearStarting)) :
    startWaiting.Preserves P := by
  intro s hs
  rcases startWaiting_cases s with ⟨b, hbegins⟩ | ⟨-, hleft⟩
  · exact begins_of_events hsame hclear hbegins hs
  · rw [hleft]
    exact commonEvents_of_events hsame _ (hsame hs rfl)

end Events

/-! ### All events -/

/-- **A run of command lists keeps what the changes of an event leave.** -/
theorem sustained_everyEvent (h : MapEvent.Upheld Q) : Sustained (EveryEvent Q) :=
  .of_events (fun hs hsame => hs.of_events hsame)
    (fun who route hs => hs.updateCharacter who fun _ => h.force route)
    fun id hs => hs.updateEvent id fun _ => h.erase

theorem stirring_everyEvent (h : MapEvent.Upheld Q) : Stirring (EveryEvent Q) where
  aside := fun _ _ _ _ hs => hs
  adjust := fun who _ hf hs => hs.updateCharacter who fun _ => h.adjust hf
  step := fun who d hs => hs.updateCharacter who fun _ => h.step d
  rest := fun id n hs => hs.updateEvent id fun _ => h.rest n
  startOne := fun id hs => hs.updateEvent id fun _ => h.startIfAny
  startWhere := fun test hs => hs.startWhere test fun _ => h.startIfAny
  party := fun _ _ hs => hs

theorem refreshMap_everyEvent (h : MapEvent.Upheld Q) : refreshMap.Preserves (EveryEvent Q) := by
  refine preserves_getBind_of fun s hs => preserves_readingBind (fun _ _ ht => ht) fun events hevents => ?_
  refine preserves_modify fun _ _ id e' he' => ?_
  obtain ⟨e, he, hrefresh⟩ := find_refreshEvents hevents he'
  exact h.refresh (hs id e he) hrefresh

/-! ### Maps and games -/

theorem everyEvent_readEvents (h : MapEvent.Upheld Q) {map : Int} {db : Database} {stores : Stores}
    {events found : OrderedMap Int MapEvent} {entries : List Json}
    (hevents : ∀ id e, events.get? id = some e → Q e)
    (hread : (readEvents map db stores events entries).result = .ok found) :
    ∀ id e, found.get? id = some e → Q e := by
  induction entries generalizing events with
  | nil =>
      cases hread
      exact hevents
  | cons entry rest ih =>
      rcases readEvents_cons hread with ⟨-, hread⟩ | ⟨_, new, -, -, hnew, hread⟩
      · exact ih hevents hread
      · refine ih (fun id e he => ?_) hread
        rw [OrderedMap.get?_insert] at he
        split at he
        · cases he
          exact h.read hnew
        · exact hevents id e he

/-- A map that is set up reads its events from its file. -/
theorem everyEvent_of_arrives (h : MapEvent.Upheld Q) {α : Type} {act : Play α} (hact : Arrives act) :
    act.Preserves (EveryEvent Q) :=
  have hnone : ∀ id e, (∅ : OrderedMap Int MapEvent).get? id = some e → Q e := fun _ _ he => by cases he
  events_of_arrives (R := fun events => ∀ id e, events.get? id = some e → Q e) hnone
    (everyEvent_readEvents h hnone) hact

/-! ### One event -/

/-- **A frame of another event leaves an event alone.** -/
theorem acting_event? {id id' : Int} (hid : id' ≠ id) (found : Option MapEvent) :
    Acting id' fun t => t.event? id = found where
  roaming :=
    { aside := fun _ _ _ _ hs => hs
      adjust := fun _ hs => (event?_updateEvent_of_ne hid _ _).trans hs
      moveStraight := fun {s d} _ hs => by
        have hleft : ∀ {u : Session} (f : MapEvent → MapEvent), u.event? id = found →
            (u.updateEvent id' f).event? id = found := fun f hu => (event?_updateEvent_of_ne hid _ f).trans hu
        simp only [Act.moveStraight]
        split
        · exact hleft _ hs
        · simp only [Session.touch, eventTouch]
          split
          · exact hleft _ hs
          · split
            · split
              · exact hleft _ (hleft _ hs)
              · exact hleft _ hs
            · exact hleft _ hs
      somewhere := fun _ _ => trivial }
  rest := fun _ hs => (event?_updateEvent_of_ne hid _ _).trans hs

end Play

/-! ### Turns -/

namespace Session

variable {Q : MapEvent → Prop} {s t : Session} {k : Doing}

/-- **What the changes of an event leave, a turn leaves for all events.** -/
theorem Does.everyEvent (h : MapEvent.Upheld Q) (hdoes : Does k s t) (hs : s.EveryEvent Q) :
    t.EveryEvent Q := by
  have hlists := Play.sustained_everyEvent h
  cases hdoes with
  | command d _ _ _ => exact hlists.step d s hs
  | wait d _ => exact hlists.waits d s hs
  | drop d _ => exact hs
  | begin _ hbegins =>
      refine Play.begins_of_events (fun hu hsame => hu.of_events hsame) (fun id hu => ?_) hbegins hs
      exact hu.updateEvent id fun _ => h.clearStarting
  | pass _ => exact hs
  | reserve _ => exact hs
  | stir hact =>
      exact (Play.stirring_everyEvent h).of_stirs (Play.refreshMap_everyEvent h) (fun _ ht => ht)
        (Play.commonEvents_of_events fun hu hsame => hu.of_events hsame) hact s hs
  | erase id =>
      rw [Play.after_of_ok (Play.eraseEvent_apply id s)]
      exact hs.updateEvent id fun _ => h.erase
  | force who route => exact hs.updateCharacter who fun _ => h.force route
  | arrive hact => exact Play.everyEvent_of_arrives h hact s hs
  | aside hmap _ _ _ => exact hs.of_events (congrArg MapState.events hmap)

theorem Course.everyEvent (h : MapEvent.Upheld Q) {l : List Turn} (hcourse : s.Course l t)
    (hs : s.EveryEvent Q) : t.EveryEvent Q := by
  induction hcourse with
  | nil => exact hs
  | snoc _ hdoes ih => exact hdoes.everyEvent h ih

end Session

end EventLayer
