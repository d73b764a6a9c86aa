/-
**Erasing an event.**

An event that is erased is marked, and then chooses its page anew: it shows none, whatever the stores
hold, so that nothing has to be read and erasing never fails.

Main definitions:

* `MapEvent.markErased`, `MapEvent.erase` — an event that is marked, and one that shows no page.

Main results:

* `Play.eraseEvent_apply` — **erasing an event changes that event only, and never fails**;
* `Session.event?_erase`, `Session.event?_updateEvent_of_ne` — the events afterwards.
-/
import EventLayer.Proofs.OrderedMap
import EventLayer.Proofs.Preserves
import EventLayer.Session.Setup

set_option autoImplicit false
set_option relaxedAutoImplicit false

namespace EventLayer

/-! ### An erased event -/

namespace MapEvent

variable {e : MapEvent}

/-- Mark an event as erased. -/
def markErased (e : MapEvent) : MapEvent := { e with erased := true }

/-- An event that is erased: it shows no page. -/
def erase (e : MapEvent) : MapEvent :=
  if e.pageIndex = -1 then e.markErased else { e.markErased with pageIndex := -1 }.wearNone

@[simp] theorem erased_erase (e : MapEvent) : e.erase.erased = true := by
  unfold erase
  split
  · rfl
  · rfl

@[simp] theorem pageIndex_erase (e : MapEvent) : e.erase.pageIndex = -1 := by
  unfold erase
  split
  · assumption
  · rfl

theorem duePage_of_erased (h : e.erased = true) (db : Database) (stores : Stores) :
    e.duePage db stores = .ok (-1) := by rw [duePage, if_pos h]

/-- An event that is marked shows no page, and nothing has to be read for it. -/
theorem refresh_markErased (e : MapEvent) (db : Database) (stores : Stores) :
    e.markErased.refresh db stores = pure e.erase := by
  have hdue : e.markErased.duePage db stores = .ok (-1) := duePage_of_erased rfl db stores
  have hbare : showPage { e.markErased with pageIndex := -1 } =
      pure { e.markErased with pageIndex := -1 }.wearNone := rfl
  have hchoice : e.markErased.refresh db stores = (if -1 = e.pageIndex then pure e.markErased
      else showPage { e.markErased with pageIndex := -1 } : Reading MapEvent) := by
    unfold refresh
    rw [hdue]
    change Reading.andThen (pure (-1)) _ = _
    simp only [Reading.andThen, Reading.result_pure, Reading.notices_pure, List.nil_append]
    rfl
  rw [hchoice, erase]
  by_cases hpage : e.pageIndex = -1
  · rw [if_pos hpage, if_pos hpage.symm]
  · rw [if_neg hpage, if_neg (Ne.symm hpage), hbare]

end MapEvent

/-! ### The events afterwards -/

namespace Session

theorem event?_updateEvent (s : Session) (id : Int) (f : MapEvent → MapEvent) :
    (s.updateEvent id f).event? id = (s.event? id).map f := by
  change (s.map.events.modify id f).get? id = _
  rw [OrderedMap.get?_modify, BEq.rfl, if_pos rfl]
  rfl

theorem event?_updateEvent_of_ne {id id' : Int} (h : id ≠ id') (s : Session)
    (f : MapEvent → MapEvent) : (s.updateEvent id f).event? id' = s.event? id' :=
  MapState.event?_update_of_ne h s.map f

theorem character_of_event {s : Session} {id : Int} {e : MapEvent} (h : s.event? id = some e) :
    s.character (.event id) = e.body := by
  rw [character, character?, h]
  rfl

theorem event?_startWhere (test : MapEvent → Bool) (s : Session) (id : Int) :
    (s.startWhere test).event? id = (s.event? id).map fun e => if test e then e.startIfAny else e :=
  OrderedMap.get?_mapValues _ _ _

/-- An event that is not on the map cannot be changed. -/
theorem updateEvent_of_none {s : Session} {id : Int} (h : s.event? id = none)
    (f : MapEvent → MapEvent) : s.updateEvent id f = s := by
  have hnone : s.map.events.get? id = none := h
  rw [updateEvent, MapState.update, OrderedMap.modify, hnone]

/-- Of two changes of an event, the second one to a given event, that event is left. -/
theorem updateEvent_updateEvent_of_some {s : Session} {id : Int} {e : MapEvent}
    {f g : MapEvent → MapEvent} (h : s.event? id = some e) :
    (s.updateEvent id f).updateEvent id (fun _ => g e) = s.updateEvent id g := by
  have hfound : s.map.events.get? id = some e := h
  have hevents : (s.map.events.modify id f).modify id (fun _ => g e) = s.map.events.modify id g := by
    rw [OrderedMap.modify_modify]
    simp only [OrderedMap.modify, hfound]
  simp only [updateEvent, MapState.update, hevents]

end Session

namespace Play

open Session

/-- **Erasing an event changes that event only, and never fails.** -/
theorem eraseEvent_apply (id : Int) (s : Session) :
    eraseEvent id s = .ok () (s.updateEvent id MapEvent.erase) := by
  change (do modify (updateEvent id MapEvent.markErased); refreshEvent id : Play Unit) s = _
  rw [modify_bind_apply, refreshEvent, get_bind_apply, event?_updateEvent]
  cases hfound : s.event? id with
  | none =>
      rw [updateEvent_of_none hfound, updateEvent_of_none hfound]
      rfl
  | some e =>
      have hread : (e.markErased.refresh s.game.database s.stores).result = .ok e.erase := by
        rw [MapEvent.refresh_markErased]
        rfl
      have hnotices : (e.markErased.refresh s.game.database s.stores).notices = [] := by
        rw [MapEvent.refresh_markErased]
        rfl
      change ((liftM (e.markErased.refresh s.game.database s.stores) : Play MapEvent) >>= fun e' =>
        modify (updateEvent id fun _ => e')) (s.updateEvent id MapEvent.markErased) = _
      rw [bind_of_ok (lift_reading_of_ok hread _), hnotices, List.append_nil, modify_apply]
      exact congrArg _ (updateEvent_updateEvent_of_some hfound)

end Play

end EventLayer
