/-
**What happens on a map.**

Characters move, pages are chosen and events are started, while no command is carried out.  All this is
made of few writes: of a character that takes a step or is changed otherwise, of an event that rests or is
started, of the followers and of the region that the player was last seen in.  A property that these
writes leave, and the choice of pages, is left by whatever happens on the map.

Main definitions:

* `Play.Stirring` — properties that these writes leave;
* `Play.Acting`, `Play.Visiting` — properties that those of an event leave, and those of the player;
* `Play.Stirs` — operations that move characters, choose pages and start events.

Main results:

* `Play.Acting.advanceEvent`, `Play.Visiting.advancePlayer` — frames of an event, and of the player;
* `Play.Stirring.moveStraight`, `Play.Stirring.walk` — steps and routes;
* `Play.Stirring.of_stirs` — **what happens on a map keeps such a property**.
-/
import EventLayer.Proofs.Movement.Roaming
import EventLayer.Session.Run

set_option autoImplicit false
set_option relaxedAutoImplicit false

namespace EventLayer

namespace Play

open Session Character

/-- A property of sessions that the single writes leave of what happens on a map. -/
structure Stirring (P : Session → Prop) : Prop where
  aside : ∀ {s : Session} (draws : Draws) (balloons : List (CharacterId × Int)) (audio : List Sound)
    (notices : List Notice), P s →
      P { s with draws, scratch.balloons := balloons, audio := audio, notices := notices }
  adjust : ∀ {s : Session} (who : CharacterId) {f : Character → Character}, Adjusts f → P s →
    P (s.updateCharacter who f)
  step : ∀ {s : Session} (who : CharacterId) (d : Int), P s →
    P (s.updateCharacter who fun c => stepped c d)
  rest : ∀ {s : Session} (id : Int) (n : Nat), P s →
    P (s.updateEvent id fun e => { e with stopCount := n })
  startOne : ∀ {s : Session} (id : Int), P s → P (s.updateEvent id MapEvent.startIfAny)
  startWhere : ∀ {s : Session} (test : MapEvent → Bool), P s → P (s.startWhere test)
  party : ∀ {s : Session} (followers : List Character) (region : Int), P s →
    P { s with player := { s.player with followers := followers, lastRegion := region } }

/-- Operations that move characters, choose pages and start events.  They leave the command lists alone,
and what waits to be run. -/
inductive Stirs : {α : Type} → Play α → Prop
  | refreshMap : Stirs refreshMap
  | requestRefresh : Stirs (modify Session.requestRefresh)
  | commonEvents : Stirs commonEvents
  | advanceEvent (id : Int) : Stirs (advanceEvent id)
  | walk (who : CharacterId) : Stirs (walk who)
  | moveStraight (who : CharacterId) (d : Int) : Stirs (Act.moveStraight who d : Play Bool)
  | moveRandom (who : CharacterId) : Stirs (Act.moveRandom who : Play Bool)
  | moveForward (who : CharacterId) : Stirs (Act.moveForward who : Play Bool)
  | moveToward (who other : CharacterId) : Stirs (Act.moveToward who other : Play Bool)
  | moveAway (who other : CharacterId) : Stirs (Act.moveAway who other : Play Bool)
  | takeMoved (who : CharacterId) : Stirs (Act.takeMoved who : Play Bool)
  | startWhere (test : MapEvent → Bool) : Stirs (modify (Session.startWhere test))
  | touchHere : Stirs touchHere
  | touchFollowers : Stirs touchFollowers
  | regionChanged : Stirs regionChanged

/-- A frame of an event that was found under a number. -/
def turnOf (id : Int) (b : RouteBehavior) (e : MapEvent) : Play Unit := do
  if e.erased then return
  if e.body.forcing then Play.walk (.event id)
  else if b = .freeze then return
  else Play.updateOwnMovement e

theorem advanceEvent_of_event {s : Session} {id : Int} {e : MapEvent} (h : s.event? id = some e) :
    Play.advanceEvent id s = turnOf id s.stores.behavior e s := by
  rw [Play.advanceEvent, get_bind_apply, h]
  rfl

/-- A property of sessions that the movements of an event leave, and its rests. -/
structure Acting (id : Int) (P : Session → Prop) : Prop where
  roaming : Roaming (.event id) (fun _ => True) P
  rest : ∀ {s : Session} (n : Nat), P s → P (s.updateEvent id fun e => { e with stopCount := n })

namespace Acting

variable {P : Session → Prop} {s : Session} {id : Int} {e : MapEvent}

theorem walk (h : Acting id P) : (Play.walk (.event id)).Preserves P :=
  fun _ hs => h.roaming.walk (fun _ _ => trivial) hs

theorem moveOnItsOwn (h : Acting e.id P) : (Play.moveOnItsOwn e).Preserves P := by
  unfold Play.moveOnItsOwn
  split
  · exact (preserves_act fun _ hs => h.roaming.moveRandom hs).discard
  · split
    · exact (preserves_act fun _ hs => h.roaming.moveTowardPlayer hs).discard
    · exact h.walk.ite (preserves_pure ())

theorem updateOwnMovement (h : Acting e.id P) : (Play.updateOwnMovement e).Preserves P := by
  have hrested : ∀ n : Nat,
      (modify (Session.updateEvent e.id fun e => { e with stopCount := n }) :
        Play PUnit).Preserves P :=
    fun n => preserves_modify fun _ hs => h.rest n hs
  refine (preserves_pure ()).ite ?_
  dsimp only
  exact (hrested _).ite ((hrested 0).bind fun _ => h.moveOnItsOwn)

/-- **A frame of an event keeps what its movements and rests keep.**  Moving on its own, the event is
looked for under the number that it has itself. -/
theorem advanceEvent (h : Acting id P) (hown : ∀ e, s.event? id = some e → Acting e.id P) (hs : P s) :
    P ((Play.advanceEvent id).after s) := by
  cases hfound : s.event? id with
  | none =>
      have hnone : Play.advanceEvent id s = .ok () s := by
        rw [Play.advanceEvent, get_bind_apply, hfound]
        rfl
      rw [after_of_ok hnone]
      exact hs
  | some e =>
      have hkeeps : (turnOf id s.stores.behavior e).Preserves P := by
        refine (preserves_pure ()).ite (h.walk.ite ?_)
        exact (preserves_pure ()).ite (hown e hfound).updateOwnMovement
      rw [after, advanceEvent_of_event hfound]
      exact hkeeps s hs

end Acting

/-- A property of sessions that the movements of the player leave, and what an arrival writes. -/
structure Visiting (P : Session → Prop) : Prop where
  roaming : Roaming .player (fun _ => True) P
  startWhere : ∀ {s : Session} (test : MapEvent → Bool), P s → P (s.startWhere test)
  party : ∀ {s : Session} (followers : List Character) (region : Int), P s →
    P { s with player := { s.player with followers := followers, lastRegion := region } }

namespace Visiting

variable {P : Session → Prop}

/-- The player does no more to the events than to start some of them. -/
theorem of_events (hsame : ∀ {s t : Session}, P s → t.map.events = s.map.events → P t)
    (hstart : ∀ {s : Session} (test : MapEvent → Bool), P s → P (s.startWhere test)) : Visiting P where
  roaming :=
    { aside := fun _ _ _ _ hs => hsame hs rfl
      adjust := fun _ hs => hsame hs rfl
      moveStraight := fun {s d} _ hs => by
        simp only [Act.moveStraight]
        split
        · exact hsame hs rfl
        · have hstuck : P (s.updateCharacter .player fun c => stuck c d) := hsame hs rfl
          simp only [Session.touch, playerTouch]
          split
          · exact hstuck
          · exact hstart _ hstuck
      somewhere := fun _ _ => trivial }
  startWhere := hstart
  party := fun _ _ hs => hsame hs rfl

theorem touchHere (h : Visiting P) : Play.touchHere.Preserves P := by
  refine preserves_modify fun s hs => ?_
  split
  · exact hs
  · exact h.startWhere _ hs

theorem touchFollowers (h : Visiting P) : Play.touchFollowers.Preserves P := by
  refine preserves_modify fun s hs => ?_
  split
  · exact hs
  · exact h.startWhere _ (h.party _ s.player.lastRegion hs)

theorem regionChanged (h : Visiting P) : Play.regionChanged.Preserves P := by
  have hregion : playerRegion.Preserves P := preserves_getBind fun _ => preserves_except _
  refine hregion.bind fun region => preserves_getBind fun s => ?_
  exact Preserves.bind (preserves_modify fun t ht => h.party t.player.followers region ht) fun _ =>
    preserves_pure _

section Regions

variable (h : Visiting P) (hcommons : Play.commonEvents.Preserves P)
  (hreserve : ∀ (s : Session) (id : Int), P s → P (s.reserve id))

include h hcommons hreserve

/-- Entering a region starts events and lets common events wait. -/
theorem enterRegion (region : Option Int) : (Play.enterRegion region).Preserves P := by
  have hreserveAll : ∀ commons : List CommonEvent, (Play.reserveAll commons).Preserves P := by
    intro commons
    induction commons with
    | nil => exact preserves_pure ()
    | cons c rest ih =>
        refine (preserves_except _).bind fun id => ?_
        exact Preserves.bind (preserves_modify fun s hs => hreserve s id hs) fun _ => ih
  have hentries : (Play.regionEntries region).Preserves P :=
    preserves_getBind fun _ => hcommons.bind fun _ => preserves_pure _
  refine preserves_getBind fun _ => (preserves_pure ()).ite (hentries.bind fun found => ?_)
  exact Preserves.bind (preserves_modify fun _ hs => h.startWhere _ hs) fun _ => hreserveAll _

theorem arrive : Play.arrive.Preserves P := by
  refine preserves_getBind fun _ => (preserves_pure ()).ite ?_
  refine h.touchHere.bind fun _ => h.touchFollowers.bind fun _ => h.regionChanged.bind fun _ => ?_
  exact Preserves.ite (preserves_getBind fun _ => h.enterRegion hcommons hreserve _) (preserves_pure ())

/-- **A frame of the player keeps what its movements and arrivals keep.** -/
theorem advancePlayer : Play.advancePlayer.Preserves P := by
  have hrest : (do if ← Act.takeMoved .player then Play.arrive : Play Unit).Preserves P :=
    (preserves_act fun _ hs => h.roaming.takeMoved hs).bind fun _ =>
      (h.arrive hcommons hreserve).ite (preserves_pure ())
  refine preserves_getBind fun s => ?_
  split
  · exact Preserves.bind (fun _ hs => h.roaming.walk (fun _ _ => trivial) hs) fun _ => hrest
  · exact hrest

end Regions

end Visiting

namespace Stirring

variable {α : Type} {P : Session → Prop} {s : Session}

/-! ### Steps -/

theorem touch (h : Stirring P) (hs : P s) (who : CharacterId) (p : Point) : P (s.touch who p) := by
  cases who with
  | follower place => exact hs
  | player =>
      simp only [Session.touch, playerTouch]
      split
      · exact hs
      · exact h.startWhere _ hs
  | event id =>
      simp only [Session.touch, eventTouch]
      split
      · exact hs
      · split
        · split
          · exact h.startOne _ hs
          · exact hs
        · exact hs

theorem afterStep (h : Stirring P) (hs : P s) (who : CharacterId) : P (s.afterStep who) := by
  cases who with
  | player => exact h.party _ s.player.lastRegion hs
  | event id => exact hs
  | follower place => exact hs

theorem moveStraight (h : Stirring P) (hs : P s) (who : CharacterId) (d : Int) :
    P (Act.moveStraight who d s).2 := by
  simp only [Act.moveStraight]
  split
  · exact h.afterStep (h.step who d hs) who
  · exact h.touch (h.adjust who (adjusts_stuck d) hs) who _

theorem roaming (h : Stirring P) (who : CharacterId) : Roaming who (fun _ => True) P where
  aside := h.aside
  adjust := h.adjust who
  moveStraight := fun _ hs => h.moveStraight hs who _
  somewhere := fun _ _ => trivial

/-- **A frame of a route keeps what steps keep.** -/
theorem walk (h : Stirring P) (who : CharacterId) : (Play.walk who).Preserves P :=
  fun _ hs => (h.roaming who).walk (fun _ _ => trivial) hs

theorem acting (h : Stirring P) (id : Int) : Acting id P := ⟨h.roaming _, h.rest id⟩

/-- **A frame of an event keeps what single writes keep.** -/
theorem advanceEvent (h : Stirring P) (id : Int) : (Play.advanceEvent id).Preserves P :=
  fun _ hs => (h.acting id).advanceEvent (fun e _ => h.acting e.id) hs

/-! ### The player -/

theorem visiting (h : Stirring P) : Visiting P := ⟨h.roaming .player, h.startWhere, h.party⟩

/-! ### All of it -/

/-- **What happens on a map keeps what its single writes keep.** -/
theorem of_stirs (h : Stirring P) (hrefresh : Play.refreshMap.Preserves P)
    (hasked : ∀ s : Session, P s → P s.requestRefresh) (hcommons : Play.commonEvents.Preserves P)
    {act : Play α} (hact : Stirs act) : act.Preserves P := by
  cases hact with
  | refreshMap => exact hrefresh
  | requestRefresh => exact preserves_modify hasked
  | commonEvents => exact hcommons
  | advanceEvent id => exact h.advanceEvent id
  | walk who => exact h.walk who
  | moveStraight who d => exact preserves_act fun _ hs => h.moveStraight hs who d
  | moveRandom who => exact preserves_act fun _ hs => (h.roaming who).moveRandom hs
  | moveForward who => exact preserves_act fun _ hs => (h.roaming who).moveForward hs
  | moveToward who other => exact preserves_act fun _ hs => (h.roaming who).moveTowardPoint hs _
  | moveAway who other => exact preserves_act fun _ hs => (h.roaming who).moveAwayFromPoint hs _
  | takeMoved who => exact preserves_act fun _ hs => (h.roaming who).takeMoved hs
  | startWhere test => exact preserves_modify fun _ hs => h.startWhere test hs
  | touchHere => exact h.visiting.touchHere
  | touchFollowers => exact h.visiting.touchFollowers
  | regionChanged => exact h.visiting.regionChanged

end Stirring

end Play

end EventLayer
