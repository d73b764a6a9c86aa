/-
**Frames in lockstep.**

A frame runs command lists, begins others, and moves the events and the player.  Beyond what
characters do, a relation has to survive a run of the command lists, the beginning of a list, the
choice of pages, the reading of the common events, and that a list that map setup queued leaves the
queue.  A relation that survives these is kept by a whole frame.

Main definitions:

* `Session.popped` — the first list that map setup queued has left the queue;
* `Play.refreshIfAsked`, `Play.startWaiting` — the two halves of what begins next;
* `Play.Beginning`, `Play.Framed` — relations that the beginning of a list keeps, and that every part
  of a frame keeps.

Main results:

* `Play.Beginning.startWaiting`, `Play.Framed.runLists` — beginning and running lists;
* `Play.Framed.arrive`, `Play.Framed.advancePlayer` — the player;
* `Play.Framed.advance` — **a frame is in lockstep**.
-/
import EventLayer.Proofs.Lockstep.Moves
import EventLayer.Session.Run

set_option autoImplicit false
set_option relaxedAutoImplicit false

namespace EventLayer

/-- A session in which the first list that map setup queued has left the queue. -/
def Session.popped (s : Session) : Session := { s with map.pending := s.map.pending.tail }

namespace Play

open Session

/-- Choose the pages anew if that was asked for. -/
def refreshIfAsked : Play Unit := do
  if (← get).map.needsRefresh then refreshMap

/-- Begin the command list that comes next on the pages that are shown; whether there is one. -/
def startWaiting : Play Bool := do
  if ← startPending then return true
  if ← startReserved then return true
  if ← startEvent then return true
  if ← startAutorun then return true
  startCommon (← commonEvents)

theorem startNext_eq : startNext = (do refreshIfAsked; startWaiting : Play Bool) := by
  funext s
  rw [startNext, get_bind_apply, bind_apply, refreshIfAsked, get_bind_apply]
  split
  · rw [bind_apply]
    rfl
  · rfl

theorem advanceMap_eq : advanceMap = (do
    refreshIfAsked
    advanceLists
    advanceEvents ((← get).map.eventList.map (·.id)) : Play Unit) := by
  funext s
  rw [advanceMap, get_bind_apply, bind_apply, refreshIfAsked, get_bind_apply]
  split
  · rw [bind_apply]
  · rfl

/-- A relation that the beginning of a list keeps; a failure leaves the sessions in a second
relation. -/
structure Beginning (R E : Session → Session → Prop) : Prop extends Faithful R where
  fails : ∀ {s t : Session}, R s t → E s t
  popped : ∀ {s t : Session}, R s t → R s.popped t.popped
  commonEvents : Play.commonEvents.Lockstep R R E
  setupInterpreter : ∀ (list : Json) (event : Int), (Play.setupInterpreter list event).Lockstep R R E

/-- A relation that the other parts of a frame keep as well. -/
structure Framed (R E : Session → Session → Prop) : Prop extends Beginning R E where
  refreshMap : Play.refreshMap.Lockstep R R E
  runInterpreter : Play.runInterpreter.Lockstep R R E

namespace Beginning

variable {α : Type} {R E : Session → Session → Prop}

/-- What is in lockstep even where it fails. -/
theorem ofEasy (h : Beginning R E) {x : Play α} (hx : x.Lockstep R R R) : x.Lockstep R R E :=
  hx.mono (fun _ _ hst => hst) (fun _ _ hst => hst) fun _ _ hst => h.fails hst

theorem lift (h : Beginning R E) (r : Except Fault α) : (liftM r : Play α).Lockstep R R E :=
  h.ofEasy (lockstep_lift r)

theorem quietly (h : Beginning R E) {g : Session → Session} (hg : Quiet g) :
    (modify g : Play PUnit).Lockstep R R E :=
  h.ofEasy (h.toFaithful.quietly hg)

/-- A sequence that begins with a look at what is shown. -/
theorem look (h : Beginning R E) {β : Type} {f : Session → Play β}
    (hf : ∀ s : Session, f s.seen = f s) (hrest : ∀ s, (f s).Lockstep R R E) :
    (get >>= f : Play β).Lockstep R R E := by
  refine lockstep_getBind (fun s t hst => ?_) hrest
  rw [← hf s, h.seen hst, hf t]

/-! ### Beginning lists -/

/-- Begin a list, and say that one has begun. -/
theorem begin (h : Beginning R E) (list : Json) (event : Int) :
    (do
      Play.setupInterpreter list event
      return true : Play Bool).Lockstep R R E :=
  (h.setupInterpreter list event).bind fun _ => lockstep_value _

/-- The list that is begun is taken from the front of the queue. -/
theorem startPending_apply (s : Session) :
    Play.startPending s = (do
      match (← get).map.pending with
      | [] => return false
      | run :: _ =>
        modify Session.popped
        Play.setupInterpreter run.list run.event
        return true : Play Bool) s := by
  rw [Play.startPending, get_bind_apply, get_bind_apply]
  cases hp : s.map.pending with
  | nil => rfl
  | cons run rest =>
      have htail : { s with map.pending := rest } = s.popped := by rw [Session.popped, hp]; rfl
      dsimp only
      rw [modify_bind_apply, modify_bind_apply, htail]

theorem startPending (h : Beginning R E) : Play.startPending.Lockstep R R E := by
  refine Lockstep.congr (h.look (fun _ => rfl) fun s => ?_) startPending_apply
  split
  · exact lockstep_value _
  · exact Lockstep.bind (lockstep_modify fun s t => h.popped (s := s)) fun _ => h.begin _ _

theorem startReserved (h : Beginning R E) : Play.startReserved.Lockstep R R E := by
  refine h.look (fun _ => rfl) fun s => ?_
  split
  · exact lockstep_value _
  · refine Lockstep.bind (h.quietly ?_) fun _ => h.look (fun _ => rfl) fun s => ?_
    · exact ⟨fun _ => rfl, fun _ => ⟨rfl, rfl⟩⟩
    · dsimp only
      split
      · exact lockstep_value _
      · exact h.begin _ _

theorem startEvent (h : Beginning R E) : Play.startEvent.Lockstep R R E := by
  refine h.look (fun _ => rfl) fun s => ?_
  split
  · exact lockstep_value _
  · refine Lockstep.bind (h.quietly ?_) fun _ => h.begin _ _
    exact quiet_updateEvent (f := MapEvent.clearStarting) (fun _ => rfl) _

theorem startAutorun (h : Beginning R E) : Play.startAutorun.Lockstep R R E := by
  refine h.look (fun _ => rfl) fun s => ?_
  split
  · exact lockstep_value _
  · exact h.begin _ _

theorem switchValue_seen (s : Session) (slot : SlotRef) :
    s.seen.switchValue slot = s.switchValue slot := by
  have hresolve : ∀ d, s.seen.resolve d = s.resolve d := fun d => by cases d <;> rfl
  have hscope : s.seen.currentScope = s.currentScope := by
    have hscopes : s.seen.scopes = s.scopes := rfl
    have hactive : s.seen.active = s.active := rfl
    rw [currentScope, currentScope, hscopes, hactive]
    cases s.scopes with
    | cons scope rest => rfl
    | nil =>
        cases s.active with
        | none => rfl
        | some d => exact hresolve d
  rw [switchValue, switchValue, hscope]
  rfl

theorem isAutorun (h : Beginning R E) (c : CommonEvent) : (Play.isAutorun c).Lockstep R R E := by
  refine h.look (fun s => ?_) fun s => (lockstep_value _).ite ?_
  · have hswitch : s.seen.switchValue = s.switchValue := funext (switchValue_seen s)
    have hgame : s.seen.game = s.game := rfl
    simp only [hswitch, hgame]
  · dsimp only
    split
    · exact lockstep_value _
    · exact (h.lift _).bind fun _ => lockstep_value _

theorem startCommon (h : Beginning R E) (commons : List CommonEvent) :
    (Play.startCommon commons).Lockstep R R E := by
  induction commons with
  | nil => exact lockstep_value _
  | cons c rest ih =>
      refine (h.isAutorun c).bind fun runs => Lockstep.ite ?_ ih
      exact h.look (fun _ => rfl) fun s => h.begin _ _

/-- **The list that begins next is the same in both runs.** -/
theorem startWaiting (h : Beginning R E) : Play.startWaiting.Lockstep R R E := by
  refine h.startPending.bind fun _ => (lockstep_value _).ite ?_
  refine h.startReserved.bind fun _ => (lockstep_value _).ite ?_
  refine h.startEvent.bind fun _ => (lockstep_value _).ite ?_
  refine h.startAutorun.bind fun _ => (lockstep_value _).ite ?_
  exact h.commonEvents.bind fun commons => h.startCommon commons

end Beginning

namespace Framed

variable {R E : Session → Session → Prop}

theorem refreshIfAsked (h : Framed R E) : Play.refreshIfAsked.Lockstep R R E :=
  h.look (fun _ => rfl) fun _ => h.refreshMap.ite (lockstep_value ())

theorem startNext (h : Framed R E) : Play.startNext.Lockstep R R E := by
  rw [startNext_eq]
  exact h.refreshIfAsked.bind fun _ => h.startWaiting

theorem runLists (h : Framed R E) (rounds : Nat) : (Play.runLists rounds).Lockstep R R E := by
  induction rounds with
  | zero => exact lockstep_value ()
  | succ rounds ih =>
      refine h.runInterpreter.bind fun _ => h.look (fun _ => rfl) fun s => (lockstep_value ()).ite ?_
      exact h.startNext.bind fun _ => ih.ite (lockstep_value ())

theorem advanceLists (h : Framed R E) : Play.advanceLists.Lockstep R R E := h.runLists _

/-! ### Events -/

theorem moveOnItsOwn (h : Framed R E) (e : MapEvent) : (Play.moveOnItsOwn e).Lockstep R R E := by
  unfold Play.moveOnItsOwn
  split
  · exact h.ofEasy (h.act (Act.quiet_moveRandom _)).discard
  · split
    · exact h.ofEasy (h.act (Act.quiet_moveTowardPlayer _)).discard
    · exact (h.ofEasy (h.walk _)).ite (lockstep_value ())

/-- Counting how long an event has rested. -/
theorem rest (h : Framed R E) (id : Int) (n : Nat) :
    (modify (updateEvent id fun e => { e with stopCount := n }) : Play PUnit).Lockstep R R E :=
  h.quietly (quiet_updateEvent (f := fun e => { e with stopCount := n }) (fun _ => rfl) id)

theorem updateOwnMovement (h : Framed R E) (e : MapEvent) :
    (Play.updateOwnMovement e).Lockstep R R E := by
  refine (lockstep_value ()).ite ?_
  dsimp only
  exact (h.rest _ _).ite ((h.rest _ _).bind fun _ => h.moveOnItsOwn e)

theorem advanceEvent (h : Framed R E) (id : Int) : (Play.advanceEvent id).Lockstep R R E := by
  refine h.look (fun _ => rfl) fun s => ?_
  split
  · exact lockstep_value ()
  · refine (lockstep_value ()).ite (Lockstep.ite (h.ofEasy (h.walk _)) ?_)
    exact (lockstep_value ()).ite (h.updateOwnMovement _)

theorem advanceEvents (h : Framed R E) (ids : List Int) :
    (Play.advanceEvents ids).Lockstep R R E := by
  induction ids with
  | nil => exact lockstep_value ()
  | cons id rest ih => exact (h.advanceEvent id).bind fun _ => ih

theorem advanceMap (h : Framed R E) : Play.advanceMap.Lockstep R R E := by
  rw [advanceMap_eq]
  refine h.refreshIfAsked.bind fun _ => h.advanceLists.bind fun _ => ?_
  exact h.look (fun _ => rfl) fun _ => h.advanceEvents _

/-! ### The player -/

theorem quiet_touchHere : Quiet fun s =>
    if s.isEventRunning then s
    else s.startWhere fun e =>
      standsOn e s.player.body.point && !e.body.isNormal && e.isStartedBy MapEvent.touchKinds :=
  Quiet.ite (c := isEventRunning) (fun _ => rfl) quiet_id (quiet_startWhere (fun _ => rfl))

theorem touchHere (h : Framed R E) : Play.touchHere.Lockstep R R E := h.quietly quiet_touchHere

theorem quiet_touchFollowers : Quiet fun s =>
    if s.isEventRunning then s
    else
      let asked := takeMoved s.followerVisible s.player.followers
      let tiles := (asked.filter (·.1)).map fun e => e.2.point
      let s := { s with player.followers := asked.map Prod.snd }
      s.startWhere fun e => tiles.any (standsOn e) && e.start.isKind .partyTouch := by
  refine Quiet.ite (c := isEventRunning) (fun _ => rfl) quiet_id ⟨fun _ => rfl, fun s => ?_⟩
  have hasked : s.Stays { s with player.followers :=
      (takeMoved s.followerVisible s.player.followers).map Prod.snd } := ⟨rfl, rfl⟩
  exact hasked.trans (stays_startWhere _ _)

theorem touchFollowers (h : Framed R E) : Play.touchFollowers.Lockstep R R E :=
  h.quietly quiet_touchFollowers

theorem playerRegion (h : Framed R E) : Play.playerRegion.Lockstep R R E :=
  h.look (fun _ => rfl) fun _ => h.lift _

theorem regionChanged (h : Framed R E) : Play.regionChanged.Lockstep R R E := by
  refine h.playerRegion.bind fun region => h.look (fun _ => rfl) fun s => ?_
  refine Lockstep.bind (h.quietly ?_) fun _ => lockstep_value _
  exact ⟨fun _ => rfl, fun _ => ⟨rfl, rfl⟩⟩

theorem regionEntries (h : Framed R E) (region : Option Int) :
    (Play.regionEntries region).Lockstep R R E :=
  h.look (fun _ => rfl) fun _ => h.commonEvents.bind fun _ => lockstep_value _

theorem reserveAll (h : Framed R E) (commons : List CommonEvent) :
    (Play.reserveAll commons).Lockstep R R E := by
  induction commons with
  | nil => exact lockstep_value ()
  | cons c rest ih =>
      refine (h.lift _).bind fun id => Lockstep.bind (h.quietly ?_) fun _ => ih
      exact ⟨fun _ => rfl, fun _ => ⟨rfl, rfl⟩⟩

theorem enterRegion (h : Framed R E) (region : Option Int) :
    (Play.enterRegion region).Lockstep R R E := by
  refine h.look (fun _ => rfl) fun s => (lockstep_value ()).ite ?_
  refine (h.regionEntries region).bind fun found => ?_
  refine Lockstep.bind (h.quietly ?_) fun _ => h.reserveAll _
  exact quiet_startWhere (p := fun _ e => found.1.contains e.id) fun _ => rfl

/-- **Arriving on a tile is in lockstep.** -/
theorem arrive (h : Framed R E) : Play.arrive.Lockstep R R E := by
  refine h.look (fun _ => rfl) fun s => (lockstep_value ()).ite ?_
  refine h.touchHere.bind fun _ => h.touchFollowers.bind fun _ => ?_
  refine h.regionChanged.bind fun changed => Lockstep.ite ?_ (lockstep_value ())
  exact h.look (fun _ => rfl) fun _ => h.enterRegion _

theorem advancePlayer (h : Framed R E) : Play.advancePlayer.Lockstep R R E := by
  have hrest : (do if ← Act.takeMoved .player then Play.arrive : Play Unit).Lockstep R R E := by
    refine (h.ofEasy (h.act (Act.quiet_takeMoved .player))).bind fun moved => ?_
    exact h.arrive.ite (lockstep_value ())
  refine h.look (fun _ => rfl) fun s => ?_
  split
  · exact (h.ofEasy (h.walk .player)).bind fun _ => hrest
  · exact hrest

/-- **A frame is in lockstep.** -/
theorem advance (h : Framed R E) : Play.advance.Lockstep R R E :=
  h.advanceMap.bind fun _ => h.advancePlayer

end Framed

end Play

end EventLayer
