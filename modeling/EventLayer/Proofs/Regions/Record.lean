/-
**The region that the player was last seen in.**

A session records the region in which the player was seen last.  Only a look at the region writes it, the
look when the player arrives on a tile and the one at the end of a transfer.  Everything else that a host
can do leaves the record as it was: frames of the map, runs of command lists, steps and routes of the
player, and maps that are set up.

Main definitions:

* `Session.Recalls`, `Session.StandsIn` — a region is recorded, and the player's tile lies in one;
* `Play.LooksAtRegion` — what looks at the player's region.

Main results:

* `Play.recalls_advanceMap` — **a frame of the map leaves the record alone**;
* `Play.recalls_of_hosted` — **only what looks at the region changes the record**.
-/
import EventLayer.Proofs.Turns.Course

set_option autoImplicit false
set_option relaxedAutoImplicit false

namespace EventLayer

/-- A region is recorded as the one in which the player was last seen. -/
def Session.Recalls (r : Int) (s : Session) : Prop := s.player.lastRegion = r

/-- The player's tile lies in a region. -/
def Session.StandsIn (s : Session) (r : Int) : Prop := s.map.region s.player.body.point = .ok r

theorem Session.StandsIn.unique {s : Session} {r q : Int} (h : s.StandsIn r) (h' : s.StandsIn q) : r = q :=
  Except.ok.inj (h.symm.trans h')

namespace Play

open Session

variable {r : Int} {s : Session}

/-! ### Characters -/

theorem recalls_updateCharacter (who : CharacterId) (f : Character → Character) (h : s.Recalls r) :
    (s.updateCharacter who f).Recalls r := by
  cases who <;> exact h

theorem recalls_touch (who : CharacterId) (p : Point) (h : s.Recalls r) : (s.touch who p).Recalls r := by
  cases who with
  | follower place => exact h
  | player =>
      simp only [Session.touch, playerTouch]
      split <;> exact h
  | event id =>
      simp only [Session.touch, eventTouch]
      split
      · exact h
      · split
        · split <;> exact h
        · exact h

theorem roaming_recalls (r : Int) (who : CharacterId) : Roaming who (fun _ => True) (Recalls r) where
  aside := fun _ _ _ _ hs => hs
  adjust := fun _ hs => recalls_updateCharacter who _ hs
  moveStraight := fun {s d} _ hs => by
    simp only [Act.moveStraight]
    split
    · have hstepped := recalls_updateCharacter who (fun c => stepped c d) hs
      cases who <;> exact hstepped
    · exact recalls_touch who _ (recalls_updateCharacter who _ hs)
  somewhere := fun _ _ => trivial

theorem recalls_walk (who : CharacterId) : (walk who).Preserves (Recalls r) :=
  fun _ hs => (roaming_recalls r who).walk (fun _ _ => trivial) hs

theorem recalls_advanceEvent (id : Int) : (advanceEvent id).Preserves (Recalls r) := by
  have hacting : ∀ id : Int, Acting id (Recalls r) := fun id => ⟨roaming_recalls r _, fun _ hs => hs⟩
  exact fun _ hs => (hacting id).advanceEvent (fun e _ => hacting e.id) hs

/-! ### Command lists -/

theorem sustained_recalls (r : Int) : Sustained (Recalls r) := by
  have henduring : Enduring (Recalls r) :=
    { aside := fun _ _ _ _ hs _ => hs
      setSwitch := fun _ _ hs => hs
      setVariable := fun _ _ hs => hs
      setSelfSwitch := fun _ _ hs => hs
      requestRefresh := fun hs => hs
      recordOrigin := fun _ _ _ hs => hs
      setBehavior := fun _ hs => hs
      gain := fun _ _ ht => ht
      onFrame := fun _ _ _ hs => hs
      setReserved := fun _ hs => hs
      forceRoute := fun who _ hs => recalls_updateCharacter who _ hs
      await := fun _ _ hs => hs
      eraseEvent := preserves_eraseEvent (fun _ _ hs => hs) fun _ _ _ hs => hs }
  exact henduring.sustained (fun _ hs => hs) fun _ hs => hs

theorem recalls_setupInterpreter (list : Json) (event : Int) :
    (setupInterpreter list event).Preserves (Recalls r) :=
  preserves_setupInterpreter (fun _ _ hs => hs) (fun _ _ hs => hs) list event

theorem recalls_commonEvents : commonEvents.Preserves (Recalls r) :=
  preserves_commonEvents fun _ _ _ hs => hs

theorem recalls_begins {t : Session} {b : Begun} (hs : s.Recalls r) (h : s.Begins b t) : t.Recalls r := by
  cases h with
  | pending _ | reserved _ _ _ | event _ _ | autorun _ _ _ => exact recalls_setupInterpreter _ _ _ hs
  | common _ _ _ _ => exact recalls_setupInterpreter _ _ _ (recalls_commonEvents _ hs)

/-! ### Frames -/

theorem recalls_refreshMap : refreshMap.Preserves (Recalls r) :=
  preserves_getBind fun _ => (preserves_reading (fun _ _ hs => hs) _).bind fun _ =>
    preserves_modify fun _ hs => hs

theorem partwise_recalls (r : Int) : Partwise (Recalls r) where
  choose := preserves_getBind fun _ => recalls_refreshMap.ite (preserves_pure ())
  run := (sustained_recalls r).runInterpreter
  next := fun {t} ht _ => by
    rcases startWaiting_cases t with ⟨b, hbegins⟩ | ⟨-, hleft⟩
    · exact recalls_begins ht hbegins
    · rw [hleft]
      exact recalls_commonEvents t.passed ht
  own := recalls_advanceEvent

/-- **A frame of the map leaves the record alone.** -/
theorem recalls_advanceMap : advanceMap.Preserves (Recalls r) := (partwise_recalls r).advanceMap

/-! ### Maps -/

/-- **A map that is set up leaves the record alone**, whatever region the player finds itself in. -/
theorem recalls_setupMap (id : Int) (given : Option Json) : (setupMap id given).Preserves (Recalls r) :=
  preserves_setupMap_of_writes (fun _ _ hs => hs) (fun _ _ _ _ hs => hs) (fun _ _ _ _ _ _ hs => hs)
    (preserves_queueSetup recalls_commonEvents fun _ _ hs => hs) given

/-! ### Looks at the region -/

theorem playerRegion_cases (s : Session) :
    (∃ e, playerRegion s = .error e s) ∨ ∃ q, s.StandsIn q ∧ playerRegion s = .ok q s := by
  rw [playerRegion, get_bind_apply]
  cases hregion : s.map.region s.player.body.point with
  | error e => exact Or.inl ⟨e, rfl⟩
  | ok q => exact Or.inr ⟨q, hregion, rfl⟩

/-- A look at the region fails and changes nothing, or records the region of the player's tile. -/
theorem regionChanged_cases (s : Session) : (∃ e, regionChanged s = .error e s) ∨
    ∃ q, s.StandsIn q ∧
      regionChanged s = .ok (q != s.player.lastRegion) { s with player.lastRegion := q } := by
  rcases playerRegion_cases s with ⟨e, hread⟩ | ⟨q, hq, hread⟩
  · exact Or.inl ⟨e, bind_of_error hread⟩
  · exact Or.inr ⟨q, hq, bind_of_ok hread⟩

theorem recalls_enterRegion (region : Option Int) : (enterRegion region).Preserves (Recalls r) := by
  have hreserveAll : ∀ commons : List CommonEvent, (reserveAll commons).Preserves (Recalls r) := by
    intro commons
    induction commons with
    | nil => exact preserves_pure ()
    | cons c rest ih =>
        refine (preserves_except _).bind fun id => ?_
        exact Preserves.bind (preserves_modify fun _ hs => hs) fun _ => ih
  refine preserves_getBind fun _ => (preserves_pure ()).ite ?_
  refine Preserves.bind ?_ fun found => ?_
  · exact preserves_getBind fun _ => recalls_commonEvents.bind fun _ => preserves_pure _
  · exact Preserves.bind (preserves_modify fun _ hs => hs) fun _ => hreserveAll _

/-- The end of a transfer, on the map where it leads. -/
def settle (p : Point) (d : Int) : Play Unit := do
  modify (placeParty p d)
  let region ← playerRegion
  modify fun s => { s with player.lastRegion := region }

/-- Putting the party on a tile fails and leaves the record alone, or it records the region of the tile. -/
theorem settle_cases (p : Point) (d : Int) (s : Session) :
    (∃ e t, settle p d s = .error e t ∧ t.player.lastRegion = s.player.lastRegion) ∨
      ∃ t, settle p d s = .ok () t ∧ t.StandsIn t.player.lastRegion := by
  rw [settle, modify_bind_apply]
  rcases playerRegion_cases (s.placeParty p d) with ⟨e, hread⟩ | ⟨q, hq, hread⟩
  · exact Or.inl ⟨e, _, bind_of_error hread, rfl⟩
  · exact Or.inr ⟨_, bind_of_ok hread, hq⟩

/-- **A transfer that fails leaves the record alone; one that comes to its end records the region of the
player's tile.** -/
theorem transfer_cases (map : Int) (p : Point) (d : Int) (s : Session) :
    (∃ e t, transfer map p d s = .error e t ∧ t.player.lastRegion = s.player.lastRegion) ∨
      ∃ t, transfer map p d s = .ok () t ∧ t.StandsIn t.player.lastRegion := by
  by_cases hmap : s.map.id = map
  · have hwithin : transfer map p d s = settle p d s := by
      rw [transfer, get_bind_apply, if_neg (not_not.2 hmap), settle]
    rw [hwithin]
    exact settle_cases p d s
  · have helsewhere : transfer map p d s = (setupMap map >>= fun _ => settle p d) s := by
      rw [transfer, get_bind_apply, if_pos hmap]
      rfl
    rw [helsewhere]
    cases hsetup : setupMap map none s with
    | error e t =>
        have hsame := (recalls_setupMap map none).of_error (rfl : s.Recalls s.player.lastRegion) hsetup
        exact Or.inl ⟨e, t, bind_of_error hsetup, hsame⟩
    | ok _ t =>
        have hsame := (recalls_setupMap map none).of_ok (rfl : s.Recalls s.player.lastRegion) hsetup
        rw [bind_of_ok hsetup, ← hsame]
        exact settle_cases p d t

/-! ### Whatever a host does -/

/-- What looks at the player's region, or lets the player enter one. -/
inductive LooksAtRegion : {α : Type} → Play α → Prop
  | advance : LooksAtRegion advance
  | advancePlayer : LooksAtRegion advancePlayer
  | regionChanged : LooksAtRegion regionChanged
  | transfer (map : Int) (p : Point) (d : Int) : LooksAtRegion (transfer map p d)
  | newGame (map : Int) (p : Point) (members : List Json) : LooksAtRegion (newGame map p members)
  | load (save : Json) : LooksAtRegion (load save)
  | enterRegion (region : Option Int) : LooksAtRegion (enterRegion region)

theorem recalls_onActiveEvent {missing : Notice} {f : Character → Play Character}
    (hf : ∀ c, (f c).Preserves (Recalls r)) : (onActiveEvent missing f).Preserves (Recalls r) := by
  refine preserves_getBind fun _ => ?_
  split
  · exact preserves_note (fun _ _ hs => hs) _
  · exact preserves_getBind fun _ => (hf _).bind fun _ => preserves_modify fun _ hs => hs

theorem recalls_setSprite (v : Json) : (setSprite v).Preserves (Recalls r) := by
  refine recalls_onActiveEvent fun c => (preserves_except _).bind fun dressed => ?_
  split
  · exact preserves_pure _
  · exact (preserves_note (fun _ _ hs => hs) _).bind fun _ => preserves_pure _

theorem recalls_dispatch (d : Nat) (params : Json) : (dispatch d params).Preserves (Recalls r) := by
  have h := sustained_recalls r
  refine (preserves_except _).bind fun call => ?_
  refine (h.carryOutCall trivial fun _ => h.displayTreasure).bind fun stop => ?_
  split
  · exact preserves_modify fun _ hs => hs
  · exact preserves_pure ()

theorem recalls_modify_ite {c : Session → Prop} [DecidablePred c] {f : Session → Session}
    (hf : ∀ s : Session, s.Recalls r → (f s).Recalls r) :
    (modify fun s => if c s then s else f s : Play PUnit).Preserves (Recalls r) := by
  refine preserves_modify fun s hs => ?_
  split
  · exact hs
  · exact hf s hs

/-- **Only what looks at the player's region changes the record.** -/
theorem recalls_of_hosted {α : Type} {act : Play α} (hact : Hosted act) (hlooks : ¬LooksAtRegion act) :
    act.Preserves (Recalls r) := by
  have h := sustained_recalls r
  cases hact with
  | advance => exact absurd .advance hlooks
  | advancePlayer => exact absurd .advancePlayer hlooks
  | regionChanged => exact absurd .regionChanged hlooks
  | transfer map p d => exact absurd (.transfer map p d) hlooks
  | newGame map p members => exact absurd (.newGame map p members) hlooks
  | load save => exact absurd (.load save) hlooks
  | enterRegion region => exact absurd (.enterRegion region) hlooks
  | advanceLists => exact (partwise_recalls r).runLists _
  | runInterpreter => exact h.runInterpreter
  | setupInterpreter list event => exact recalls_setupInterpreter list event
  | dispatch d params => exact recalls_dispatch d params
  | test d c => exact Unmoved.test d c
  | link d q => exact h.link trivial q
  | unlink d => exact h.unlink trivial
  | setupMap id given => exact recalls_setupMap id given
  | refreshMap => exact recalls_refreshMap
  | commonEvents => exact recalls_commonEvents
  | regionEntries region =>
      exact preserves_getBind fun _ => recalls_commonEvents.bind fun _ => preserves_pure _
  | eraseEvent id => exact h.eraseEvent id
  | advanceEvent id => exact recalls_advanceEvent id
  | change who f hf => exact preserves_modify fun _ hs => recalls_updateCharacter who f hs
  | moveStraight who d =>
      exact preserves_act fun _ hs => (roaming_recalls r who).moveStraight (Or.inl trivial) hs
  | moveRandom who => exact preserves_act fun _ hs => (roaming_recalls r who).moveRandom hs
  | moveForward who => exact preserves_act fun _ hs => (roaming_recalls r who).moveForward hs
  | moveToward who other => exact preserves_act fun _ hs => (roaming_recalls r who).moveTowardPoint hs _
  | moveAway who other => exact preserves_act fun _ hs => (roaming_recalls r who).moveAwayFromPoint hs _
  | moveTowardPlayer who => exact preserves_act fun _ hs => (roaming_recalls r who).moveTowardPlayer hs
  | moveAwayFromPlayer who => exact preserves_act fun _ hs => (roaming_recalls r who).moveAwayFromPlayer hs
  | takeMoved who => exact preserves_act fun _ hs => (roaming_recalls r who).takeMoved hs
  | takeStep who m => exact (roaming_recalls r who).takeStep fun _ _ => trivial
  | walk who => exact recalls_walk who
  | setRoute who route =>
      exact (h.reading _).bind fun _ => preserves_modify fun _ hs => recalls_updateCharacter who _ hs
  | forceRoute who route =>
      exact (h.reading _).bind fun _ => preserves_modify fun _ hs => recalls_updateCharacter who _ hs
  | restoreRoute who => exact (roaming_recalls r who).resting.restoreRoute
  | requestBalloon who id =>
      exact preserves_modify fun _ hs => (roaming_recalls r who).resting.requestBalloon hs id
  | touch who p => exact preserves_modify fun _ hs => recalls_touch who p hs
  | touchHere | touchFollowers => exact recalls_modify_ite fun _ hs => hs
  | setSprite v => exact recalls_setSprite v
  | copySprite who => exact preserves_getBind fun _ => recalls_onActiveEvent fun _ => preserves_pure _
  | setSpriteField field v => exact recalls_onActiveEvent fun _ => preserves_pure _
  | gainItem kind id amount => exact h.gainItem kind id amount
  | gainGold amount => exact h.gainGold amount
  | giveKind word id amount => exact h.giveKind h.displayTreasure word id amount
  | giveGold amount => exact h.giveGold h.displayTreasure amount
  | giveNamed name amount => exact h.giveNamed h.displayTreasure name amount
  | showText text => exact h.showText text
  | playSound v => exact h.playSound v
  -- writes of the rest of the session
  | requestRefresh | block | changeEvent | refreshFollowers | showFollowers | setSwitch | setVariable |
    setSelfSwitch | setSelfVariable | recordOrigin | setMembers | setBehavior | reserve | enterScopes |
    activate => exact preserves_modify fun _ hs => hs

end Play

end EventLayer
