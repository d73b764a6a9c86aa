/-
**What a game keeps, whatever is done with it.**

A property of sessions lasts if every single write leaves it: the writes of commands, those of
characters that move, and those of maps that are set up.  Then it is left by everything that a host can
do.  An operation is gone through once, for all lasting properties; a claim that some property lasts is
a claim about the single writes.

Most properties that are worth keeping rest on a few parts of the session, and for these next to nothing
has to be checked.

Main definitions:

* `Play.Lasting` — properties that every single write leaves.

Main results:

* `Play.Lasting.stirring`, `Play.Lasting.setupMap`, `Play.Lasting.advance` — movements, maps, frames;
* `Play.Lasting.of_hosted` — **a lasting property is kept whatever a host does**;
* `Session.Reachable.lasting` — **what lasts from the beginning holds throughout**.
-/
import EventLayer.Proofs.Enduring
import EventLayer.Proofs.Map.Setup
import EventLayer.Proofs.Movement.Stirring
import EventLayer.Proofs.Reachable

set_option autoImplicit false
set_option relaxedAutoImplicit false

namespace EventLayer

theorem Character.direction_forceRoute (c : Character) (route : Option Route) :
    (c.forceRoute route).direction = c.direction :=
  congrArg (·.direction) (c.footing_forceRoute route)

namespace Play

open Session

/-- A property of sessions that every single write leaves. -/
structure Lasting (P : Session → Prop) : Prop extends Sustained P where
  -- characters; nobody is turned to face nowhere
  onCharacter : ∀ {s : Session} (who : CharacterId) {f : Character → Character},
    (∀ c, c.direction ≠ 0 → (f c).direction ≠ 0) → P s → P (s.updateCharacter who f)
  onParty : ∀ {s : Session} (followers : List Character) (region : Int) (shown : Bool), P s →
    P { s with
        player := { s.player with followers := followers, lastRegion := region }
        followersVisible := shown }
  -- maps; what is known of the common events stays known
  onMap : ∀ {s : Session} (m : MapState), m.commons = s.map.commons → P s → P { s with map := m }
  commonEvents : Play.commonEvents.Preserves P
  -- command lists
  clear : ∀ {s : Session}, P s → P (s.updateInterpreter Interpreter.clear)
  setupInterpreter : ∀ (list : Json) (event : Int), (Play.setupInterpreter list event).Preserves P
  jump : ∀ {s : Session} (d stop : Nat), P s →
    P (s.updateFrame d fun f => { f with index := (stop : Int) - 1 })
  enterScopes : ∀ {s : Session} (scopes : List Scope), P s → P { s with scopes }
  -- stores
  setSelfVariable : ∀ {s : Session} (key : SelfKey) (v : Json), P s → P (s.setSelfVariable key v)
  setMembers : ∀ {s : Session} (members : List Json), P s →
    P { s with stores.party.members := members }
  newStores : ∀ {s : Session} (members : List Json), P s →
    P { s with stores := { Stores.fresh s.game with party := { members } }, scratch := {} }
  savedStores : ∀ {s t : Session} {save : Json} {stores : Stores}, P s →
    (Stores.ofSave save s.game.config s.stores).result = .ok stores → P t →
    P { t with stores, scratch := {} }

/-- A list is begun without harm to what no change of the command lists touches. -/
theorem preserves_setupInterpreter {P : Session → Prop}
    (hn : ∀ (s : Session) (n : List Notice), P s → P { s with notices := n })
    (hlists : ∀ (s : Session) (i : Interpreter), P s → P { s with interpreter := i }) (list : Json)
    (event : Int) : (setupInterpreter list event).Preserves P := by
  refine Preserves.bind (preserves_modify fun s hs => hlists s _ hs) fun _ => ?_
  refine Preserves.bind (preserves_getBind fun s => ?_) fun frame => preserves_modify fun s hs => ?_
  · exact (preserves_reading hn _).bind fun commands => preserves_pure _
  · exact hlists s _ hs

namespace Lasting

variable {α : Type} {P : Session → Prop} {s : Session}

/-! ### Single writes -/

theorem setDraws (h : Lasting P) (draws : Draws) (hs : P s) : P { s with draws } :=
  h.aside draws s.scratch s.audio s.notices hs rfl

theorem setFollowers (h : Lasting P) (followers : List Character) (hs : P s) :
    P { s with player.followers := followers } :=
  h.onParty followers s.player.lastRegion s.followersVisible hs

theorem setLastRegion (h : Lasting P) (region : Int) (hs : P s) :
    P { s with player.lastRegion := region } :=
  h.onParty s.player.followers region s.followersVisible hs

theorem updateEvent (h : Lasting P) (id : Int) (f : MapEvent → MapEvent) (hs : P s) :
    P (s.updateEvent id f) :=
  h.onMap _ rfl hs

theorem startWhere (h : Lasting P) (p : MapEvent → Bool) (hs : P s) : P (s.startWhere p) :=
  h.onMap _ rfl hs

theorem character (h : Lasting P) {who : CharacterId} {f : Character → Character}
    (hf : ∀ c, c.direction ≠ 0 → (f c).direction ≠ 0) : (Play.onCharacter who f).Preserves P :=
  preserves_modify fun _ hs => h.onCharacter who hf hs

/-! ### Steps -/

theorem stirring (h : Lasting P) : Stirring P where
  aside := fun {s} draws balloons audio notices hs =>
    h.aside draws { s.scratch with balloons } audio notices hs rfl
  adjust := fun who _ hf hs => h.onCharacter who hf.direction hs
  step := fun who d hs => h.onCharacter who (fun _ hc => Character.face_direction_ne_zero hc d) hs
  rest := fun id _ hs => h.updateEvent id _ hs
  startOne := fun id hs => h.updateEvent id _ hs
  startWhere := fun test hs => h.startWhere test hs
  party := fun {s} followers region hs => h.onParty followers region s.followersVisible hs

theorem takeStep (h : Lasting P) (who : CharacterId) (m : Move) : (Play.takeStep who m).Preserves P :=
  (h.stirring.roaming who).takeStep fun _ _ => trivial

/-! ### Routes -/

theorem setRoute (h : Lasting P) (who : CharacterId) (route : Json) :
    (Play.setRoute who route).Preserves P :=
  (h.reading _).bind fun _ => h.character fun _ hc => hc

theorem makeForced (h : Lasting P) (who : CharacterId) (route : Json) :
    (Play.forceRoute who route).Preserves P :=
  (h.reading _).bind fun _ => preserves_modify fun _ hs => h.forceRoute who _ hs

/-! ### Maps -/

theorem refreshMap (h : Lasting P) : Play.refreshMap.Preserves P :=
  preserves_getBind fun _ => (h.reading _).bind fun _ => preserves_modify fun _ hs => h.onMap _ rfl hs

/-- **The setting up of a map keeps a lasting property.** -/
theorem setupMap (h : Lasting P) (id : Int) (given : Option Json) :
    (Play.setupMap id given).Preserves P := by
  have hqueue : queueSetup.Preserves P :=
    preserves_queueSetup h.commonEvents fun _ _ hs => h.onMap _ rfl hs
  refine preserves_setupMap_of_writes ?_ ?_ ?_ hqueue given
  · exact fun s n hs => h.aside s.draws s.scratch s.audio n hs rfl
  · intro t width height tiles ht
    have hcleared : P (t.updateInterpreter Interpreter.clear) := h.clear ht
    refine h.onMap _ ?_ hcleared
    rfl
  · exact fun _ _ _ _ _ _ hs => h.onMap _ rfl hs

theorem placeParty (h : Lasting P) (hs : P s) (p : Point) (d : Int) : P (s.placeParty p d) := by
  have hplaced : P (s.updateCharacter .player fun c => (c.locate p).face d) := by
    refine h.onCharacter .player ?_ hs
    intro c hc
    exact Character.face_direction_ne_zero (c := c.locate p) hc d
  exact h.setFollowers _ hplaced

theorem playerRegion : Play.playerRegion.Preserves P :=
  preserves_getBind fun _ => preserves_except _

theorem transfer (h : Lasting P) (map : Int) (p : Point) (d : Int) :
    (Play.transfer map p d).Preserves P := by
  have hplace : (do
      modify (Session.placeParty p d)
      let region ← Play.playerRegion
      modify fun s => { s with player.lastRegion := region } : Play Unit).Preserves P := by
    refine Preserves.bind (preserves_modify fun _ hs => h.placeParty hs p d) fun _ => ?_
    exact playerRegion.bind fun _ => preserves_modify fun _ hs => h.setLastRegion _ hs
  refine preserves_getBind fun s => ?_
  split
  · exact (h.setupMap map none).bind fun _ => hplace
  · exact hplace

theorem regionEntries (h : Lasting P) (region : Option Int) :
    (Play.regionEntries region).Preserves P :=
  preserves_getBind fun _ => h.commonEvents.bind fun _ => preserves_pure _

theorem enterRegion (h : Lasting P) (region : Option Int) :
    (Play.enterRegion region).Preserves P :=
  h.stirring.visiting.enterRegion h.commonEvents (fun _ _ hs => h.setReserved _ hs) region

/-! ### Games that begin -/

theorem refreshFollowers (h : Lasting P) (hs : P s) : P s.refreshFollowers := h.setFollowers _ hs

theorem newGame (h : Lasting P) (map : Int) (p : Point) (members : List Json) :
    (Play.newGame map p members).Preserves P := by
  refine Preserves.bind (preserves_modify fun _ hs => h.newStores _ hs) fun _ => ?_
  refine Preserves.bind (preserves_modify fun _ hs => h.refreshFollowers hs) fun _ => ?_
  exact (h.setupMap map none).bind fun _ => h.transfer map p 0

theorem loadPosition (h : Lasting P) (position : Json) :
    (Play.loadPosition position).Preserves P := by
  refine (preserves_pure ()).ite ((preserves_except _).bind fun map => (preserves_pure ()).ite ?_)
  refine (preserves_except _).bind fun id => (h.setupMap id none).bind fun _ => ?_
  refine (preserves_except _).bind fun x => (preserves_except _).bind fun y => ?_
  refine (preserves_except _).bind fun d => ?_
  exact (preserves_except _).bind fun id => h.transfer id _ _

theorem load (h : Lasting P) (save : Json) : (Play.load save).Preserves P := by
  have hread : ∀ (s : Session) (n : List Notice), P s → P { s with notices := n } := by
    intro s n hs
    exact h.aside s.draws s.scratch s.audio n hs rfl
  refine preserves_getBind_of fun s hs => preserves_readingBind hread fun stores hstores => ?_
  refine Preserves.bind (preserves_modify fun _ ht => h.savedStores hs hstores ht) fun _ => ?_
  refine Preserves.bind (preserves_modify fun _ ht => h.refreshFollowers ht) fun _ => ?_
  exact (preserves_except _).bind fun position => h.loadPosition position

/-! ### What runs next -/

theorem begin (h : Lasting P) (list : Json) (event : Int) : (do
    Play.setupInterpreter list event
    return true : Play Bool).Preserves P :=
  (h.setupInterpreter list event).bind fun _ => preserves_pure _

theorem startPending (h : Lasting P) : Play.startPending.Preserves P := by
  refine preserves_getBind fun s => ?_
  split
  · exact preserves_pure _
  · exact Preserves.bind (preserves_modify fun _ hs => h.onMap _ rfl hs) fun _ => h.begin _ _

theorem startReserved (h : Lasting P) : Play.startReserved.Preserves P := by
  refine preserves_getBind fun s => ?_
  split
  · exact preserves_pure _
  · refine Preserves.bind (preserves_modify fun _ hs => h.setReserved _ hs) fun _ => ?_
    refine preserves_getBind fun s => ?_
    dsimp only
    split
    · exact preserves_pure _
    · exact h.begin _ _

theorem startEvent (h : Lasting P) : Play.startEvent.Preserves P := by
  refine preserves_getBind fun s => ?_
  split
  · exact preserves_pure _
  · exact Preserves.bind (preserves_modify fun _ hs => h.updateEvent _ _ hs) fun _ => h.begin _ _

theorem startAutorun (h : Lasting P) : Play.startAutorun.Preserves P := by
  refine preserves_getBind fun s => ?_
  split
  · exact preserves_pure _
  · exact h.begin _ _

theorem isAutorun (c : CommonEvent) : (Play.isAutorun c).Preserves P := by
  refine preserves_getBind fun s => (preserves_pure _).ite ?_
  dsimp only
  split
  · exact preserves_pure _
  · exact (preserves_except _).bind fun _ => preserves_pure _

theorem startCommon (h : Lasting P) (commons : List CommonEvent) :
    (Play.startCommon commons).Preserves P := by
  induction commons with
  | nil => exact preserves_pure _
  | cons c rest ih =>
      refine (isAutorun c).bind fun runs => Preserves.ite (preserves_getBind fun s => ?_) ih
      exact h.begin _ _

theorem startNext (h : Lasting P) : Play.startNext.Preserves P := by
  have hrest : (do
      if ← Play.startPending then return true
      if ← Play.startReserved then return true
      if ← Play.startEvent then return true
      if ← Play.startAutorun then return true
      Play.startCommon (← Play.commonEvents) : Play Bool).Preserves P := by
    refine h.startPending.bind fun _ => (preserves_pure _).ite ?_
    refine h.startReserved.bind fun _ => (preserves_pure _).ite ?_
    refine h.startEvent.bind fun _ => (preserves_pure _).ite ?_
    refine h.startAutorun.bind fun _ => (preserves_pure _).ite ?_
    exact h.commonEvents.bind fun commons => h.startCommon commons
  refine preserves_getBind fun s => ?_
  split
  · exact h.refreshMap.bind fun _ => hrest
  · exact hrest

theorem runLists (h : Lasting P) (rounds : Nat) : (Play.runLists rounds).Preserves P := by
  induction rounds with
  | zero => exact preserves_pure ()
  | succ rounds ih =>
      refine h.runInterpreter.bind fun _ => preserves_getBind fun s => (preserves_pure ()).ite ?_
      exact h.startNext.bind fun _ => ih.ite (preserves_pure ())

/-! ### Frames -/

theorem advanceEvents (h : Lasting P) (ids : List Int) : (Play.advanceEvents ids).Preserves P := by
  induction ids with
  | nil => exact preserves_pure ()
  | cons id rest ih => exact (h.stirring.advanceEvent id).bind fun _ => ih

theorem advanceMap (h : Lasting P) : Play.advanceMap.Preserves P := by
  have hrest : (do
      Play.advanceLists
      Play.advanceEvents ((← get).map.eventList.map (·.id)) : Play Unit).Preserves P :=
    (h.runLists _).bind fun _ => preserves_getBind fun _ => h.advanceEvents _
  refine preserves_getBind fun s => ?_
  split
  · exact h.refreshMap.bind fun _ => hrest
  · exact hrest

theorem advancePlayer (h : Lasting P) : Play.advancePlayer.Preserves P :=
  h.stirring.visiting.advancePlayer h.commonEvents fun _ _ hs => h.setReserved _ hs

/-- **A frame keeps a lasting property.** -/
theorem advance (h : Lasting P) : Play.advance.Preserves P :=
  h.advanceMap.bind fun _ => h.advancePlayer

/-! ### Sprites -/

theorem onActiveEvent (h : Lasting P) {missing : Notice} {f : Character → Play Character}
    (hf : ∀ c, (f c).Preserves P) : (Play.onActiveEvent missing f).Preserves P := by
  refine preserves_getBind fun s => ?_
  split
  · exact h.note _
  · refine preserves_getBind fun s => (hf _).bind fun c => preserves_modify fun t ht => ?_
    exact h.updateEvent _ _ ht

theorem setSprite (h : Lasting P) (v : Json) : (Play.setSprite v).Preserves P := by
  refine h.onActiveEvent fun c => (preserves_except _).bind fun dressed => ?_
  split
  · exact preserves_pure _
  · exact (h.note _).bind fun _ => preserves_pure _

/-! ### Whatever a host does -/

theorem dispatch (h : Lasting P) (d : Nat) (params : Json) : (Play.dispatch d params).Preserves P := by
  refine (preserves_except _).bind fun call => ?_
  refine (h.carryOutCall trivial fun _ => h.displayTreasure).bind fun stop => ?_
  split
  · exact preserves_modify fun _ hs => h.jump d _ hs
  · exact preserves_pure ()

/-- **A lasting property is kept whatever a host does.** -/
theorem of_hosted (h : Lasting P) {act : Play α} (hact : Hosted act) : act.Preserves P := by
  cases hact with
  | advance => exact h.advance
  | advanceLists => exact h.runLists _
  | runInterpreter => exact h.runInterpreter
  | setupInterpreter list event => exact h.setupInterpreter list event
  | dispatch d params => exact h.dispatch d params
  | test d c => exact Unmoved.test d c
  | link d q => exact h.link trivial q
  | unlink d => exact h.unlink trivial
  | newGame map p members => exact h.newGame map p members
  | load save => exact h.load save
  | setupMap id given => exact h.setupMap id given
  | transfer map p d => exact h.transfer map p d
  | refreshMap => exact h.refreshMap
  | requestRefresh => exact preserves_modify fun _ hs => h.requestRefresh hs
  | block tiles => exact preserves_modify fun _ hs => h.onMap _ rfl hs
  | commonEvents => exact h.commonEvents
  | regionEntries region => exact h.regionEntries region
  | enterRegion region => exact h.enterRegion region
  | changeEvent id f => exact preserves_modify fun _ hs => h.updateEvent id f hs
  | eraseEvent id => exact h.eraseEvent id
  | advanceEvent id => exact h.stirring.advanceEvent id
  | advancePlayer => exact h.advancePlayer
  | change who f hf => exact h.character hf
  | moveStraight who d => exact preserves_act fun _ hs => h.stirring.moveStraight hs who d
  | moveRandom who => exact preserves_act fun _ hs => (h.stirring.roaming who).moveRandom hs
  | moveForward who => exact preserves_act fun _ hs => (h.stirring.roaming who).moveForward hs
  | moveToward who other => exact preserves_act fun _ hs => (h.stirring.roaming who).moveTowardPoint hs _
  | moveAway who other => exact preserves_act fun _ hs => (h.stirring.roaming who).moveAwayFromPoint hs _
  | moveTowardPlayer who => exact preserves_act fun _ hs => (h.stirring.roaming who).moveTowardPlayer hs
  | moveAwayFromPlayer who => exact preserves_act fun _ hs => (h.stirring.roaming who).moveAwayFromPlayer hs
  | takeMoved who => exact preserves_act fun _ hs => (h.stirring.roaming who).takeMoved hs
  | takeStep who m => exact h.takeStep who m
  | walk who => exact h.stirring.walk who
  | setRoute who route => exact h.setRoute who route
  | forceRoute who route => exact h.makeForced who route
  | restoreRoute who => exact (h.stirring.roaming who).resting.restoreRoute
  | requestBalloon who id =>
      exact preserves_modify fun _ hs => (h.stirring.roaming who).resting.requestBalloon hs id
  | touch who p => exact preserves_modify fun _ hs => h.stirring.touch hs who p
  | touchHere => exact h.stirring.visiting.touchHere
  | touchFollowers => exact h.stirring.visiting.touchFollowers
  | regionChanged => exact h.stirring.visiting.regionChanged
  | refreshFollowers => exact preserves_modify fun _ hs => h.refreshFollowers hs
  | showFollowers shown => exact preserves_modify fun s hs => h.onParty _ _ shown hs
  | setSprite v => exact h.setSprite v
  | copySprite who => exact preserves_getBind fun _ => h.onActiveEvent fun _ => preserves_pure _
  | setSpriteField field v => exact h.onActiveEvent fun _ => preserves_pure _
  | setSwitch id on => exact preserves_modify fun _ hs => h.setSwitch id on hs
  | setVariable id v => exact preserves_modify fun _ hs => h.setVariable id v hs
  | setSelfSwitch key on => exact preserves_modify fun _ hs => h.setSelfSwitch key on hs
  | setSelfVariable key v => exact preserves_modify fun _ hs => h.setSelfVariable key v hs
  | recordOrigin map event p => exact preserves_modify fun _ hs => h.recordOrigin map event p hs
  | gainItem kind id amount => exact h.gainItem kind id amount
  | gainGold amount => exact h.gainGold amount
  | setMembers members => exact preserves_modify fun _ hs => h.setMembers members hs
  | setBehavior b => exact preserves_modify fun _ hs => h.setBehavior b hs
  | giveKind word id amount => exact h.giveKind h.displayTreasure word id amount
  | giveGold amount => exact h.giveGold h.displayTreasure amount
  | giveNamed name amount => exact h.giveNamed h.displayTreasure name amount
  | showText text => exact h.showText text
  | reserve id => exact preserves_modify fun _ hs => h.setReserved _ hs
  | playSound v => exact h.playSound v
  | enterScopes scopes => exact preserves_modify fun _ hs => h.enterScopes scopes hs
  | activate d => exact preserves_modify fun _ hs => h.activate d hs

end Lasting

end Play

/-- **What lasts from the beginning holds throughout.** -/
theorem Session.Reachable.lasting {g : Game} {P : Session → Prop} {s : Session} (h : Reachable g s)
    (hbegin : ∀ draws, P (Session.begin g draws)) (hlasting : Play.Lasting P) : P s :=
  h.holds hbegin fun _ _ hact => hlasting.of_hosted hact

end EventLayer
