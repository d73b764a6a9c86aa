/-
**The sessions that a game comes to.**

A game begins with a session in which nothing has happened, and its host then does one thing after
another with it: it lets frames pass, sets up maps, moves characters, writes switches and variables,
gives treasures, saves and loads.  An operation that fails leaves a session as well, and the game
goes on from there.

Main definitions:

* `Play.Hosted` — what a host can do with a session;
* `Session.Reachable` — the sessions that a game comes to.

Main results:

* `Session.Reachable.holds` — **what holds at the beginning and is preserved by every operation
  holds throughout**.
-/
import EventLayer.Proofs.Preserves
import EventLayer.Session.Run
import EventLayer.Session.Saving
import EventLayer.Session.Sprite

set_option autoImplicit false
set_option relaxedAutoImplicit false

namespace EventLayer

namespace Play

/-- What the host of a game can do with a session, apart from looking at it. -/
inductive Hosted : {α : Type} → Play α → Prop
  -- frames and command lists
  | advance : Hosted advance
  | advanceLists : Hosted advanceLists
  | runInterpreter : Hosted runInterpreter
  | setupInterpreter (list : Json) (event : Int) : Hosted (setupInterpreter list event)
  | dispatch (d : Nat) (params : Json) : Hosted (dispatch d params)
  | test (d : Nat) (c : BranchCondition) : Hosted (test d c)
  | link (d : Nat) (q : LinkQuery) : Hosted (link d q)
  | unlink (d : Nat) : Hosted (unlink d)
  -- games and maps
  | newGame (map : Int) (p : Point) (members : List Json) : Hosted (newGame map p members)
  | load (save : Json) : Hosted (load save)
  | setupMap (id : Int) (given : Option Json) : Hosted (setupMap id given)
  | transfer (map : Int) (p : Point) (d : Int) : Hosted (transfer map p d)
  | refreshMap : Hosted refreshMap
  | requestRefresh : Hosted (modify Session.requestRefresh)
  | block (tiles : List Point) : Hosted (modify fun s => { s with map.blocked := tiles })
  | commonEvents : Hosted commonEvents
  | regionEntries (region : Option Int) : Hosted (regionEntries region)
  | enterRegion (region : Option Int) : Hosted (enterRegion region)
  -- events and characters; nobody can be turned to face nowhere
  | changeEvent (id : Int) (f : MapEvent → MapEvent) : Hosted (modify (Session.updateEvent id f))
  | eraseEvent (id : Int) : Hosted (eraseEvent id)
  | advanceEvent (id : Int) : Hosted (advanceEvent id)
  | advancePlayer : Hosted advancePlayer
  | change (who : CharacterId) (f : Character → Character)
      (h : ∀ c, c.direction ≠ 0 → (f c).direction ≠ 0) : Hosted (onCharacter who f)
  | moveStraight (who : CharacterId) (d : Int) : Hosted (Act.moveStraight who d : Play Bool)
  | moveRandom (who : CharacterId) : Hosted (Act.moveRandom who : Play Bool)
  | moveForward (who : CharacterId) : Hosted (Act.moveForward who : Play Bool)
  | moveToward (who other : CharacterId) : Hosted (Act.moveToward who other : Play Bool)
  | moveAway (who other : CharacterId) : Hosted (Act.moveAway who other : Play Bool)
  | moveTowardPlayer (who : CharacterId) : Hosted (Act.moveTowardPlayer who : Play Bool)
  | moveAwayFromPlayer (who : CharacterId) : Hosted (Act.moveAwayFromPlayer who : Play Bool)
  | takeMoved (who : CharacterId) : Hosted (Act.takeMoved who : Play Bool)
  | takeStep (who : CharacterId) (m : Move) : Hosted (takeStep who m)
  | walk (who : CharacterId) : Hosted (walk who)
  | setRoute (who : CharacterId) (route : Json) : Hosted (setRoute who route)
  | forceRoute (who : CharacterId) (route : Json) : Hosted (forceRoute who route)
  | restoreRoute (who : CharacterId) : Hosted (restoreRoute who)
  | requestBalloon (who : CharacterId) (id : Int) : Hosted (modify (Session.requestBalloon who id))
  | touch (who : CharacterId) (p : Point) : Hosted (modify (Session.touch who p))
  | touchHere : Hosted touchHere
  | touchFollowers : Hosted touchFollowers
  | regionChanged : Hosted regionChanged
  | refreshFollowers : Hosted (modify Session.refreshFollowers)
  | showFollowers (shown : Bool) : Hosted (modify fun s => { s with followersVisible := shown })
  | setSprite (v : Json) : Hosted (setSprite v)
  | copySprite (who : Option CharacterId) : Hosted (copySprite who)
  | setSpriteField (field : ImageField) (v : Json) : Hosted (setSpriteField field v)
  -- stores
  | setSwitch (id : Int) (on : Bool) : Hosted (modify (Session.setSwitch id on))
  | setVariable (id : Int) (v : Json) : Hosted (modify (Session.setVariable id v))
  | setSelfSwitch (key : SelfKey) (on : Bool) : Hosted (modify (Session.setSelfSwitch key on))
  | setSelfVariable (key : SelfKey) (v : Json) : Hosted (modify (Session.setSelfVariable key v))
  | recordOrigin (map event : Int) (p : Point) : Hosted (modify (Session.recordOrigin map event p))
  | gainItem (kind : ItemKind) (id amount : Json) : Hosted (gainItem kind id amount)
  | gainGold (amount : Json.Number) : Hosted (gainGold amount)
  | setMembers (members : List Json) :
      Hosted (modify fun s => { s with stores.party.members := members })
  | setBehavior (b : RouteBehavior) : Hosted (modify fun s => { s with stores.behavior := b })
  -- treasures, texts, sounds
  | giveKind (word : String) (id amount : Json) : Hosted (giveKind word id amount)
  | giveGold (amount : Json) : Hosted (giveGold amount)
  | giveNamed (name : Option String) (amount : Json) : Hosted (giveNamed name amount)
  | showText (text : String) : Hosted (showText text)
  | reserve (id : Int) : Hosted (modify (Session.reserve id))
  | playSound (v : Json) : Hosted (playSound v)
  -- for whom switches and variables are read
  | enterScopes (scopes : List Scope) : Hosted (modify fun s => { s with scopes })
  | activate (d : Option Nat) : Hosted (modify fun s => { s with active := d })

end Play

namespace Session

/-- The sessions that a game comes to. -/
inductive Reachable (g : Game) : Session → Prop
  | begin (draws : Draws) : Reachable g (Session.begin g draws)
  | after {α : Type} {s : Session} {act : Play α} :
      Reachable g s → Play.Hosted act → Reachable g (act.after s)

/-- **What holds at the beginning and is preserved by every operation holds throughout.** -/
theorem Reachable.holds {g : Game} {P : Session → Prop} {s : Session} (h : Reachable g s)
    (hbegin : ∀ draws, P (Session.begin g draws))
    (hstep : ∀ (α : Type) (act : Play α), Play.Hosted act → act.Preserves P) : P s := by
  induction h with
  | begin draws => exact hbegin draws
  | after hs hact ih => exact hstep _ _ hact _ ih

end Session

end EventLayer
