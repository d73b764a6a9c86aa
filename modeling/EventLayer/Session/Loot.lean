/-
**Giving treasure.**

Loot is given to the party unless it already holds the most it can.  Either way the treasure is
remembered for the texts that follow, and the common event that shows it is run: above the command
list that is being run, or later where none is.

Main definitions:

* `Play.callCommon` — run a common event above a command list;
* `Play.giveItem`, `Play.giveGold`, `Play.giveNamed` — treasures;
* `Play.showText` — a text that speaks of the latest treasure.

Main results:

* `Play.callee_of_not_isSet` — without a link a common event acts for the event that called it.
-/
import EventLayer.Session.Setup

set_option autoImplicit false
set_option relaxedAutoImplicit false

namespace EventLayer

/-- The whole number that a treasure command gives; what is no number counts as zero. -/
def readAmount (raw : Json) : Reading Int :=
  match raw.decimalPart with
  | .ok n => return n
  | .error .notANumber => do
    Reading.note (.treasureNotNumeric raw)
    return 0
  | .error e => throw e

/-- The kind of treasure that a word names; an unknown one is an item. -/
def readItemKind (word : String) : Reading ItemKind :=
  let word := Text.lowerAscii (if word = "" then ItemKind.item.word else word)
  match [ItemKind.item, .weapon, .armor].find? fun k => k.word == word with
  | some kind => return kind
  | none => do
    Reading.note (.treasureKindUnknown word)
    return .item

namespace Play

open Session

/-! ### Common events -/

/-- A command list as it begins, for an event of the current map. -/
def openFrame (list : Json) (event : Int) : Play Frame := do
  let map := (← get).map.id
  let commands ← EventCommand.readList list
  return { map, event, commands := some commands, table := WeightTable.build commands }

/-- The event for which a common event called from a command list acts: the linked one as long as it
is on the current map, none where the link leads elsewhere, or else the list's own. -/
def callee (s : Session) (f : Frame) : Int :=
  if f.link.isSet then (if s.isLocal f.link then f.link.event else 0) else f.event

theorem callee_of_not_isSet {s : Session} {f : Frame} (h : f.link.isSet = false) :
    callee s f = f.event := by simp [callee, h]

/-- Run a common event above the command list at a depth. -/
def callCommon (d : Nat) (id : Json) : Play Unit := do
  let s ← get
  match s.game.database.commonEvent? id with
  | none => note (.commonEventMissing id)
  | some entry =>
    let frame ← openFrame (CommonEvent.listOf entry) (callee s (s.frame d))
    modify fun s => { s with interpreter := s.interpreter.push d frame }

/-! ### Treasures -/

/-- Run the common event that shows a treasure, if one is configured. -/
def displayTreasure : Play Unit := do
  let s ← get
  let id := s.game.config.treasureDisplay
  if id = 0 then return
  match s.active with
  | some d =>
    if (s.frame d).isRunning then callCommon d (.int id) else modify (reserve id)
  | none => modify (reserve id)

/-- Remember a treasure and show it. -/
def announce (t : Treasure) : Play Treasure := do
  modify fun s => { s with scratch.treasure := some t }
  displayTreasure
  return t

/-- Give the party a number of a thing; whether it could hold more. -/
def giveEntry (entry : Json) (amount : Int) : Play Bool := do
  let party := (← get).stores.party
  if Party.isFull (← party.countOf entry) then return false
  let party ← party.gainOf entry (.int amount)
  modify fun s => { s with stores.party := party }
  return true

/-- Give the party a number of a thing, or take it for a negative one; a thing that is not in the
database is nothing. -/
def gainItem (kind : ItemKind) (id amount : Json) : Play Unit := do
  let s ← get
  if let some entry := s.game.database.item? kind id then
    let party ← s.stores.party.gainOf entry amount
    modify fun s => { s with stores.party := party }

/-- How many of a thing the party holds. -/
def countItem (kind : ItemKind) (id : Json) : Play Json.Number := do
  let s ← get
  match s.game.database.item? kind id with
  | some entry => s.stores.party.countOf entry
  | none => return .int 0

/-- Give the party gold, or take it for a negative amount. -/
def gainGold (amount : Json.Number) : Play Unit := do
  let party ← (← get).stores.party.gainGold amount
  modify fun s => { s with stores.party := party }

/-- Give an item, weapon or armor by its number. -/
def giveItem (kind : ItemKind) (id amount : Json) : Play Treasure := do
  let id ← readAmount id
  let amount ← readAmount amount
  match (← get).game.database.item? kind (.int id) with
  | none =>
    note (.treasureMissing kind.word id)
    announce { kind := kind.word, id, name := "", amount, success := false }
  | some entry =>
    let success ← giveEntry entry amount
    let name : Json := .str ((entry.field? "name").getD (.str "")).text
    let icon ← (((entry.field? "iconIndex").getD (.int 0)).orElse (.int 0)).toInt
    announce { kind := kind.word, id, name, amount, success, icon, entry := some entry }

/-- Give an item, weapon or armor, the kind named by a word. -/
def giveKind (word : String) (id amount : Json) : Play Treasure := do
  giveItem (← readItemKind word) id amount

/-- Give gold. -/
def giveGold (amount : Json) : Play Treasure := do
  let amount ← readAmount amount
  let s ← get
  let success := s.stores.party.gold.below (.int Party.maxGold)
  if success then gainGold (.int amount)
  announce { kind := "gold", name := s.game.database.currency, amount, success }

/-- Give the item, weapon or armor with a name; it is a fault if there is none. -/
def giveNamed (name : Option String) (amount : Json) : Play Treasure := do
  match ← (← get).game.database.itemNamed? (name.getD "") with
  | none => throw (.noSuchItem name)
  | some (kind, entry) => giveItem kind ((entry.field? "id").getD (.int 0)) amount

/-! ### Texts -/

/-- Show a text, its treasure codes replaced. -/
def showText (text : String) : Play Unit := do
  let shown ← Treasure.convert (← get).scratch.treasure text
  modify fun s => { s with scratch.messages := s.scratch.messages ++ [shown] }

end Play

end EventLayer
