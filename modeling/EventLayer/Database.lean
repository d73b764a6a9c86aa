/-
**The database of a game.**

The tables that events consult: items, weapons and armors, the names of switches, variables and
maps, and the common events.  A table is a list of entries as the editor wrote them, in which
anything that is not an object is passed over.  Switches and variables whose names begin with the
configured lead are self-scoped: each event has its own.

Main definitions:

* `Database`, `Database.ofFiles` — the tables, and their reading from the game's files;
* `selfScopedIds` — the numbers of the self-scoped names;
* `Database.item?`, `Database.itemNamed?` — things by number and by name;
* `Database.commonEvent?`, `Database.commonEventIds`, `Database.mapNamed?` — the other look-ups.
-/
import EventLayer.Command
import EventLayer.Config
import EventLayer.Text.Case
import EventLayer.Text.Fold
import EventLayer.Text.Scan

set_option autoImplicit false
set_option relaxedAutoImplicit false

namespace EventLayer

/-! ### Self-scoped names -/

/-- Whether a name begins with the lead, up to letter case, perhaps after blanks.  The lead may
begin with blanks itself. -/
def hasLead (lead name : List Char) : Bool :=
  (Text.afterCaseless? lead name).isSome ||
    match name with
    | c :: rest => Text.isBlank c && hasLead lead rest
    | [] => false

/-- The positions from `i` on at which a name with the lead stands. -/
def leadPositions (lead : List Char) (i : Nat) : List Json → List Int
  | [] => []
  | .str name :: rest =>
    if hasLead lead name.toList then (i : Int) :: leadPositions lead (i + 1) rest
    else leadPositions lead (i + 1) rest
  | _ :: rest => leadPositions lead (i + 1) rest

/-- The numbers of the self-scoped names of a list, in increasing order; the entry at position zero
names nothing. -/
def selfScopedIds (names : Json) (lead : String) : List Int :=
  match names with
  | .arr (_ :: rest) => leadPositions lead.toList 1 rest
  | _ => []

/-! ### Tables -/

/-- The tables that events consult. -/
structure Database where
  items : Json := .arr []
  weapons : Json := .arr []
  armors : Json := .arr []
  switchNames : Json := .arr []
  variableNames : Json := .arr []
  /-- The name of the currency, mostly a text. -/
  currency : Json := .str "G"
  selfSwitches : List Int := []
  selfVariables : List Int := []
  mapInfos : Json := .arr []
  commonEvents : Json := .arr []

namespace Database

/-- The name of the currency where the game names none. -/
def defaultCurrency : Json := .str "G"

/-- The table of a kind of things. -/
def table (db : Database) : ItemKind → Json
  | .item => db.items
  | .weapon => db.weapons
  | .armor => db.armors

/-- The currency that the fields of the system file name. -/
def readCurrency (system : List (String × Json)) : Except Fault Json := do
  let own := (OrderedMap.find "currencyUnit" system).getD .null
  if own.truthy then return own
  let terms := ((OrderedMap.find "terms" system).getD .null).orElse (.obj [])
  let named := (← terms.field "currencyUnit").getD .null
  return named.orElse defaultCurrency

/-- The database from the files of a game, each null where it is missing. -/
def ofFiles (file : String → Json) (lead : String := Config.defaultLead) :
    Except Fault Database := do
  let list (name : String) : Json := (file name).orElse (.arr [])
  let system := match file "System.json" with
    | .obj fields => some fields
    | _ => none
  let names (key : String) : Json :=
    ((system.bind (OrderedMap.find key)).getD .null).orElse (.arr [])
  let currency ← match system with
    | some fields => readCurrency fields
    | none => .ok defaultCurrency
  return {
    items := list "Items.json"
    weapons := list "Weapons.json"
    armors := list "Armors.json"
    switchNames := names "switches"
    variableNames := names "variables"
    currency
    selfSwitches := selfScopedIds (names "switches") lead
    selfVariables := selfScopedIds (names "variables") lead
    mapInfos := list "MapInfos.json"
    commonEvents := list "CommonEvents.json" }

/-! ### Look-ups -/

/-- The first entry of a table with a given number. -/
def entry? (table : Json) (id : Json) : Option Json :=
  match table with
  | .arr entries =>
    entries.find? fun e => e.truthy && e.isObject && ((e.field? "id").getD .null).same id
  | _ => none

/-- The thing of a kind with a given number. -/
def item? (db : Database) (kind : ItemKind) (id : Json) : Option Json := entry? (db.table kind) id

/-- The name of an entry, without blanks at its ends. -/
def entryName (e : Json) : String := Text.trim ((e.field? "name").getD (.str "")).text

/-- The thing with a given name in the tables of several kinds, which are searched one by one: an
exact match ends the search, and the first match up to case is kept for the end. -/
def search (db : Database) (name : String) (alike : Option (ItemKind × Json)) :
    List ItemKind → Except Fault (Option (ItemKind × Json))
  | [] => .ok alike
  | kind :: rest => do
    let entries := (← (db.table kind).elements).filter fun e => e.truthy && e.isObject
    match entries.find? fun e => entryName e == name with
    | some e => return some (kind, e)
    | none =>
      let here := entries.find? fun e => Text.alike (entryName e) name
      db.search name (alike.or (here.map fun e => (kind, e))) rest

/-- The thing with a given name: an exact match before one up to case, items before weapons before
armors. -/
def itemNamed? (db : Database) (name : String) : Except Fault (Option (ItemKind × Json)) :=
  let wanted := Text.trim name
  if wanted = "" then .ok none
  else db.search wanted none [.item, .weapon, .armor]

/-- The name of a map, a made-up one where the map is not listed. -/
def mapName (db : Database) (id : Json) : Json :=
  let madeUp : Json := .str ("Map#" ++ id.text)
  match entry? db.mapInfos id with
  | some info => (info.field? "name").getD madeUp
  | none => madeUp

/-- The number of the first map with a given name. -/
def mapNamed? (db : Database) (name : String) : Option Json :=
  let wanted := Text.trim name
  if wanted = "" then none
  else
    match db.mapInfos with
    | .arr infos =>
      (infos.find? fun i => i.truthy && i.isObject && entryName i == wanted).bind fun i =>
        match (i.field? "id").getD .null with
        | .null => none
        | id => some id
    | _ => none

/-- The entries of the table of common events. -/
def commonEntries (db : Database) : List Json :=
  match db.commonEvents with
  | .arr entries => entries
  | _ => []

/-- The first common event with a given number. -/
def commonEvent? (db : Database) (id : Json) : Option Json := entry? db.commonEvents id

/-- A common event that is found is an entry of the table. -/
theorem mem_commonEntries {db : Database} {id e : Json} (h : db.commonEvent? id = some e) :
    e ∈ db.commonEntries := by
  unfold commonEvent? entry? at h
  unfold commonEntries
  split at h
  · exact List.mem_of_find?_eq_some h
  · cases h

/-- The numbers of the common events, in the order of the database. -/
def commonEventIds (db : Database) : List Json :=
  match db.commonEvents with
  | .arr events =>
    events.filterMap fun e => (e.field? "id").bind fun id => if id.truthy then some id else none
  | _ => []

end Database

end EventLayer
