/-
**Scanning a game.**

A scan lists where a game uses this layer: the pages and common events that declare a trigger or
hold sets of random branches, and the names of the self-scoped switches and variables.

Main definitions:

* `ScanRow`, `ScanReport` — what a scan finds;
* `Scan.run` — the scan of a data folder;
* `ScanReport.text`, `ScanReport.toJson` — a report as text and as JSON.

Main results:

* `ScanReport.toJson_empty` — the report on an empty game.
-/
import EventLayer.Project.GameFolder
import EventLayer.Trigger

set_option autoImplicit false
set_option relaxedAutoImplicit false

namespace EventLayer

/-- A page or common event that uses this layer. -/
structure ScanRow where
  source : String
  owner : String
  /-- The number of the page, counted from one. -/
  page : Option Nat
  trigger : Option String
  weightSets : Nat
deriving Repr, DecidableEq

/-- What a scan finds. -/
structure ScanReport where
  rows : List ScanRow := []
  selfSwitches : List (Int × Json) := []
  selfVariables : List (Int × Json) := []
deriving Repr

namespace Scan

/-- The words for a kind of declared trigger. -/
def kindLabel : TriggerKind → String
  | .regionEntry => "region entry"
  | .partyTouch => "party touch"
  | .mapSetup => "map setup"
  | _ => ""

/-- The words for a declared trigger. -/
def triggerLabel (d : TriggerDescriptor) : String :=
  match d.region with
  | some region => kindLabel d.kind ++ " (region " ++ toString region ++ ")"
  | none => kindLabel d.kind

/-- The trigger that a command list declares, and the number of its sets of random branches. -/
def describe (list : Json) : Reading (Option String × Nat) := do
  let trigger ← TriggerDescriptor.find list
  let commands ← EventCommand.readList list
  return (trigger.map triggerLabel, (WeightTable.build commands).sets.length)

/-- The command list of a page or common event. -/
def listOf (fields : List (String × Json)) : Json :=
  ((OrderedMap.find "list" fields).getD .null).orElse (.arr [])

/-- The pages from number `i` on that use this layer; the source and owner are named only where one
does. -/
def scanPages (source : String) (owner : Except Fault String) (i : Nat) :
    List Json → Reading (List ScanRow)
  | [] => return []
  | .obj page :: rest => do
    let (trigger, weightSets) ← describe (listOf page)
    if trigger.isNone && weightSets == 0 then scanPages source owner (i + 1) rest
    else
      let row : ScanRow := { source, owner := ← owner, page := some (i + 1), trigger, weightSets }
      return row :: (← scanPages source owner (i + 1) rest)
  | _ :: rest => scanPages source owner (i + 1) rest

/-- How an event is named in a report. -/
def eventOwner (fields : List (String × Json)) : Except Fault String := do
  let id ← ((OrderedMap.find "id" fields).getD (.int 0)).toInt
  let name := ((OrderedMap.find "name" fields).getD (.str "")).text
  return Text.trimEnd ("EV" ++ DataFolder.padded 3 id ++ " " ++ name)

/-- The rows of the events of a map. -/
def scanEvents (source : String) : List Json → Reading (List ScanRow)
  | [] => return []
  | .obj [] :: rest => scanEvents source rest
  | .obj fields :: rest => do
    let pages ← (((OrderedMap.find "pages" fields).getD .null).orElse (.arr [])).elements
    let rows ← scanPages source (eventOwner fields) 0 pages
    return rows ++ (← scanEvents source rest)
  | _ :: rest => scanEvents source rest

/-- The rows of a map. -/
def scanMap (db : Database) (id : Nat) (data : Option Json) : Reading (List ScanRow) := do
  match data with
  | some (.obj fields) =>
    let events ← (((OrderedMap.find "events" fields).getD .null).orElse (.arr [])).elements
    let source := "Map" ++ DataFolder.padded 3 id ++ " " ++ (db.mapName (.int id)).text
    scanEvents source events
  | _ => return []

/-- The rows of several maps. -/
def scanMaps (db : Database) (t : FileTree) : DataFolder → List Nat → Reading (List ScanRow)
  | _, [] => return []
  | f, id :: rest => do
    let (data, f) ← (DataFolder.loadMap t id).run f
    let rows ← scanMap db id data
    return rows ++ (← scanMaps db t f rest)

/-- How a common event is named in a report; its number has to be a whole one. -/
def commonOwner (id : Json) (entry : Json) : Except Fault String := do
  let n ← match id with
    | .int n => .ok n
    | .bool b => .ok b.toInt
    | .arr _ | .obj _ => .error .wrongType
    | _ => .error .notANumber
  let name := ((entry.field? "name").getD (.str "")).text
  return Text.trimEnd ("CE" ++ DataFolder.padded 3 n ++ " " ++ name)

/-- The rows of several common events. -/
def scanCommons (db : Database) : List Json → Reading (List ScanRow)
  | [] => return []
  | id :: rest => do
    let entry := (db.commonEvent? id).getD (.obj [])
    let list := match entry with
      | .obj fields => listOf fields
      | _ => .arr []
    let (trigger, weightSets) ← describe list
    if trigger.isNone && weightSets == 0 then scanCommons db rest
    else
      let owner ← commonOwner id entry
      let row : ScanRow := { source := "CommonEvents", owner, page := none, trigger, weightSets }
      return row :: (← scanCommons db rest)

/-- The names of a list at several positions. -/
def namesAt (names : Json) (ids : List Int) : List (Int × Json) :=
  ids.map fun id => (id, (names.item id.toNat).toOption.getD .null)

/-- The scan of a data folder with a given database. -/
def run (t : FileTree) (f : DataFolder) (db : Database) : Reading ScanReport := do
  let maps ← scanMaps db t f (← DataFolder.mapIds t f.place)
  let commons ← scanCommons db db.commonEventIds
  return {
    rows := maps ++ commons
    selfSwitches := namesAt db.switchNames db.selfSwitches
    selfVariables := namesAt db.variableNames db.selfVariables }

end Scan

namespace ScanReport

/-! ### Reports as text -/

/-- The line below a title. -/
def rule : String := String.ofList (List.replicate 40 '-')

/-- A line in place of an empty list. -/
def orNone (lines : List String) : List String := if lines.isEmpty then ["(none)"] else lines

/-- The line of a row. -/
def rowLine (r : ScanRow) : String :=
  let page := match r.page with
    | some n => " page " ++ toString n
    | none => ""
  let trigger := (r.trigger.map fun t => "trigger: " ++ t).toList
  let sets := if r.weightSets = 0 then [] else ["weighted sets: " ++ toString r.weightSets]
  r.source ++ " / " ++ r.owner ++ page ++ ": " ++ ", ".intercalate (trigger ++ sets)

/-- The line of a self-scoped name. -/
def nameLine (e : Int × Json) : String := "#" ++ DataFolder.padded 4 e.1 ++ " " ++ e.2.text

/-- The lines of a list of self-scoped names. -/
def nameLines (title : String) (names : List (Int × Json)) : List String :=
  ["", title, rule] ++ orNone (names.map nameLine)

/-- A report as text. -/
def text (r : ScanReport) : String :=
  "\n".intercalate (["Custom triggers and weighted branches", rule] ++ orNone (r.rows.map rowLine)
    ++ nameLines "Self-scoped switches" r.selfSwitches
    ++ nameLines "Self-scoped variables" r.selfVariables)

/-! ### Reports as JSON -/

/-- A row as JSON. -/
def rowJson (r : ScanRow) : Json :=
  .obj [("source", .str r.source), ("owner", .str r.owner),
    ("page", (r.page.map fun (n : Nat) => Json.int n).getD .null),
    ("trigger", (r.trigger.map Json.str).getD .null), ("weight_sets", .int r.weightSets)]

/-- Self-scoped names as JSON. -/
def namesJson (names : List (Int × Json)) : Json :=
  .obj (names.map fun e => (toString e.1, e.2))

/-- A report as JSON. -/
def toJson (r : ScanReport) : Json :=
  .obj [("events", .arr (r.rows.map rowJson)), ("self_switches", namesJson r.selfSwitches),
    ("self_variables", namesJson r.selfVariables)]

theorem toJson_empty :
    toJson {} =
      .obj [("events", .arr []), ("self_switches", .obj []), ("self_variables", .obj [])] :=
  rfl

end ScanReport

end EventLayer
