/-
**The folder of a game.**

The data of a game are files in one folder, which is recognised by its list of maps.  Beside it lies
the list of plugins with their parameters.  Files are read once: a name is looked up without regard
to letter case among those read before, and a file that is missing or holds no JSON is as good as
null.  A whole number with too many digits in a file is a fault, and the file is not remembered.

Main definitions:

* `findDataFolder` — the data folder of a game;
* `readParameters` — this layer's parameters among those of the plugins;
* `DataFolder`, `DataFolder.load` — a data folder with the files read so far;
* `Loading` — an operation that reads files of a data folder;
* `Game.ofFolder` — a game from its folder.

Main results:

* `DataFolder.load_of_read` — a name read before keeps its value.
-/
import EventLayer.Json.Reader
import EventLayer.Project.FileTree
import EventLayer.Session.State
import EventLayer.Text.Lower

set_option autoImplicit false
set_option relaxedAutoImplicit false

namespace EventLayer

/-! ### Finding a game -/

/-- The file that marks a data folder. -/
def mapListName : String := "MapInfos.json"

/-- The folders in which a game keeps its data, as seen from the game's own folder. -/
def dataPlaces : List Path := [[], ["www", "data"], ["data"]]

/-- The data folder of a game: the given folder itself, or one of the usual places below it. -/
def findDataFolder (t : FileTree) (root : Path) : Except Fault Path := do
  let root ← root.checked
  match (dataPlaces.map fun p => root ++ p).find? fun p => t.holds (p ++ [mapListName]) with
  | some p => return p
  | none => throw (.noGameData (Path.text root))

/-! ### Parameters of plugins -/

/-- The text from the first opening bracket to the last closing one, both included. -/
def bracketed? (s : String) : Option String :=
  let start := s.toList.dropWhile (· != '[')
  let core := (start.reverse.dropWhile (· != ']')).reverse
  if core.isEmpty then none else some (String.ofList core)

/-- The parameters of a plugin in a list of plugins. -/
def parametersIn (plugin : String) (plugins : List Json) : Json :=
  match plugins.find? fun p => ((p.field? "name").getD .null).same (.str plugin) with
  | some p =>
    match p.field? "parameters" with
    | some (.obj fields) => .obj fields
    | _ => .obj []
  | none => .obj []

/-- Where the list of plugins lies, as seen from a game's folder. -/
def pluginPlaces : List Path := [["js", "plugins.js"], ["www", "js", "plugins.js"]]

/-- The parameters of a plugin in the file that lists the plugins; none where it cannot be read. -/
def parametersOf (t : FileTree) (file : Path) (plugin : String) : Reading Json :=
  let nothing (n : Notice) : Reading Json := do
    Reading.note n
    return .obj []
  match t.text? file with
  | none => nothing (.pluginListUnreadable (Path.text file))
  | some raw =>
    match bracketed? raw with
    | none => nothing (.pluginListMissing (Path.text file))
    | some text =>
      match Json.read text with
      | .ok (.arr plugins) => return parametersIn plugin plugins
      | .error .tooManyDigits => throw .notANumber
      | _ => nothing (.pluginListMalformed (Path.text file))

/-- The parameters of a plugin; none where the list of plugins is missing or cannot be read. -/
def readParameters (t : FileTree) (root : Path) (plugin : String := layerName) : Reading Json := do
  let root ← root.checked
  match (pluginPlaces.map fun p => root ++ p).find? t.holds with
  | none => return .obj []
  | some file => parametersOf t file plugin

/-! ### Data folders -/

/-- A data folder with the files read so far, under their names in small letters. -/
structure DataFolder where
  place : Path
  loaded : OrderedMap String Json := ∅

/-- An operation that reads files of a data folder; a fault leaves the folder as it was. -/
abbrev Loading (α : Type) := StateT DataFolder (Except Fault) α

namespace DataFolder

/-- What a name leads to from a folder of a tree; null where there is no such file or no JSON in it.
-/
def contents (t : FileTree) (place : Path) (name : String) : Except Fault Json :=
  if !Path.isUsable name then .error .unusablePath
  else
    match (t.textAt? place name).map Json.read with
    | some (.ok v) => .ok v
    | some (.error .tooManyDigits) => .error .notANumber
    | some (.error .malformed) | none => .ok .null

/-- What a file holds. -/
def load (t : FileTree) (name : String) : Loading Json := do
  let f ← get
  let key := Text.lower name
  match f.loaded.get? key with
  | some v => return v
  | none =>
    let v ← contents t f.place name
    set { f with loaded := f.loaded.insert key v }
    return v

theorem load_of_read {f : DataFolder} {name : String} {v : Json}
    (h : f.loaded.get? (Text.lower name) = some v) (t : FileTree) :
    (load t name).run f = .ok (v, f) := by
  change (match f.loaded.get? (Text.lower name) with
    | some v => (pure v : Loading Json)
    | none => _).run f = _
  rw [h]
  rfl

/-- A number with at least a given number of digits, a sign counted in. -/
def padded (width : Nat) (n : Int) : String :=
  let digits := toString n.natAbs
  let sign := if n < 0 then "-" else ""
  sign ++ String.ofList (List.replicate (width - (sign.length + digits.length)) '0') ++ digits

/-- The file of a map. -/
def mapName (id : Int) : String := "Map" ++ padded 3 id ++ ".json"

/-- A map, if its file holds an object. -/
def loadMap (t : FileTree) (id : Int) : Loading (Option Json) := do
  let v ← load t (mapName id)
  return if v.isObject then some v else none

/-- The number of the map that a file name belongs to: one of three digits. -/
def mapNumber? (name : String) : Option Nat :=
  match name.toList with
  | 'M' :: 'a' :: 'p' :: a :: b :: c :: rest =>
    if a.isDigit && b.isDigit && c.isDigit && rest == ".json".toList then
      (String.ofList [a, b, c]).toNat?
    else none
  | _ => none

/-- The numbers of the maps in a folder, in increasing order. -/
def mapIds (t : FileTree) (p : Path) : Except Fault (List Nat) := do
  let p ← p.checked
  return ((t.names p).filterMap mapNumber?).mergeSort fun a b => decide (a ≤ b)

/-- The files from which a database is built, in the order in which they are read. -/
def tableNames : List String := [
  "Items.json", "Weapons.json", "Armors.json", "System.json", "MapInfos.json", "CommonEvents.json"]

/-- Several files under their names. -/
def loadAll (t : FileTree) : List String → Loading (List (String × Json))
  | [] => return []
  | name :: rest => do
    let v ← load t name
    return (name, v) :: (← loadAll t rest)

/-- The database of a game. -/
def database (t : FileTree) (lead : String) : Loading Database := do
  let found ← loadAll t tableNames
  Database.ofFiles (fun name => (found.lookup name).getD .null) lead

end DataFolder

/-! ### Games -/

/-- The configuration of the game whose data lie in a folder. -/
def readConfig (t : FileTree) (dataFolder : Path) : Reading Config := do
  Config.read (← readParameters t dataFolder.folder)

/-- The map file with a given number in a data folder, if it holds a map. -/
def mapFileOf (t : FileTree) (folder : DataFolder) (id : Json) : Except Fault (Option Json) := do
  (DataFolder.loadMap t (← id.toInt)).run' folder

/-- The game in a folder. -/
def Game.ofFolder (t : FileTree) (root : Path) : Reading Game := do
  let place ← findDataFolder t root
  let config ← readConfig t place
  let folder : DataFolder := { place }
  let database ← (DataFolder.database t config.selfLead).run' folder
  return { database, config, mapFile := mapFileOf t folder }

end EventLayer
