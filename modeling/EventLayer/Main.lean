/-
**The tool.**

This module is the outer layer: it reads the files that a scan can look at, asks for the answer, and
prints it.
-/
import EventLayer.Project.CommandLine

set_option autoImplicit false
set_option relaxedAutoImplicit false

open EventLayer

/-- The text that is printed when help is asked for or the arguments are misused. -/
def usage : String :=
  "usage: scan GAME [--json] [--verbose]\n\n" ++
  "List the pages and common events of a game that use this layer, and its self-scoped names.\n"

/-- The names of the files in a data folder that a scan can look at. -/
def dataNames : List String :=
  DataFolder.tableNames ++ (List.range 1000).map fun (n : Nat) => DataFolder.mapName n

/-- The paths of the files that a scan of a game can look at. -/
def filesOf (root : Path) : List Path :=
  let places := dataPlaces.map fun p => root ++ p
  (places.flatMap fun p => dataNames.map fun name => p ++ [name]) ++
    places.flatMap fun p => pluginPlaces.map fun q => p.folder ++ q

/-- A file with its content, if it can be read. -/
def readFile? (p : Path) : IO (Option (Path × ByteArray)) := do
  try
    return some (p, ← IO.FS.readBinFile p.text)
  catch _ => return none

/-- The files of a game that a scan can look at. -/
def readTree (root : Path) : IO FileTree := do
  return FileTree.ofFiles ((← (filesOf root).mapM readFile?).filterMap id)

/-- What is printed for a fault. -/
def faultText (e : Fault) : String := e.message?.getD "the game's data are broken"

/-- What is printed for a notice. -/
def noticeText : Notice → Option String
  | .gameMissing folder => some (faultText (.noGameData folder))
  | .pluginListUnreadable file => some ("cannot read " ++ file)
  | .pluginListMissing file => some ("no plugin list found in " ++ file)
  | .pluginListMalformed file => some ("malformed plugin list in " ++ file)
  | _ => none

/-- Print what a request leads to; the result is the code to end with. -/
def answer (request : List String) (r : Reading CommandLine.Outcome) : IO UInt32 := do
  for n in r.notices do
    if let some text := noticeText n then IO.eprintln text
  match r.result with
  | .ok outcome =>
    match outcome.output with
    | some text => IO.print text
    | none =>
      if CommandLine.parse request = .help then IO.print usage else IO.eprint usage
    return outcome.code.toUInt32
  | .error e =>
    IO.eprintln (faultText e)
    return 1

/-- The tool, with its arguments. -/
def main (args : List String) : IO UInt32 := do
  let here := Path.ofText [] (← IO.currentDir).toString
  let tree ← match CommandLine.parse args with
    | .scan game _ => readTree (Path.ofText here game)
    | _ => pure {}
  answer args (CommandLine.run tree here args)
