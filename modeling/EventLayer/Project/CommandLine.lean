/-
**The command line.**

The tool has one command, `scan`, which takes the folder of a game and two flags: `--json` prints
the report as JSON, and `--verbose` (or `-v`) is accepted.  A long flag may be cut short as long as
only one begins with what is left, short flags may be joined, and after `--` nothing is a flag. 
Asking for help ends the tool with success; what cannot be understood ends it with the code for
misuse.

Main definitions:

* `Flag`, `Word` — flags, and how an argument is understood;
* `CommandLine.parse` — what a list of arguments asks for;
* `CommandLine.run` — the answer, over a tree of files.

Main results:

* `CommandLine.parse_nil` — a command has to be given.
-/
import EventLayer.Project.Scan
import EventLayer.Json.Printer

set_option autoImplicit false
set_option relaxedAutoImplicit false

namespace EventLayer

/-- The flags of the tool. -/
inductive Flag where
  | help
  | json
  | verbose
deriving Repr, DecidableEq

/-- How an argument is understood. -/
inductive Word where
  | operand (text : String)
  /-- Flags that stand in one argument. -/
  | flags (found : List Flag)
  /-- The mark after which nothing is a flag. -/
  | mark
  /-- A flag that is not known. -/
  | unknown
  /-- A flag that is misused. -/
  | misuse
  /-- The beginning of several flags. -/
  | ambiguous
deriving Repr, DecidableEq

/-- What a list of arguments asks for. -/
inductive Request where
  | help
  | misuse
  | scan (game : String) (json : Bool)
deriving Repr, DecidableEq

namespace CommandLine

/-- The written forms of flags. -/
abbrev Spellings := List (String × Flag)

/-- The flags before the command. -/
def topFlags : Spellings := [("-h", .help), ("--help", .help)]

/-- The flags of the scan. -/
def scanFlags : Spellings :=
  [("-h", .help), ("--help", .help), ("--json", .json), ("--verbose", .verbose), ("-v", .verbose)]

/-- Whether a text looks like a negative number. -/
def isNegativeNumber (cs : List Char) : Bool :=
  match cs with
  | '-' :: rest =>
    let whole := rest.takeWhile Text.isDecimalDigit
    match rest.dropWhile Text.isDecimalDigit with
    | [] => !whole.isEmpty
    | '.' :: places => !places.isEmpty && places.all Text.isDecimalDigit
    | _ => false
  | _ => false

/-- Short flags joined in one argument, from the second on; none where one of them is not known. -/
def joined? (known : Spellings) : List Char → Option (List Flag)
  | [] => some []
  | c :: rest => do
    let f ← known.lookup (String.ofList ['-', c])
    return f :: (← joined? known rest)

/-- The long flags that begin with a text, up to a value given to them. -/
def longFlag (known : Spellings) (arg : String) : Word :=
  let start := arg.toList.takeWhile (· != '=')
  match known.filter fun s => start.isPrefixOf s.1.toList with
  | [s] => if start.length = arg.length then .flags [s.2] else .misuse
  | [] => .unknown
  | _ => .ambiguous

/-- An argument that begins with one dash and is no flag by itself. -/
def shortFlags (known : Spellings) (cs : List Char) : Word :=
  match known.lookup (String.ofList (cs.take 2)) with
  | none => .unknown
  | some f =>
    -- an equals sign may stand between the first flag and the others, but not at the end
    let others := match cs.drop 2 with
      | ['='] => none
      | '=' :: rest => joined? known rest
      | rest => joined? known rest
    match others with
    | some fs => .flags (f :: fs)
    | none => .misuse

/-- What is left of an argument that no flag fits: it may be an operand after all. -/
def orOperand (arg : String) (w : Word) : Word :=
  match w with
  | .unknown =>
    if isNegativeNumber arg.toList || arg.toList.contains ' ' then .operand arg else .unknown
  | w => w

/-- How an argument is understood. -/
def classify (known : Spellings) (arg : String) : Word :=
  match arg.toList with
  | '-' :: rest =>
    match known.lookup arg with
    | some f => .flags [f]
    | none =>
      match rest with
      | [] => .operand arg
      | '-' :: [] => .mark
      | '-' :: _ => orOperand arg (longFlag known arg)
      | _ => orOperand arg (shortFlags known arg.toList)
  | _ => .operand arg

/-! ### The scan -/

/-- What the arguments of a scan have said so far. -/
structure Seen where
  game : Option String := none
  json : Bool := false
  extra : Bool := false

/-- The arguments after the mark: the first is the game if none was named, and nothing may follow.
-/
def afterMark (s : Seen) (args : List String) : Request :=
  match s.game, s.extra, args with
  | none, false, [game] => .scan game s.json
  | _, _, _ => .misuse

/-- What the arguments of a scan ask for. -/
def parseScan (s : Seen) : List String → Request
  | [] =>
    match s.game, s.extra with
    | some game, false => .scan game s.json
    | _, _ => .misuse
  | arg :: rest =>
    match classify scanFlags arg with
    | .operand text =>
      if s.game.isSome then parseScan { s with extra := true } rest
      else
        match rest with
        | ["--"] => if s.extra then .misuse else .scan text s.json
        | rest => parseScan { s with game := some text } rest
    | .flags found =>
      if found.contains .help then .help
      else parseScan { s with json := s.json || found.contains .json } rest
    | .mark => afterMark s rest
    | .unknown => parseScan { s with extra := true } rest
    | .misuse | .ambiguous => .misuse

/-- Whether an argument before the mark begins several flags; this is seen before anything else. -/
def hasAmbiguity (args : List String) : Bool :=
  (args.takeWhile (· != "--")).any fun a => classify scanFlags a == .ambiguous

/-- What the arguments behind the name of the command ask for. -/
def parseCommand (name : String) (rest : List String) : Request :=
  if name ≠ "scan" ∨ hasAmbiguity rest then .misuse else parseScan {} rest

/-! ### The tool -/

/-- The request, unless it comes after something that is not understood; help is given all the
same. -/
def unlessExtra (extra : Bool) (r : Request) : Request :=
  match extra, r with
  | true, .scan _ _ => .misuse
  | _, r => r

/-- What a list of arguments asks for, some of which were not understood. -/
def parseFrom (extra : Bool) : List String → Request
  | [] => .misuse
  | arg :: rest =>
    match classify topFlags arg with
    | .operand name => unlessExtra extra (parseCommand name rest)
    | .flags _ => .help
    | .unknown => parseFrom true rest
    | .mark | .misuse | .ambiguous => .misuse

/-- What a list of arguments asks for. -/
def parse (args : List String) : Request := parseFrom false args

@[simp] theorem parse_nil : parse [] = .misuse := rfl

/-- What the tool ends with: a code, and what it prints unless it was stopped by its arguments. -/
structure Outcome where
  code : Nat
  output : Option String := none

/-- The code for misuse, and for a folder without a game. -/
def misuseCode : Nat := 2

/-- The report on the game in a folder, as it is printed. -/
def report (t : FileTree) (root : Path) (json : Bool) : Reading String := do
  let place ← findDataFolder t root
  let config ← readConfig t place
  let (database, folder) ← (DataFolder.database t config.selfLead).run { place }
  let found ← Scan.run t folder database
  return (if json then found.toJson.pretty else found.text) ++ "\n"

/-- The scan of the game in a folder; a folder without a game leaves a notice. -/
def scan (t : FileTree) (root : Path) (json : Bool) : Reading Outcome :=
  let printed : Reading Outcome := do
    return { code := 0, output := some (← report t root json) }
  tryCatch printed fun e =>
    match e with
    | .noGameData folder => do
      Reading.note (.gameMissing folder)
      return { code := misuseCode, output := some "" }
    | e => throw e

/-- The answer to a list of arguments, given in a folder. -/
def run (t : FileTree) (here : Path) (args : List String) : Reading Outcome :=
  match parse args with
  | .help => return { code := 0 }
  | .misuse => return { code := misuseCode }
  | .scan game json => scan t (Path.ofText here game) json

end CommandLine

end EventLayer
