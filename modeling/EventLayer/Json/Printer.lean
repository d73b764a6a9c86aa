/-
**Writing JSON texts.**

A value is written on one line, or spread over lines with two blanks for each level.  Texts are
written in full, and only quotes, backslashes and control characters are escaped.

Main definitions:

* `Json.writeString` — a text with its quotes;
* `Json.compact` — a value on one line, without blanks;
* `Json.sorted` — a value with its keys in order;
* `Json.pretty` — a value over several lines.
-/
import EventLayer.Json

set_option autoImplicit false
set_option relaxedAutoImplicit false

namespace EventLayer.Json

/-- How a character is written inside a string. -/
def writeChar (c : Char) : List Char :=
  if c = '"' then ['\\', '"']
  else if c = '\\' then ['\\', '\\']
  else if c = '\n' then ['\\', 'n']
  else if c = '\r' then ['\\', 'r']
  else if c = '\t' then ['\\', 't']
  else if c.toNat = 8 then ['\\', 'b']
  else if c.toNat = 12 then ['\\', 'f']
  else if c.toNat < 0x20 then ['\\', 'u'] ++ Text.hex 4 c.toNat
  else [c]

/-- A text with its quotes. -/
def writeString (s : String) : String :=
  String.ofList ('"' :: (s.toList.flatMap writeChar ++ ['"']))

/-- A floating-point number, with the words for those that no digits denote. -/
def writeDouble : Double → String
  | .nan => "NaN"
  | .infinite n => if n then "-Infinity" else "Infinity"
  | x => x.text

/-- A value that holds no others. -/
def writeScalar : Json → String
  | .null => "null"
  | .bool b => if b then "true" else "false"
  | .int n => toString n
  | .float x => writeDouble x
  | .str s => writeString s
  | _ => ""

mutual

/-- A value on one line, without blanks. -/
def compact : Json → String
  | .arr items => "[" ++ ",".intercalate (compactItems items) ++ "]"
  | .obj fields => "\x7b" ++ ",".intercalate (compactFields fields) ++ "\x7d"
  | v => writeScalar v

/-- The written elements of a list. -/
def compactItems : List Json → List String
  | [] => []
  | v :: rest => compact v :: compactItems rest

/-- The written fields of an object. -/
def compactFields : List (String × Json) → List String
  | [] => []
  | (k, v) :: rest => (writeString k ++ ":" ++ compact v) :: compactFields rest

end

mutual

/-- A value with the keys of its objects in the order of their characters. -/
def sorted : Json → Json
  | .arr items => .arr (sortedItems items)
  | .obj fields => .obj ((sortedFields fields).mergeSort fun a b => decide (a.1 ≤ b.1))
  | v => v

/-- The elements of a list, sorted. -/
def sortedItems : List Json → List Json
  | [] => []
  | v :: rest => sorted v :: sortedItems rest

/-- The fields of an object, each value sorted. -/
def sortedFields : List (String × Json) → List (String × Json)
  | [] => []
  | (k, v) :: rest => (k, sorted v) :: sortedFields rest

end

/-- A line end and the indentation of a level. -/
def newLine (level : Nat) : String := String.ofList ('\n' :: List.replicate (2 * level) ' ')

/-- Written parts on lines of their own, one level inside a pair of brackets. -/
def spread (opening closing : String) (level : Nat) (parts : List String) : String :=
  opening ++ newLine (level + 1) ++ ("," ++ newLine (level + 1)).intercalate parts
    ++ newLine level ++ closing

mutual

/-- A value over several lines, from a level on. -/
def prettyAt (level : Nat) : Json → String
  | .arr [] => "[]"
  | .obj [] => "\x7b\x7d"
  | .arr (v :: rest) =>
    spread "[" "]" level (prettyAt (level + 1) v :: prettyItems (level + 1) rest)
  | .obj ((k, v) :: rest) =>
    spread "\x7b" "\x7d" level
      ((writeString k ++ ": " ++ prettyAt (level + 1) v) :: prettyFields (level + 1) rest)
  | v => writeScalar v

/-- The written elements of a list, at a level. -/
def prettyItems (level : Nat) : List Json → List String
  | [] => []
  | v :: rest => prettyAt level v :: prettyItems level rest

/-- The written fields of an object, at a level. -/
def prettyFields (level : Nat) : List (String × Json) → List String
  | [] => []
  | (k, v) :: rest => (writeString k ++ ": " ++ prettyAt level v) :: prettyFields level rest

end

/-- A value over several lines, two blanks for each level. -/
def pretty (v : Json) : String := prettyAt 0 v

end EventLayer.Json
