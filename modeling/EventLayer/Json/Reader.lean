/-
**Reading JSON texts.**

A JSON text is read as a whole: blanks may surround every token, nothing may follow the value, and a
key that comes twice keeps its first place and its last value.  Besides the standard's values the
words `NaN`, `Infinity` and `-Infinity` are read.  A number with a point or an exponent is a
floating-point number, any other a whole one, which may not have too many digits.  Of two things
that are wrong with a text the first decides how it fails.

Main definitions:

* `Json.Misread` — why a text cannot be read;
* `Json.readString?` — the characters of a string up to its closing quote;
* `Json.readNumber` — a number at the start of a text;
* `Json.readValue` — a value at the start of a text, by recursion on a bound for its length;
* `Json.read` — a whole text.
-/
import EventLayer.Json

set_option autoImplicit false
set_option relaxedAutoImplicit false

namespace EventLayer.Json

/-- Why a text cannot be read. -/
inductive Misread where
  /-- The text is no JSON text. -/
  | malformed
  /-- A whole number has too many digits. -/
  | tooManyDigits
deriving Repr, DecidableEq

/-- What is found at the start of a text, with the rest of it; a text without it is malformed. -/
def orMalformed {α : Type} (found : Option α) : Except Misread α :=
  found.elim (.error .malformed) .ok

/-- The text without the blanks at its start. -/
def skipBlanks (cs : List Char) : List Char :=
  cs.dropWhile fun c => c == ' ' || c == '\t' || c == '\n' || c == '\r'

/-! ### Strings -/

/-- The value of a hexadecimal digit. -/
def hexValue? (c : Char) : Option Nat :=
  if '0' ≤ c ∧ c ≤ '9' then some (c.toNat - 48)
  else if 'a' ≤ c ∧ c ≤ 'f' then some (c.toNat - 87)
  else if 'A' ≤ c ∧ c ≤ 'F' then some (c.toNat - 55)
  else none

/-- The number written by four hexadecimal digits. -/
def hexFour? (a b c d : Char) : Option Nat := do
  return ((← hexValue? a) * 16 + (← hexValue? b)) * 256 + (← hexValue? c) * 16 + (← hexValue? d)

/-- The character that a short escape stands for. -/
def shortEscape? : Char → Option Char
  | '"' => some '"'
  | '\\' => some '\\'
  | '/' => some '/'
  | 'b' => some (Char.ofNat 8)
  | 'f' => some (Char.ofNat 12)
  | 'n' => some '\n'
  | 'r' => some '\r'
  | 't' => some '\t'
  | _ => none

/-- The character with a code unit as its code point; half of a pair on its own stands for none and
is replaced. -/
def ofUnit (n : Nat) : Char := if 0xd800 ≤ n ∧ n < 0xe000 then Char.ofNat 0xfffd else Char.ofNat n

/-- The character that two halves of a pair stand for. -/
def ofPair? (hi lo : Nat) : Option Char :=
  if 0xd800 ≤ hi ∧ hi < 0xdc00 ∧ 0xdc00 ≤ lo ∧ lo < 0xe000 then
    some (Char.ofNat (0x10000 + (hi - 0xd800) * 0x400 + (lo - 0xdc00)))
  else none

/-- The characters of a string up to its closing quote, and what follows the quote. -/
def readString? : List Char → Option (List Char × List Char)
  | [] => none
  | '"' :: rest => some ([], rest)
  | '\\' :: 'u' :: a :: b :: c :: d :: '\\' :: 'u' :: e :: f :: g :: h :: rest => do
    let hi ← hexFour? a b c d
    match (hexFour? e f g h).bind (ofPair? hi) with
    | some p =>
      let (cs, after) ← readString? rest
      return (p :: cs, after)
    | none =>
      let (cs, after) ← readString? ('\\' :: 'u' :: e :: f :: g :: h :: rest)
      return (ofUnit hi :: cs, after)
  | '\\' :: 'u' :: a :: b :: c :: d :: rest => do
    let n ← hexFour? a b c d
    let (cs, after) ← readString? rest
    return (ofUnit n :: cs, after)
  | '\\' :: c :: rest => do
    let x ← shortEscape? c
    let (cs, after) ← readString? rest
    return (x :: cs, after)
  | c :: rest =>
    if c.toNat < 0x20 then none
    else do
      let (cs, after) ← readString? rest
      return (c :: cs, after)

/-! ### Numbers -/

/-- The plain decimal digits at the start of a text, and the rest. -/
def spanDigits (cs : List Char) : List Nat × List Char :=
  ((cs.takeWhile Char.isDigit).map fun c => c.toNat - 48, cs.dropWhile Char.isDigit)

/-- The digits of a fraction at the start of a text, if there is one. -/
def fraction? : List Char → Option (List Nat × List Char)
  | '.' :: cs =>
    match spanDigits cs with
    | ([], _) => none
    | found => some found
  | _ => none

/-- The exponent at the start of a text, if there is one. -/
def exponent? : List Char → Option (Int × List Char)
  | c :: cs =>
    if c = 'e' ∨ c = 'E' then
      let (negative, body) := Text.readSign cs
      match spanDigits body with
      | ([], _) => none
      | (ds, rest) =>
        some (if negative then -(Text.ofDigits ds : Int) else Text.ofDigits ds, rest)
    else none
  | [] => none

/-- The whole part of a number: a zero alone, or digits that do not start with one. -/
def wholePart? : List Char → Option (List Nat × List Char)
  | '0' :: rest => some ([0], rest)
  | cs =>
    match spanDigits cs with
    | ([], _) => none
    | found => some found

/-- A number at the start of a text, and the rest. -/
def readNumber (cs : List Char) : Except Misread (Json × List Char) := do
  let (negative, body) := match cs with
    | '-' :: rest => (true, rest)
    | cs => (false, cs)
  let (whole, afterWhole) ← orMalformed (wholePart? body)
  let fractionPart := fraction? afterWhole
  let (fraction, afterFraction) := fractionPart.getD ([], afterWhole)
  let exponentPart := exponent? afterFraction
  let (e, rest) := exponentPart.getD (0, afterFraction)
  if fractionPart.isNone && exponentPart.isNone then
    match Text.wholeOfDigits? whole with
    | some n => return (.int (if negative then -(n : Int) else n), rest)
    | none => throw .tooManyDigits
  else
    return (.float (Text.scaled negative (whole ++ fraction) (e - fraction.length)), rest)

/-- The rest of a text after a word at its start. -/
def afterWord? (word : String) (cs : List Char) : Option (List Char) :=
  if word.toList.isPrefixOf cs then some (cs.drop word.length) else none

/-- The words for values, and the values that they stand for. -/
def words : List (String × Json) := [("null", .null), ("true", .bool true),
  ("false", .bool false), ("NaN", .float .nan), ("Infinity", .float (.infinite false)),
  ("-Infinity", .float (.infinite true))]

/-- A word or number at the start of a text, and the rest. -/
def readScalar (cs : List Char) : Except Misread (Json × List Char) :=
  match words.findSome? fun w => (afterWord? w.1 cs).map fun rest => (w.2, rest) with
  | some found => .ok found
  | none => readNumber cs

/-! ### Values -/

mutual

/-- A value at the start of a text, and the rest; `bound` limits the depth. -/
def readValue (bound : Nat) (cs : List Char) : Except Misread (Json × List Char) :=
  match bound with
  | 0 => .error .malformed
  | bound + 1 =>
    match cs with
    | '"' :: rest => do
      let (s, after) ← orMalformed (readString? rest)
      return (.str (String.ofList s), after)
    | '[' :: rest =>
      match skipBlanks rest with
      | ']' :: after => .ok (.arr [], after)
      | body => do
        let (items, after) ← readItems bound body
        return (.arr items, after)
    | '\x7b' :: rest =>
      match skipBlanks rest with
      | '\x7d' :: after => .ok (.obj [], after)
      | body => do
        let (fields, after) ← readFields bound body
        return (.obj (OrderedMap.ofList fields).entries, after)
    | cs => readScalar cs

/-- The elements of a list up to its closing bracket, and what follows it. -/
def readItems (bound : Nat) (cs : List Char) : Except Misread (List Json × List Char) :=
  match bound with
  | 0 => .error .malformed
  | bound + 1 => do
    let (v, rest) ← readValue bound (skipBlanks cs)
    match skipBlanks rest with
    | ',' :: more =>
      let (vs, after) ← readItems bound more
      return (v :: vs, after)
    | ']' :: after => return ([v], after)
    | _ => throw .malformed

/-- The fields of an object up to its closing brace, and what follows it. -/
def readFields (bound : Nat) (cs : List Char) :
    Except Misread (List (String × Json) × List Char) :=
  match bound with
  | 0 => .error .malformed
  | bound + 1 =>
    match skipBlanks cs with
    | '"' :: rest => do
      let (key, afterKey) ← orMalformed (readString? rest)
      match skipBlanks afterKey with
      | ':' :: body =>
        let (v, afterValue) ← readValue bound (skipBlanks body)
        match skipBlanks afterValue with
        | ',' :: more =>
          let (fields, after) ← readFields bound more
          return ((String.ofList key, v) :: fields, after)
        | '\x7d' :: after => return ([(String.ofList key, v)], after)
        | _ => throw .malformed
      | _ => throw .malformed
    | _ => .error .malformed

end

/-- The value that a whole text denotes. -/
def read (s : String) : Except Misread Json := do
  let cs := s.toList
  let (v, rest) ← readValue (cs.length + 1) (skipBlanks cs)
  if skipBlanks rest = [] then return v else throw .malformed

end EventLayer.Json
