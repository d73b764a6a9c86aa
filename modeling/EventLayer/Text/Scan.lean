/-
**Scanning a text from its start.**

The small forms in which authors write conditions are recognised piece by piece from the start of a
text.  A piece either fits, and what follows it is left, or the whole form does not fit.

Main definitions:

* `Text.after?` — what follows a given word;
* `Text.afterCaseless?` — the same without regard to letter case;
* `Text.digits?` — the decimal digits at the start;
* `Text.plainDecimal?` — digits, and perhaps a point and digits.

Main results:

* `Text.after?_append` — a word followed by anything is scanned over.
-/
import EventLayer.Text.Blank
import EventLayer.Text.Case
import EventLayer.Text.Numeral

set_option autoImplicit false
set_option relaxedAutoImplicit false

namespace EventLayer.Text

/-- What follows a word at the start of a text. -/
def after? : List Char → List Char → Option (List Char)
  | [], cs => some cs
  | _ :: _, [] => none
  | w :: ws, c :: cs => if w = c then after? ws cs else none

@[simp] theorem after?_append (word rest : List Char) : after? word (word ++ rest) = some rest := by
  induction word with
  | nil => rfl
  | cons w ws ih => simp [after?, ih]

/-- The text fitting a word up to letter case, and what follows it. -/
def afterCaseless? : List Char → List Char → Option (List Char × List Char)
  | [], cs => some ([], cs)
  | _ :: _, [] => none
  | w :: ws, c :: cs =>
    if sameLetter w c then (afterCaseless? ws cs).map fun r => (c :: r.1, r.2) else none

/-- What follows an optional character. -/
def skipOne (chars : List Char) : List Char → List Char
  | c :: cs => if c ∈ chars then cs else c :: cs
  | [] => []

/-- The decimal digits at the start of a text, of which there is at least one, and the rest. -/
def digits? (cs : List Char) : Option (List Char × List Char) :=
  match cs.takeWhile isDecimalDigit with
  | [] => none
  | ds => some (ds, cs.dropWhile isDecimalDigit)

/-- The number that decimal digits write; too many of them write none. -/
def digitsValue (ds : List Char) : Except Fault Nat :=
  match wholeOfDigits? (ds.filterMap digitValue?) with
  | some n => .ok n
  | none => .error .notANumber

/-- Digits at the start of a text with the point and digits that may follow them, as the number
they write, and the rest. -/
def plainDecimal? (negative : Bool) (cs : List Char) : Option (Double × List Char) := do
  let (whole, rest) ← digits? cs
  let noFraction := (scaled negative (whole.filterMap digitValue?) 0, rest)
  match rest with
  | '.' :: more =>
    match digits? more with
    | some (fraction, rest) =>
      return (scaled negative ((whole ++ fraction).filterMap digitValue?) (-fraction.length), rest)
    | none => return noFraction
  | _ => return noFraction

end EventLayer.Text
