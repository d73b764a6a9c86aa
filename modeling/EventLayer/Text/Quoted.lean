/-
**Quoted texts.**

A message quotes the text it complains about: in single quotes, or in double quotes when the text
holds a single quote and no double one.  The quote used, the backslash and everything without a
visible form is escaped, so that a quoted text stands on one line and can be read back.

Main definitions:

* `Text.escapeCode` — a character by its code;
* `Text.escapeChar` — how a character is written between quotes;
* `Text.quote` — a text in quotes;
* `Text.quoteOption` — the same, with `None` for an absent text.
-/
import EventLayer.Text.Printable

set_option autoImplicit false
set_option relaxedAutoImplicit false

namespace EventLayer.Text

/-- The lower-case hexadecimal digits of a number, filled up with zeros to a width. -/
def hex (width n : Nat) : List Char :=
  let digits := Nat.toDigits 16 n
  List.replicate (width - digits.length) '0' ++ digits

/-- A character by its code, in as few of two, four or eight digits as it takes. -/
def escapeCode (c : Char) : List Char :=
  if c.toNat < 0x100 then ['\\', 'x'] ++ hex 2 c.toNat
  else if c.toNat < 0x10000 then ['\\', 'u'] ++ hex 4 c.toNat
  else ['\\', 'U'] ++ hex 8 c.toNat

/-- How a character is written between the quotes `q`. -/
def escapeChar (q c : Char) : List Char :=
  if c = q ∨ c = '\\' then ['\\', c]
  else if c = '\n' then ['\\', 'n']
  else if c = '\r' then ['\\', 'r']
  else if c = '\t' then ['\\', 't']
  else if isPrintable c then [c]
  else escapeCode c

/-- The quote character chosen for a text. -/
def quoteMark (cs : List Char) : Char := if '\'' ∈ cs ∧ '"' ∉ cs then '"' else '\''

/-- A text in quotes. -/
def quote (s : String) : String :=
  let q := quoteMark s.toList
  String.ofList (q :: (s.toList.flatMap (escapeChar q) ++ [q]))

/-- A text in quotes, or the word for its absence. -/
def quoteOption : Option String → String
  | none => "None"
  | some s => quote s

end EventLayer.Text
