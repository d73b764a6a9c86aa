/-
**Blank characters.**

The texts an editor stores come with stray blanks at either end: spaces, tabs, line ends, the
no-break and ideographic spaces, and the separators of every script.  This module says which
characters are blank and takes them off.

Main definitions:

* `Text.isBlank` — the class;
* `Text.trimStart`, `Text.trimEnd`, `Text.trim` — a text without blanks at its start, end, or both.

Main results:

* `Text.isBlank_of_isWhitespace` — the usual blanks are in the class;
* `Text.trimChars_nil` — nothing is left of nothing.
-/

set_option autoImplicit false
set_option relaxedAutoImplicit false

namespace EventLayer.Text

/-- The code points of the blank characters, as ranges with both ends included. -/
def blankRanges : List (Nat × Nat) := [
  (0x9, 0xd), (0x1c, 0x20), (0x85, 0x85), (0xa0, 0xa0), (0x1680, 0x1680), (0x2000, 0x200a),
  (0x2028, 0x2029), (0x202f, 0x202f), (0x205f, 0x205f), (0x3000, 0x3000)]

/-- Whether a character is blank. -/
def isBlank (c : Char) : Bool := blankRanges.any fun r => r.1 ≤ c.toNat && c.toNat ≤ r.2

theorem isBlank_of_isWhitespace {c : Char} (h : c.isWhitespace = true) : isBlank c = true := by
  have h' : c = ' ' ∨ c = '\t' ∨ c = '\r' ∨ c = '\n' := by
    simpa [Char.isWhitespace, or_assoc] using h
  rcases h' with rfl | rfl | rfl | rfl <;> decide

/-- Characters without the blanks at their start. -/
def trimStartChars (cs : List Char) : List Char := cs.dropWhile isBlank

/-- Characters without the blanks at their end. -/
def trimEndChars (cs : List Char) : List Char := (cs.reverse.dropWhile isBlank).reverse

/-- Characters without the blanks at either end. -/
def trimChars (cs : List Char) : List Char := trimEndChars (trimStartChars cs)

@[simp] theorem trimChars_nil : trimChars [] = [] := rfl

/-- A text without the blanks at its start. -/
def trimStart (s : String) : String := String.ofList (trimStartChars s.toList)

/-- A text without the blanks at its end. -/
def trimEnd (s : String) : String := String.ofList (trimEndChars s.toList)

/-- A text without the blanks at either end. -/
def trim (s : String) : String := String.ofList (trimChars s.toList)

end EventLayer.Text
