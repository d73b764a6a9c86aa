/-
**Cutting a text at a separator.**

Main definitions:

* `Text.splitAt` — the pieces between the separators of a list of characters;
* `Text.pieces` — the same for a text.

Main results:

* `Text.splitAt_ne_nil` — there is always a piece;
* `Text.splitAt_of_not_mem` — a text without separators is one piece.
-/

set_option autoImplicit false
set_option relaxedAutoImplicit false

namespace EventLayer.Text

/-- The pieces between the separators, in order; one more than there are separators. -/
def splitAt (sep : Char) : List Char → List (List Char)
  | [] => [[]]
  | c :: cs =>
    if c = sep then [] :: splitAt sep cs
    else
      match splitAt sep cs with
      | [] => [[c]]
      | piece :: rest => (c :: piece) :: rest

theorem splitAt_ne_nil (sep : Char) (cs : List Char) : splitAt sep cs ≠ [] := by
  cases cs with
  | nil => simp [splitAt]
  | cons c cs =>
    simp only [splitAt]
    split
    · simp
    · split <;> simp

theorem splitAt_of_not_mem {sep : Char} {cs : List Char} (h : sep ∉ cs) :
    splitAt sep cs = [cs] := by
  induction cs with
  | nil => rfl
  | cons c cs ih =>
    simp only [List.mem_cons, not_or] at h
    simp [splitAt, Ne.symm h.1, ih h.2]

/-- The pieces of a text between its separators. -/
def pieces (sep : Char) (s : String) : List String := (splitAt sep s.toList).map String.ofList

end EventLayer.Text
