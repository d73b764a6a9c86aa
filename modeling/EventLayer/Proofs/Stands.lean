/-
**What stands in a list.**

A flat list that was written from a tree holds the parts of the tree one behind the other.  That a
part stands in the list from a position on is said once here, with the positions of its own parts.

Main definitions:

* `Stands` — some elements stand in a list from a position on.

Main results:

* `Stands.head`, `Stands.tail`, `Stands.append` — the parts of what stands in a list;
* `Stands.drop` — what follows a position.
-/
set_option autoImplicit false
set_option relaxedAutoImplicit false

namespace EventLayer

variable {α : Type}

/-- Certain elements stand in a list from position `i` on. -/
def Stands (list : List α) (i : Nat) (l : List α) : Prop := l <+: list.drop i

namespace Stands

variable {list l l' : List α} {i : Nat} {a : α}

theorem head (h : Stands list i (a :: l)) : list[i]? = some a := by
  obtain ⟨rest, h⟩ := h
  rw [← Nat.add_zero i, ← List.getElem?_drop, ← h]
  rfl

theorem append (h : Stands list i (l ++ l')) :
    Stands list i l ∧ Stands list (i + l.length) l' := by
  obtain ⟨rest, h⟩ := h
  refine ⟨⟨l' ++ rest, by rw [← h, List.append_assoc]⟩, ⟨rest, ?_⟩⟩
  rw [← List.drop_drop, ← h, List.append_assoc, List.drop_left]

theorem left (l' : List α) (h : Stands list i (l ++ l')) : Stands list i l := h.append.1

theorem tail (h : Stands list i (a :: l)) : Stands list (i + 1) l := (append (l := [a]) h).2

/-- What follows a position is what stands there, and what follows that. -/
theorem drop (h : Stands list i l) : list.drop i = l ++ list.drop (i + l.length) := by
  obtain ⟨rest, h⟩ := h
  rw [← List.drop_drop, ← h, List.drop_left]

end Stands

end EventLayer
