/-
**The stack of command lists.**

What the operations on the stack of command lists do to the list at a depth: a change reaches the
list at its own depth only, and whatever it keeps of that list it keeps of every list.  Lists that are
put above a depth, or dropped from there, leave those up to it.

Main results:

* `Interpreter.frame_modify_of_keeps` — what a change keeps of a list, it keeps of all;
* `Interpreter.frame_modify_self`, `Interpreter.frame_modify_of_ne` — a change of the list at a depth;
* `Interpreter.frame_push`, `Interpreter.frame_cut` — the lists up to a depth;
* `Session.resolve_updateFrame`, `Session.currentScope_updateFrame` — **a list that is changed goes on
  to act for the same entity**.
-/
import EventLayer.Session.Scope

set_option autoImplicit false
set_option relaxedAutoImplicit false

namespace EventLayer

/-! ### Changing a list -/

namespace Interpreter

/-- What a change keeps of the list that it is made to, it keeps of the list at every depth. -/
theorem frame_modify_of_keeps {β : Type} {look : Frame → β} {F : Frame → Frame}
    (h : ∀ f, look (F f) = look f) (i : Interpreter) (d e : Nat) :
    look ((i.modify F d).frame e) = look (i.frame e) := by
  cases d with
  | zero =>
      cases e with
      | zero => exact h i.root
      | succ e => rfl
  | succ d =>
      cases e with
      | zero => rfl
      | succ e =>
          simp only [modify, frame, List.getD_eq_getElem?_getD, List.getElem?_modify]
          cases i.nested[e]? with
          | none => simp
          | some f =>
              by_cases hd : d = e
              · simp [hd, h]
              · simp [hd]

variable {i : Interpreter} {d e : Nat}

@[simp] theorem length_nested_modify (i : Interpreter) (F : Frame → Frame) (d : Nat) :
    (i.modify F d).nested.length = i.nested.length := by
  cases d with
  | zero => rfl
  | succ d => exact List.length_modify ..

/-- Two changes of the list at a depth are one. -/
theorem modify_modify (i : Interpreter) (F G : Frame → Frame) (d : Nat) :
    (i.modify F d).modify G d = i.modify (G ∘ F) d := by
  cases d with
  | zero => rfl
  | succ d => simp [modify, List.modify_modify_eq]

theorem frame_modify_self (h : d ≤ i.nested.length) (F : Frame → Frame) :
    (i.modify F d).frame d = F (i.frame d) := by
  cases d with
  | zero => rfl
  | succ d =>
      have hfound : i.nested[d]? = some i.nested[d] := List.getElem?_eq_getElem h
      simp [modify, frame, List.getD_eq_getElem?_getD, hfound]

theorem frame_modify_of_ne (h : d ≠ e) (i : Interpreter) (F : Frame → Frame) :
    (i.modify F d).frame e = i.frame e := by
  cases d with
  | zero =>
      cases e with
      | zero => exact absurd rfl h
      | succ e => rfl
  | succ d =>
      cases e with
      | zero => rfl
      | succ e =>
          have hne : d ≠ e := by omega
          simp [modify, frame, List.getD_eq_getElem?_getD, hne]

/-- The list at a depth after a change is the one before or the changed one. -/
theorem frame_modify_cases (i : Interpreter) (F : Frame → Frame) (d e : Nat) :
    (i.modify F d).frame e = i.frame e ∨ (i.modify F d).frame e = F (i.frame e) := by
  by_cases hne : d = e
  · subst hne
    by_cases hdepth : d ≤ i.nested.length
    · exact Or.inr (frame_modify_self hdepth F)
    · cases d with
      | zero => exact absurd (Nat.zero_le _) hdepth
      | succ d =>
          have hnone : i.nested[d]? = none := List.getElem?_eq_none (by omega)
          exact Or.inl (by simp [modify, frame, List.getD_eq_getElem?_getD, hnone])
  · exact Or.inl (frame_modify_of_ne hne i F)

/-! ### Lists above a depth -/

/-- Above the innermost list there is nothing. -/
theorem frame_of_length_lt (h : i.nested.length < d) : i.frame d = {} := by
  cases d with
  | zero => exact absurd h (Nat.not_lt_zero _)
  | succ d =>
      have hnone : i.nested[d]? = none := List.getElem?_eq_none (by omega)
      simp [frame, List.getD_eq_getElem?_getD, hnone]

theorem length_nested_cut (h : d ≤ i.nested.length) : (i.cut d).nested.length = d := by
  simp [cut, Nat.min_eq_left h]

theorem length_nested_push (h : d ≤ i.nested.length) (f : Frame) :
    (i.push d f).nested.length = d + 1 := by
  simp [push, Nat.min_eq_left h]

/-- Dropping lists leaves those that are called from no deeper. -/
theorem frame_cut (h : e ≤ d) (i : Interpreter) : (i.cut d).frame e = i.frame e := by
  cases e with
  | zero => rfl
  | succ e =>
      have hlt : e < d := h
      simp [cut, frame, List.getD_eq_getElem?_getD, hlt]

/-- A list that is put above a depth leaves those up to there. -/
theorem frame_push (h : e ≤ d) (hd : d ≤ i.nested.length) (f : Frame) :
    (i.push d f).frame e = i.frame e := by
  cases e with
  | zero => rfl
  | succ e =>
      have hlt : e < (i.nested.take d).length := by
        rw [List.length_take]
        omega
      have hltd : e < d := h
      simp [push, frame, List.getD_eq_getElem?_getD, List.getElem?_append_left hlt, hltd]

end Interpreter

/-! ### The entity that a list acts for -/

namespace Session

variable {s : Session} {F : Frame → Frame}

theorem frame_updateFrame_of_keeps {β : Type} {look : Frame → β} (h : ∀ f, look (F f) = look f)
    (s : Session) (d e : Nat) : look ((s.updateFrame d F).frame e) = look (s.frame e) :=
  Interpreter.frame_modify_of_keeps h s.interpreter d e

theorem frame_updateFrame_cases (s : Session) (d e : Nat) (F : Frame → Frame) :
    (s.updateFrame d F).frame e = s.frame e ∨ (s.updateFrame d F).frame e = F (s.frame e) :=
  Interpreter.frame_modify_cases s.interpreter F d e

/-- **A list that is changed goes on to act for the same entity**, if it keeps its event and its
link. -/
theorem resolve_updateFrame (h : ∀ f, (F f).map = f.map ∧ (F f).event = f.event ∧ (F f).link = f.link)
    (s : Session) (d e : Nat) : (s.updateFrame d F).resolve e = s.resolve e := by
  have hlook : ∀ f : Frame, s.resolveFrame (F f) = s.resolveFrame f := by
    intro f
    obtain ⟨hmap, hevent, hlink⟩ := h f
    simp only [resolveFrame, hmap, hevent, hlink]
  exact frame_updateFrame_of_keeps hlook s d e

theorem currentScope_updateFrame
    (h : ∀ f, (F f).map = f.map ∧ (F f).event = f.event ∧ (F f).link = f.link) (s : Session)
    (d : Nat) : (s.updateFrame d F).currentScope = s.currentScope := by
  have hresolve := resolve_updateFrame h s d
  unfold currentScope
  rw [show (s.updateFrame d F).scopes = s.scopes from rfl,
    show (s.updateFrame d F).active = s.active from rfl]
  split
  · rfl
  · exact hresolve _
  · rfl

end Session

end EventLayer
