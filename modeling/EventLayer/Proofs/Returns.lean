/-
**When an operation comes to a result.**

An operation returns from a session under a condition if it comes to a result where the condition holds,
and fails where it does not.  What it comes to is described as well.  A sequence returns under the
conditions of all its parts, and so the condition of a long operation is put together from those of the
few places at which it can fail.

Main definitions:

* `Session.Noted` — a session with other notices;
* `Play.Returns` — when an operation comes to a result, and to which.

Main results:

* `Play.Returns.bind` — **a sequence returns when its parts do**;
* `Play.returns_reading`, `Play.returns_bind_of_ok` — pieces of data that are read, and parts whose result
  is known.
-/
import EventLayer.Proofs.Preserves

set_option autoImplicit false
set_option relaxedAutoImplicit false

namespace EventLayer

/-- A session that differs in its notices at most. -/
def Session.Noted (s t : Session) : Prop := ∃ notices, t = { s with notices }

namespace Session.Noted

variable {s t u : Session}

theorem refl (s : Session) : s.Noted s := ⟨s.notices, rfl⟩

theorem trans (h : s.Noted t) (h' : t.Noted u) : s.Noted u := by
  obtain ⟨m, rfl⟩ := h
  obtain ⟨n, rfl⟩ := h'
  exact ⟨n, rfl⟩

theorem symm (h : s.Noted t) : t.Noted s := by
  obtain ⟨n, rfl⟩ := h
  exact ⟨s.notices, rfl⟩

end Session.Noted

namespace Play

variable {α β : Type}

/-- From a session an operation comes to a result exactly if a condition holds, and then the result and
the session that is left are as described. -/
structure Returns (s : Session) (C : Prop) (Q : α → Session → Prop) (act : Play α) : Prop where
  ok : C → ∃ a t, act s = .ok a t ∧ Q a t
  error : ¬C → ∃ e t, act s = .error e t

namespace Returns

variable {s : Session} {C D : Prop} {P Q : α → Session → Prop} {act : Play α}

/-! ### What follows -/

theorem iff (h : act.Returns s C Q) (hCD : C ↔ D) : act.Returns s D Q :=
  ⟨fun hD => h.ok (hCD.mpr hD), fun hD => h.error fun hC => hD (hCD.mp hC)⟩

/-- What comes to the same outcome returns as well. -/
theorem congr {other : Play α} (h : act.Returns s C Q) (hsame : other s = act s) : other.Returns s C Q := by
  refine ⟨fun hC => ?_, fun hC => ?_⟩
  · obtain ⟨a, t, hact, hQ⟩ := h.ok hC
    exact ⟨a, t, hsame.trans hact, hQ⟩
  · obtain ⟨e, t, hact⟩ := h.error hC
    exact ⟨e, t, hsame.trans hact⟩

theorem mono (h : act.Returns s C P) (hPQ : ∀ a t, P a t → Q a t) : act.Returns s C Q := by
  refine ⟨fun hC => ?_, h.error⟩
  obtain ⟨a, t, hact, hP⟩ := h.ok hC
  exact ⟨a, t, hact, hPQ a t hP⟩

/-- What the operation comes to is its own result. -/
theorem with_run (h : act.Returns s C Q) : act.Returns s C fun a t => act s = .ok a t ∧ Q a t := by
  refine ⟨fun hC => ?_, h.error⟩
  obtain ⟨a, t, hact, hQ⟩ := h.ok hC
  exact ⟨a, t, hact, hact, hQ⟩

end Returns

variable {s t : Session} {C D : Prop} {P : α → Session → Prop} {Q : β → Session → Prop}

/-! ### Operations without parts -/

theorem returns_of_ok {act : Play α} {a : α} {P : α → Session → Prop} (h : act s = .ok a t) (hP : P a t) :
    act.Returns s True P :=
  ⟨fun _ => ⟨a, t, h, hP⟩, fun hC => absurd trivial hC⟩

theorem returns_pure (a : α) : (pure a : Play α).Returns s True fun b t => b = a ∧ t = s :=
  returns_of_ok rfl ⟨rfl, rfl⟩

theorem returns_note (n : Notice) : (note n).Returns s True fun _ t => s.Noted t :=
  returns_of_ok rfl ⟨_, rfl⟩

/-- A result found elsewhere. -/
theorem returns_except (r : Except Fault α) :
    (liftM r : Play α).Returns s (∃ a, r = .ok a) fun a t => r = .ok a ∧ t = s := by
  cases r with
  | ok a => exact (returns_of_ok rfl ⟨rfl, rfl⟩).iff ⟨fun _ => ⟨a, rfl⟩, fun _ => trivial⟩
  | error e =>
      refine ⟨?_, fun _ => ⟨e, s, rfl⟩⟩
      rintro ⟨a, ha⟩
      cases ha

/-- A piece of data that is read leaves notices at most. -/
theorem returns_reading (r : Reading α) :
    (liftM r : Play α).Returns s (∃ a, r.result = .ok a) fun a t => r.result = .ok a ∧ s.Noted t := by
  cases hr : r.result with
  | ok a =>
      refine (returns_of_ok (lift_reading_of_ok hr s) ⟨rfl, _, rfl⟩).iff ?_
      exact ⟨fun _ => ⟨a, rfl⟩, fun _ => trivial⟩
  | error e =>
      refine ⟨?_, fun _ => ?_⟩
      · rintro ⟨a, ha⟩
        cases ha
      · exact ⟨e, _, lift_reading_of_error hr s⟩

/-! ### Operations with parts -/

/-- **A sequence returns when its parts do.** -/
theorem Returns.bind {x : Play α} {f : α → Play β} (hx : x.Returns s C P)
    (hf : ∀ a t, P a t → (f a).Returns t D Q) : (x >>= f).Returns s (C ∧ D) Q := by
  constructor
  · rintro ⟨hC, hD⟩
    obtain ⟨a, t, hact, hP⟩ := hx.ok hC
    obtain ⟨b, u, hrest, hQ⟩ := (hf a t hP).ok hD
    exact ⟨b, u, (bind_of_ok hact).trans hrest, hQ⟩
  · intro hCD
    by_cases hC : C
    · obtain ⟨a, t, hact, hP⟩ := hx.ok hC
      obtain ⟨e, u, hrest⟩ := (hf a t hP).error fun hD => hCD ⟨hC, hD⟩
      exact ⟨e, u, (bind_of_ok hact).trans hrest⟩
    · obtain ⟨e, t, hfail⟩ := hx.error hC
      exact ⟨e, t, bind_of_error hfail⟩

/-- A sequence whose first part always comes to a result. -/
theorem Returns.then {x : Play α} {f : α → Play β} (hx : x.Returns s True P)
    (hf : ∀ a t, P a t → (f a).Returns t D Q) : (x >>= f).Returns s D Q :=
  (hx.bind hf).iff (iff_of_eq (true_and D))

/-- A sequence whose parts after the first always come to a result. -/
theorem Returns.first {x : Play α} {f : α → Play β} (hx : x.Returns s C P)
    (hf : ∀ a t, P a t → (f a).Returns t True Q) : (x >>= f).Returns s C Q :=
  (hx.bind hf).iff (iff_of_eq (and_true C))

/-- A sequence that begins with a look at the session. -/
theorem returns_getBind {f : Session → Play β} (h : (f s).Returns s D Q) :
    (get >>= f : Play β).Returns s D Q :=
  ⟨h.ok, h.error⟩

/-- A sequence whose first part comes to a result that is known. -/
theorem returns_bind_of_ok {x : Play α} {f : α → Play β} {a : α} (hx : x s = .ok a t)
    (hf : (f a).Returns t D Q) : (x >>= f).Returns s D Q := by
  refine ⟨fun hD => ?_, fun hD => ?_⟩
  · obtain ⟨b, u, hrest, hQ⟩ := hf.ok hD
    exact ⟨b, u, (bind_of_ok hx).trans hrest, hQ⟩
  · obtain ⟨e, u, hrest⟩ := hf.error hD
    exact ⟨e, u, (bind_of_ok hx).trans hrest⟩

/-- A sequence that begins with a result found elsewhere. -/
theorem returns_exceptBind {r : Except Fault α} {a : α} {f : α → Play β} (h : r = .ok a)
    (hf : (f a).Returns s D Q) : (liftM r >>= f : Play β).Returns s D Q := by
  subst h
  exact returns_bind_of_ok rfl hf

/-- A sequence that begins with a piece of data that can be read. -/
theorem returns_readingBind {r : Reading α} {a : α} {f : α → Play β} (h : r.result = .ok a)
    (hf : ∀ t, s.Noted t → (f a).Returns t D Q) : (liftM r >>= f : Play β).Returns s D Q := by
  refine Returns.then ((returns_reading r).iff (iff_true_intro ⟨a, h⟩)) ?_
  rintro _ t ⟨hsame, hnoted⟩
  cases h.symm.trans hsame
  exact hf t hnoted

theorem Returns.discard {x : Play α} {R : Session → Prop} (hx : x.Returns s C fun _ t => R t) :
    (Functor.discard x : Play PUnit).Returns s C fun _ t => R t := by
  constructor
  · intro hC
    obtain ⟨a, t, hact, hR⟩ := hx.ok hC
    exact ⟨⟨⟩, t, by rw [discard_apply, hact], hR⟩
  · intro hC
    obtain ⟨e, t, hact⟩ := hx.error hC
    exact ⟨e, t, by rw [discard_apply, hact]⟩

end Play

end EventLayer
