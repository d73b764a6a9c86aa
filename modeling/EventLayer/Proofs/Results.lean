/-
**Readings that come to a result.**

A sequence of readings comes to a result only through a result of each of its parts.  From this
follows what a fold comes to, row by row, and what it keeps.

Main results:

* `Except.bind_eq_ok`, `Reading.bind_eq_ok` — **a result passes through results**;
* `Except.foldlM_rows` — rows that were written from entries add these entries again;
* `Except.foldlM_keeps` — what every step of a fold keeps, the fold keeps.
-/
import EventLayer.Json
import EventLayer.Reading

set_option autoImplicit false
set_option relaxedAutoImplicit false

namespace EventLayer

variable {ε σ κ α β : Type}

/-! ### Sequences -/

theorem Except.ok_bind (a : α) (f : α → Except ε β) : ((.ok a : Except ε α) >>= f) = f a := rfl

/-- Whether a given value comes out can be decided. -/
instance Except.decidableEqOk [DecidableEq α] (x : Except ε α) (a : α) : Decidable (x = .ok a) :=
  match x with
  | .ok b => decidable_of_iff (b = a) ⟨fun h => h ▸ rfl, Except.ok.inj⟩
  | .error _ => isFalse nofun

theorem Except.bind_eq_ok {x : Except ε α} {f : α → Except ε β} {b : β}
    (h : (x >>= f) = .ok b) : ∃ a, x = .ok a ∧ f a = .ok b := by
  cases x with
  | error e => cases h
  | ok a => exact ⟨a, rfl, h⟩

/-- A fault passes through, or arises at the second step. -/
theorem Except.bind_eq_error_iff {x : Except ε α} {f : α → Except ε β} {e : ε} :
    (x >>= f) = .error e ↔ x = .error e ∨ ∃ a, x = .ok a ∧ f a = .error e := by
  cases x with
  | error e' => simp [bind, Except.bind]
  | ok a => simp [bind, Except.bind]

theorem Reading.bind_eq_ok {r : Reading α} {f : α → Reading β} {b : β}
    (h : (r >>= f).result = .ok b) : ∃ a, r.result = .ok a ∧ (f a).result = .ok b := by
  cases hr : r.result with
  | ok a => exact ⟨a, rfl, by rwa [Reading.result_bind_ok hr] at h⟩
  | error e =>
      change (Reading.andThen r f).result = _ at h
      rw [Reading.andThen, hr] at h
      cases h

/-- Reading a block of an object. -/
theorem Reading.block_eq_ok {v w d : Json} {key : String} {read : Json → Except Fault α}
    {f : α → Reading β} {b : β} (hw : v.fieldD key d = .ok w)
    (h : (do f (← read (← v.fieldD key d)) : Reading β).result = .ok b) :
    ∃ a, read w = .ok a ∧ (f a).result = .ok b := by
  obtain ⟨u, hu, h⟩ := Reading.bind_eq_ok h
  obtain rfl := Except.ok.inj (hw.symm.trans hu)
  exact Reading.bind_eq_ok h

/-! ### Folds -/

/-- Reading rows that were written from entries, where each row read adds its entry. -/
theorem Except.foldlM_rows {f : σ → α → Except ε σ} {row : κ → α} {add : σ → κ → σ}
    {entries : List κ} (h : ∀ e ∈ entries, ∀ s t, f s (row e) = .ok t → t = add s e) {s t : σ}
    (ht : (entries.map row).foldlM f s = .ok t) : t = entries.foldl add s := by
  induction entries generalizing s with
  | nil =>
      cases ht
      rfl
  | cons e rest ih =>
      rw [List.map_cons, List.foldlM_cons] at ht
      obtain ⟨u, hu, hrest⟩ := Except.bind_eq_ok ht
      rw [List.foldl_cons, ← h e (by simp) s u hu]
      exact ih (fun e he => h e (by simp [he])) hrest

/-- What every step of a fold keeps, the fold keeps. -/
theorem Except.foldlM_keeps {f : σ → α → Except ε σ} {P : σ → Prop}
    (h : ∀ s t a, P s → f s a = .ok t → P t) {l : List α} {s t : σ} (hs : P s)
    (ht : l.foldlM f s = .ok t) : P t := by
  induction l generalizing s with
  | nil =>
      cases ht
      exact hs
  | cons a rest ih =>
      rw [List.foldlM_cons] at ht
      obtain ⟨u, hu, hrest⟩ := Except.bind_eq_ok ht
      exact ih (h s u a hs hu) hrest

end EventLayer
