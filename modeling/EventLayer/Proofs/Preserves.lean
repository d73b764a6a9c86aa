/-
**What operations leave as it was.**

An operation preserves a property of sessions if the session that it leaves has the property
whenever the one before had it, and this whether the operation comes to a result or fails.  The
property is preserved by a sequence of operations as soon as each of them preserves it, so that a
claim about a long operation is a claim about the few places that write the state.

Main definitions:

* `Play.after` — the session that an operation leaves;
* `Play.Preserves` — a property that an operation leaves as it was.

Main results:

* `Play.bind_apply`, `Play.tryCatch_apply` — operations one after the other;
* `Play.Preserves.bind`, `Play.preserves_getBind` — **a sequence preserves what its parts do**.
-/
import EventLayer.Session.State

set_option autoImplicit false
set_option relaxedAutoImplicit false

namespace EventLayer.Play

variable {α β : Type}

/-! ### Operations applied to a session -/

theorem bind_apply (x : Play α) (f : α → Play β) (s : Session) :
    (x >>= f) s = match x s with
      | .ok a t => f a t
      | .error e t => .error e t := by
  change EStateM.bind x f s = _
  unfold EStateM.bind
  cases x s <;> rfl

theorem bind_of_ok {x : Play α} {f : α → Play β} {s t : Session} {a : α} (h : x s = .ok a t) :
    (x >>= f) s = f a t := by
  rw [bind_apply, h]

theorem bind_of_error {x : Play α} {f : α → Play β} {s t : Session} {e : Fault}
    (h : x s = .error e t) : (x >>= f) s = .error e t := by
  rw [bind_apply, h]

/-- A sequence that comes to a result passes through a result of its first part. -/
theorem bind_eq_ok {x : Play α} {f : α → Play β} {s t : Session} {b : β}
    (h : (x >>= f) s = .ok b t) : ∃ a u, x s = .ok a u ∧ f a u = .ok b t := by
  rw [bind_apply] at h
  cases hx : x s with
  | ok a u => exact ⟨a, u, rfl, by rwa [hx] at h⟩
  | error e u =>
      rw [hx] at h
      cases h

/-- What follows an operation depends on its outcome only. -/
theorem bind_apply_congr {x y : Play α} {s t : Session} (h : x s = y t) (f : α → Play β) :
    (x >>= f) s = (y >>= f) t := by
  rw [bind_apply, bind_apply, h]

theorem map_apply (g : α → β) (x : Play α) (s : Session) :
    (g <$> x) s = match x s with
      | .ok a t => .ok (g a) t
      | .error e t => .error e t := by
  change EStateM.map g x s = _
  unfold EStateM.map
  cases x s <;> rfl

theorem discard_apply (x : Play α) (s : Session) :
    (Functor.discard x : Play PUnit) s = match x s with
      | .ok _ t => .ok ⟨⟩ t
      | .error e t => .error e t :=
  map_apply _ x s

theorem tryCatch_apply (x : Play α) (handle : Fault → Play α) (s : Session) :
    (tryCatch x handle : Play α) s = match x s with
      | .ok a t => .ok a t
      | .error e t => handle e t := by
  change EStateM.tryCatch x handle s = _
  unfold EStateM.tryCatch
  cases x s <;> rfl

@[simp] theorem pure_apply (a : α) (s : Session) : (pure a : Play α) s = .ok a s := rfl

@[simp] theorem throw_apply (e : Fault) (s : Session) : (throw e : Play α) s = .error e s := rfl

@[simp] theorem get_apply (s : Session) : (get : Play Session) s = .ok s s := rfl

@[simp] theorem set_apply (t s : Session) : (set t : Play PUnit) s = .ok ⟨⟩ t := rfl

@[simp] theorem modify_apply (f : Session → Session) (s : Session) :
    (modify f : Play PUnit) s = .ok ⟨⟩ (f s) := rfl

theorem get_bind_apply (f : Session → Play β) (s : Session) : (get >>= f) s = f s s := rfl

theorem modify_bind_apply (g : Session → Session) (f : PUnit → Play β) (s : Session) :
    ((modify g : Play PUnit) >>= f) s = f ⟨⟩ (g s) := rfl

@[simp] theorem lift_act_apply (a : Act α) (s : Session) :
    (liftM a : Play α) s = .ok (a s).1 (a s).2 := rfl

@[simp] theorem lift_ok_apply (a : α) (s : Session) :
    (liftM (Except.ok a : Except Fault α) : Play α) s = .ok a s := rfl

@[simp] theorem lift_error_apply (e : Fault) (s : Session) :
    (liftM (Except.error e : Except Fault α) : Play α) s = .error e s := rfl

theorem lift_reading_of_ok {r : Reading α} {a : α} (h : r.result = .ok a) (s : Session) :
    (liftM r : Play α) s = .ok a { s with notices := s.notices ++ r.notices } := by
  change ofReading r s = _
  unfold ofReading
  rw [h]

theorem lift_pure_reading_apply (a : α) (s : Session) :
    (liftM (pure a : Reading α) : Play α) s = .ok a s := by
  rw [lift_reading_of_ok rfl, Reading.notices_pure, List.append_nil]

theorem lift_reading_of_error {r : Reading α} {e : Fault} (h : r.result = .error e) (s : Session) :
    (liftM r : Play α) s = .error e { s with notices := s.notices ++ r.notices } := by
  change ofReading r s = _
  unfold ofReading
  rw [h]

/-- A sequence that comes to a result has a result to begin with, which changes nothing. -/
theorem except_bind_eq_ok {r : Except Fault α} {f : α → Play β} {s t : Session} {b : β}
    (h : ((liftM r : Play α) >>= f) s = .ok b t) : ∃ a, r = .ok a ∧ f a s = .ok b t := by
  cases r with
  | error e => cases h
  | ok a => exact ⟨a, rfl, h⟩

theorem reading_bind_eq_ok {r : Reading α} {f : α → Play β} {s t : Session} {b : β}
    (h : ((liftM r : Play α) >>= f) s = .ok b t) : ∃ a, r.result = .ok a ∧
      f a { s with notices := s.notices ++ r.notices } = .ok b t := by
  obtain ⟨a, u, hu, h⟩ := bind_eq_ok h
  cases hr : r.result with
  | ok a' =>
      rw [lift_reading_of_ok hr] at hu
      cases hu
      exact ⟨a, rfl, h⟩
  | error e =>
      rw [lift_reading_of_error hr] at hu
      cases hu

/-! ### The session that is left -/

/-- The session that an operation leaves, whether or not it fails. -/
def after (act : Play α) (s : Session) : Session :=
  match act s with
  | .ok _ t => t
  | .error _ t => t

theorem after_of_ok {act : Play α} {s t : Session} {a : α} (h : act s = .ok a t) :
    act.after s = t := by
  rw [after, h]

theorem after_of_error {act : Play α} {s t : Session} {e : Fault} (h : act s = .error e t) :
    act.after s = t := by
  rw [after, h]

theorem after_between (enter : Session → Session) (leave : Session → Session → Session)
    (x : Play α) (s : Session) :
    (between enter leave x).after s = leave s (x.after (enter s)) := by
  unfold after between
  cases x (enter s) <;> rfl

/-- What holds after the first of two operations, and then after the second one. -/
theorem holds_after_bind {P : Session → Prop} {x : Play α} {f : α → Play β} {s : Session}
    (hx : P (x.after s)) (hf : ∀ a t, x s = .ok a t → P ((f a).after t)) :
    P ((x >>= f).after s) := by
  unfold after
  rw [bind_apply]
  cases h : x s with
  | ok a t => exact hf a t h
  | error e t => exact after_of_error h ▸ hx

/-- Whether an operation comes to a result. -/
def succeeds (act : Play α) (s : Session) : Bool :=
  match act s with
  | .ok _ _ => true
  | .error _ _ => false

theorem eq_ok_of_succeeds {act : Play Unit} {s : Session} (h : act.succeeds s = true) :
    act s = .ok () (act.after s) := by
  unfold succeeds at h
  unfold after
  split at h
  · next ht => rw [ht]
  · cases h

/-- An operation preserves a property of sessions. -/
def Preserves (P : Session → Prop) (act : Play α) : Prop := ∀ s, P s → P (act.after s)

variable {P : Session → Prop}

theorem Preserves.of_ok {x : Play α} (h : x.Preserves P) {s t : Session} {a : α} (hs : P s)
    (hx : x s = .ok a t) : P t := by
  have := h s hs
  rwa [after_of_ok hx] at this

theorem Preserves.of_error {x : Play α} (h : x.Preserves P) {s t : Session} {e : Fault} (hs : P s)
    (hx : x s = .error e t) : P t := by
  have := h s hs
  rwa [after_of_error hx] at this

/-- What a write brings about, and the operation after it leaves. -/
theorem Preserves.holds_after_modify {g : Session → Session} {f : PUnit → Play β}
    (hf : (f ⟨⟩).Preserves P) {s : Session} (h : P (g s)) : P ((modify g >>= f).after s) :=
  hf _ h

/-! ### Operations without parts -/

theorem preserves_pure (a : α) : (pure a : Play α).Preserves P := fun _ h => h

theorem preserves_throw (e : Fault) : (throw e : Play α).Preserves P := fun _ h => h

theorem preserves_modify {g : Session → Session} (h : ∀ s, P s → P (g s)) :
    (modify g : Play PUnit).Preserves P := h

theorem preserves_act {a : Act α} (h : ∀ s, P s → P (a s).2) : (liftM a : Play α).Preserves P := h

theorem preserves_except (r : Except Fault α) : (liftM r : Play α).Preserves P := by
  cases r <;> exact fun _ h => h

/-- Reading a piece of data changes nothing but the notices. -/
theorem preserves_reading (hn : ∀ s n, P s → P { s with notices := n }) (r : Reading α) :
    (liftM r : Play α).Preserves P := by
  intro s hs
  change P ((ofReading r).after s)
  unfold after ofReading
  cases r.result <;> exact hn s _ hs

theorem preserves_note (hn : ∀ s n, P s → P { s with notices := n }) (n : Notice) :
    (note n).Preserves P := preserves_modify fun s hs => hn s _ hs

/-! ### Operations with parts -/

/-- What follows an operation may rely on the result that it came to. -/
theorem Preserves.bind_of_ok {x : Play α} {f : α → Play β} (hx : x.Preserves P)
    (hf : ∀ a s t, x s = .ok a t → (f a).Preserves P) : (x >>= f).Preserves P := by
  intro s hs
  unfold after
  rw [bind_apply]
  cases h : x s with
  | ok a t => exact hf a s t h t (hx.of_ok hs h)
  | error e t => exact hx.of_error hs h

theorem Preserves.bind {x : Play α} {f : α → Play β} (hx : x.Preserves P)
    (hf : ∀ a, (f a).Preserves P) : (x >>= f).Preserves P :=
  hx.bind_of_ok fun a _ _ _ => hf a

theorem preserves_getBind {f : Session → Play β} (h : ∀ s, (f s).Preserves P) :
    (get >>= f : Play β).Preserves P := fun s hs => h s s hs

/-- A sequence that begins with a look at the session, which has the property. -/
theorem preserves_getBind_of {f : Session → Play β} (h : ∀ s, P s → (f s).Preserves P) :
    (get >>= f : Play β).Preserves P := fun s hs => h s hs s hs

/-- A sequence that begins with a result found elsewhere. -/
theorem preserves_exceptBind {r : Except Fault α} {f : α → Play β}
    (h : ∀ a, r = .ok a → (f a).Preserves P) : (liftM r >>= f : Play β).Preserves P := by
  cases r with
  | error e => exact fun _ hs => hs
  | ok a => exact h a rfl

/-- A sequence that begins with a piece of data that is read. -/
theorem preserves_readingBind (hn : ∀ s n, P s → P { s with notices := n }) {r : Reading α}
    {f : α → Play β} (h : ∀ a, r.result = .ok a → (f a).Preserves P) :
    (liftM r >>= f : Play β).Preserves P := by
  intro s hs
  cases hr : r.result with
  | error e =>
      rw [after_of_error (bind_of_error (lift_reading_of_error hr s))]
      exact hn s _ hs
  | ok a =>
      have hread := lift_reading_of_ok hr s
      have hafter : (liftM r >>= f : Play β).after s =
          (f a).after { s with notices := s.notices ++ r.notices } := by
        rw [after, bind_of_ok hread]
        rfl
      rw [hafter]
      exact h a hr _ (hn s _ hs)

theorem Preserves.map {x : Play α} (hx : x.Preserves P) (g : α → β) : (g <$> x).Preserves P := by
  intro s hs
  have hmap : (g <$> x) s = match x s with
      | .ok a t => .ok (g a) t
      | .error e t => .error e t := by
    change EStateM.map g x s = _
    unfold EStateM.map
    cases x s <;> rfl
  unfold after
  rw [hmap]
  cases h : x s with
  | ok a t => exact hx.of_ok hs h
  | error e t => exact hx.of_error hs h

theorem Preserves.discard {x : Play α} (hx : x.Preserves P) :
    (Functor.discard x : Play PUnit).Preserves P := hx.map _

theorem Preserves.tryCatch {x : Play α} (hx : x.Preserves P) {handle : Fault → Play α}
    (hh : ∀ e, (handle e).Preserves P) : (MonadExcept.tryCatch x handle : Play α).Preserves P := by
  intro s hs
  have hcatch : (MonadExcept.tryCatch x handle : Play α) s = _ := tryCatch_apply x handle s
  unfold after
  rw [hcatch]
  cases h : x s with
  | ok a t => exact hx.of_ok hs h
  | error e t => exact hh e t (hx.of_error hs h)

theorem Preserves.ite {c : Prop} [Decidable c] {x y : Play α} (hx : x.Preserves P)
    (hy : y.Preserves P) : (if c then x else y).Preserves P := by
  split
  · exact hx
  · exact hy

theorem Preserves.between {enter : Session → Session} {leave : Session → Session → Session}
    {x : Play α} (he : ∀ s, P s → P (enter s)) (hl : ∀ s t, P t → P (leave s t))
    (hx : x.Preserves P) : (Play.between enter leave x).Preserves P := by
  intro s hs
  unfold after Play.between
  cases h : x (enter s) with
  | ok a t => exact hl s t (hx.of_ok (he s hs) h)
  | error e t => exact hl s t (hx.of_error (he s hs) h)

end EventLayer.Play
