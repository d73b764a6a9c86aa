/-
**Two runs side by side.**

One operation is carried out on two sessions.  The two runs are in lockstep if, whenever the sessions
go together, both come to the same value or fail for the same reason, and the sessions that they
leave go together again.  Of a single session a property is kept if it holds afterwards as well; an
operation that fails may leave less than one that comes to a result.

Main definitions:

* `Play.Agree` — two outcomes go together;
* `Play.Lockstep` — two runs of an operation from sessions that go together;
* `Play.Keeps` — what one run keeps.

Main results:

* `Play.Lockstep.bind`, `Play.lockstep_getBind`, `Play.Lockstep.tryCatch` — **a sequence is in
  lockstep when its parts are**;
* `Play.Lockstep.with_keeps` — what each of two runs keeps comes along.
-/
import EventLayer.Proofs.Preserves

set_option autoImplicit false
set_option relaxedAutoImplicit false

namespace EventLayer.Play

variable {α β : Type}

/-- Two outcomes of an operation go together: the values are equal and the sessions are in a first
relation, or the faults are equal and the sessions are in a second one. -/
inductive Agree (S E : Session → Session → Prop) :
    EStateM.Result Fault Session α → EStateM.Result Fault Session α → Prop
  | ok {a : α} {s t : Session} : S s t → Agree S E (.ok a s) (.ok a t)
  | error {e : Fault} {s t : Session} : E s t → Agree S E (.error e s) (.error e t)

/-- From sessions that go together, two runs of an operation come to outcomes that do. -/
def Lockstep (R S E : Session → Session → Prop) (act : Play α) : Prop :=
  ∀ s t, R s t → Agree S E (act s) (act t)

variable {R S T E F : Session → Session → Prop}

/-! ### Outcomes -/

theorem Agree.mono {p q : EStateM.Result Fault Session α} (h : Agree S E p q)
    (hS : ∀ s t, S s t → T s t) (hE : ∀ s t, E s t → F s t) : Agree T F p q := by
  cases h with
  | ok h => exact .ok (hS _ _ h)
  | error h => exact .error (hE _ _ h)

/-- Two sequences go together if their first parts do, and their rests from sessions that go together. -/
theorem Agree.bind {x y : Play α} {f k : α → Play β} {s t : Session} (hxy : Agree R E (x s) (y t))
    (hfk : ∀ a s t, R s t → Agree S E (f a s) (k a t)) : Agree S E ((x >>= f) s) ((y >>= k) t) := by
  rw [bind_apply, bind_apply]
  generalize x s = p at hxy
  generalize y t = q at hxy
  cases hxy with
  | ok h => exact hfk _ _ _ h
  | error h => exact .error h

theorem Lockstep.mono {R' : Session → Session → Prop} {x : Play α} (h : x.Lockstep R S E)
    (hR : ∀ s t, R' s t → R s t) (hS : ∀ s t, S s t → T s t) (hE : ∀ s t, E s t → F s t) :
    x.Lockstep R' T F :=
  fun s t hst => (h s t (hR s t hst)).mono hS hE

/-- The other run comes to the same result. -/
theorem Lockstep.of_ok {x : Play α} (h : x.Lockstep R S E) {s t s' : Session} {a : α}
    (hst : R s t) (hs : x s = .ok a s') : ∃ t', x t = .ok a t' ∧ S s' t' := by
  have hagree := h s t hst
  rw [hs] at hagree
  generalize x t = q at hagree
  cases hagree with
  | ok h => exact ⟨_, rfl, h⟩

/-- The other run comes to the same fault. -/
theorem Lockstep.of_error {x : Play α} (h : x.Lockstep R S E) {s t s' : Session} {e : Fault}
    (hst : R s t) (hs : x s = .error e s') : ∃ t', x t = .error e t' ∧ E s' t' := by
  have hagree := h s t hst
  rw [hs] at hagree
  generalize x t = q at hagree
  cases hagree with
  | error h => exact ⟨_, rfl, h⟩

/-- Whatever the outcomes are, the sessions that are left go together. -/
theorem Lockstep.after {x : Play α} (h : x.Lockstep R S S) {s t : Session} (hst : R s t) :
    S (x.after s) (x.after t) := by
  have hagree := h s t hst
  unfold Play.after
  generalize x s = p at hagree
  generalize x t = q at hagree
  cases hagree with
  | ok h => exact h
  | error h => exact h

/-- Both runs come to a result, or both fail. -/
theorem Lockstep.succeeds {x : Play α} (h : x.Lockstep R S E) {s t : Session} (hst : R s t) :
    x.succeeds s = x.succeeds t := by
  have hagree := h s t hst
  unfold Play.succeeds
  generalize x s = p at hagree
  generalize x t = q at hagree
  cases hagree with
  | ok _ => rfl
  | error _ => rfl

/-- What comes to the same outcomes from every session is in lockstep as well. -/
theorem Lockstep.congr {x y : Play α} (h : x.Lockstep R S E) (hxy : ∀ s, y s = x s) :
    y.Lockstep R S E := by
  intro s t hst
  rw [hxy, hxy]
  exact h s t hst

/-! ### Operations without parts -/

theorem lockstep_pure (h : ∀ s t, R s t → S s t) (a : α) : (pure a : Play α).Lockstep R S E :=
  fun s t hst => .ok (h s t hst)

theorem lockstep_throw (h : ∀ s t, R s t → E s t) (e : Fault) :
    (throw e : Play α).Lockstep R S E :=
  fun s t hst => .error (h s t hst)

theorem lockstep_modify {g : Session → Session} (h : ∀ s t, R s t → S (g s) (g t)) :
    (modify g : Play PUnit).Lockstep R S E :=
  fun s t hst => .ok (h s t hst)

theorem lockstep_act {a : Act α} (h : ∀ s t, R s t → (a s).1 = (a t).1 ∧ S (a s).2 (a t).2) :
    (liftM a : Play α).Lockstep R S E := by
  intro s t hst
  obtain ⟨hvalue, hleft⟩ := h s t hst
  rw [lift_act_apply, lift_act_apply, hvalue]
  exact .ok hleft

theorem lockstep_except (hE : ∀ s t, R s t → E s t) (r : Except Fault α) :
    (liftM r : Play α).Lockstep R R E := by
  intro s t hst
  cases r with
  | ok a => exact .ok hst
  | error e => exact .error (hE s t hst)

theorem lockstep_reading (hR : ∀ s t m n, R s t → R { s with notices := m } { t with notices := n })
    (hE : ∀ s t, R s t → E s t) (r : Reading α) : (liftM r : Play α).Lockstep R R E := by
  intro s t hst
  have hleft := hR s t (s.notices ++ r.notices) (t.notices ++ r.notices) hst
  change Agree R E (ofReading r s) (ofReading r t)
  unfold ofReading
  cases r.result with
  | ok a => exact .ok hleft
  | error e => exact .error (hE _ _ hleft)

theorem lockstep_value (a : α) : (pure a : Play α).Lockstep R R E := lockstep_pure (fun _ _ h => h) a

theorem lockstep_fault (e : Fault) : (throw e : Play α).Lockstep R R R :=
  lockstep_throw (fun _ _ h => h) e

theorem lockstep_lift (r : Except Fault α) : (liftM r : Play α).Lockstep R R R :=
  lockstep_except (fun _ _ h => h) r

/-! ### Operations with parts -/

/-- **A sequence is in lockstep when its parts are.** -/
theorem Lockstep.bind {x : Play α} {f : α → Play β} (hx : x.Lockstep R S E)
    (hf : ∀ a, (f a).Lockstep S T E) : (x >>= f).Lockstep R T E :=
  fun s t hst => (hx s t hst).bind hf

/-- A sequence that begins with a look at the session sees the same in both. -/
theorem lockstep_getBind {f : Session → Play β} (hf : ∀ s t, R s t → f s = f t)
    (h : ∀ s, (f s).Lockstep R S E) : (get >>= f : Play β).Lockstep R S E := by
  intro s t hst
  rw [get_bind_apply, get_bind_apply, ← hf s t hst]
  exact h s s t hst

theorem Lockstep.ite {c : Prop} [Decidable c] {x y : Play α} (hx : x.Lockstep R S E)
    (hy : y.Lockstep R S E) : (if c then x else y).Lockstep R S E := by
  split
  · exact hx
  · exact hy

theorem Lockstep.map {x : Play α} (hx : x.Lockstep R S E) (g : α → β) :
    (g <$> x).Lockstep R S E := by
  intro s t hst
  have hagree := hx s t hst
  rw [map_apply, map_apply]
  generalize x s = p at hagree
  generalize x t = q at hagree
  cases hagree with
  | ok h => exact .ok h
  | error h => exact .error h

theorem Lockstep.discard {x : Play α} (hx : x.Lockstep R S E) :
    (Functor.discard x : Play PUnit).Lockstep R S E := hx.map _

/-- A fault that both runs have come to is handled in both. -/
theorem Lockstep.tryCatch {x : Play α} {handle : Fault → Play α} (hx : x.Lockstep R S F)
    (hh : ∀ e, (handle e).Lockstep F S E) :
    (MonadExcept.tryCatch x handle : Play α).Lockstep R S E := by
  intro s t hst
  have hcatch : ∀ s, (MonadExcept.tryCatch x handle : Play α) s = _ := tryCatch_apply x handle
  have hagree := hx s t hst
  rw [hcatch, hcatch]
  generalize x s = p at hagree
  generalize x t = q at hagree
  cases hagree with
  | ok h => exact .ok h
  | error h => exact hh _ _ _ h

theorem Lockstep.between {enter : Session → Session} {leave : Session → Session → Session}
    {x : Play α} (hx : x.Lockstep R S E) (he : ∀ s t, R s t → R (enter s) (enter t))
    (hS : ∀ s t s' t', R s t → S s' t' → S (leave s s') (leave t t'))
    (hE : ∀ s t s' t', R s t → E s' t' → E (leave s s') (leave t t')) :
    (Play.between enter leave x).Lockstep R S E := by
  intro s t hst
  have hagree := hx _ _ (he s t hst)
  unfold Play.between
  generalize x (enter s) = p at hagree
  generalize x (enter t) = q at hagree
  cases hagree with
  | ok h => exact .ok (hS s t _ _ hst h)
  | error h => exact .error (hE s t _ _ hst h)

/-! ### One run -/

/-- An operation keeps a property if it comes to a result, and leaves another one if it fails. -/
def Keeps (P F : Session → Prop) (act : Play α) : Prop :=
  ∀ s, P s → (∀ a t, act s = .ok a t → P t) ∧ ∀ e t, act s = .error e t → F t

theorem Keeps.preserves {P : Session → Prop} {x : Play α} (h : x.Keeps P P) : x.Preserves P := by
  intro s hs
  obtain ⟨hok, herror⟩ := h s hs
  unfold Play.after
  cases hx : x s with
  | ok a t => exact hok a t hx
  | error e t => exact herror e t hx

theorem Preserves.keeps {P : Session → Prop} {x : Play α} (h : x.Preserves P) : x.Keeps P P :=
  fun _ hs => ⟨fun _ _ hx => h.of_ok hs hx, fun _ _ hx => h.of_error hs hx⟩

/-- What each of two runs keeps comes along with what they have in common. -/
theorem Lockstep.with_keeps {P G : Session → Prop} {x : Play α} (hx : x.Lockstep R S E)
    (hP : x.Keeps P G) : x.Lockstep (fun s t => R s t ∧ P s ∧ P t)
      (fun s t => S s t ∧ P s ∧ P t) (fun s t => E s t ∧ G s ∧ G t) := by
  rintro s t ⟨hst, hs, ht⟩
  have hagree := hx s t hst
  obtain ⟨hsok, hserror⟩ := hP s hs
  obtain ⟨htok, hterror⟩ := hP t ht
  generalize x s = p at hagree hsok hserror
  generalize x t = q at hagree htok hterror
  cases hagree with
  | ok h => exact .ok ⟨h, hsok _ _ rfl, htok _ _ rfl⟩
  | error h => exact .error ⟨h, hserror _ _ rfl, hterror _ _ rfl⟩

/-- What two runs keep from a session and itself, one run keeps. -/
theorem Lockstep.keeps {P G : Session → Prop} {x : Play α} (hx : x.Lockstep R S E)
    (hR : ∀ s, P s → R s s) (hS : ∀ s t, S s t → P s) (hE : ∀ s t, E s t → G s) : x.Keeps P G := by
  intro s hs
  have hagree := hx s s (hR s hs)
  refine ⟨fun a t ht => ?_, fun e t ht => ?_⟩
  · rw [ht] at hagree
    cases hagree with
    | ok h => exact hS _ _ h
  · rw [ht] at hagree
    cases hagree with
    | error h => exact hE _ _ h

end EventLayer.Play
