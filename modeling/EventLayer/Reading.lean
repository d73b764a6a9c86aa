/-
**Reading the editor's data.**

To read a piece of the editor's data is to leave notices about what had to be repaired and to come
to a result or a fault.  Notices stay in the order in which they were left, and those left before a
fault are kept.

Main definitions:

* `Reading` — the notices and the result;
* `Reading.note` — leave a notice;
* `Reading.ofExcept` — a step that leaves none.

Main results:

* `Reading.notices_bind_ok`, `Reading.result_bind_ok` — what a sequence of two readings leaves when
  the first comes to a result.
-/
import EventLayer.Notice

set_option autoImplicit false
set_option relaxedAutoImplicit false

namespace EventLayer

/-- The outcome of reading a piece of data. -/
structure Reading (α : Type) where
  notices : List Notice := []
  result : Except Fault α

namespace Reading

variable {α β : Type}

/-- A second reading after the first, if that came to a result. -/
def andThen (r : Reading α) (f : α → Reading β) : Reading β :=
  match r.result with
  | .ok a => ⟨r.notices ++ (f a).notices, (f a).result⟩
  | .error e => ⟨r.notices, .error e⟩

instance : Monad Reading where
  pure a := ⟨[], .ok a⟩
  bind := andThen

instance : MonadExceptOf Fault Reading where
  throw e := ⟨[], .error e⟩
  tryCatch r h :=
    match r.result with
    | .ok a => ⟨r.notices, .ok a⟩
    | .error e => ⟨r.notices ++ (h e).notices, (h e).result⟩

/-- A step that leaves no notice. -/
def ofExcept (r : Except Fault α) : Reading α := ⟨[], r⟩

instance : MonadLift (Except Fault) Reading := ⟨ofExcept⟩

/-- Leave a notice. -/
def note (n : Notice) : Reading Unit := ⟨[n], .ok ()⟩

@[simp] theorem notices_pure (a : α) : (pure a : Reading α).notices = [] := rfl

@[simp] theorem result_pure (a : α) : (pure a : Reading α).result = .ok a := rfl

@[simp] theorem notices_note (n : Notice) : (note n).notices = [n] := rfl

@[simp] theorem result_note (n : Notice) : (note n).result = .ok () := rfl

theorem notices_bind_ok {r : Reading α} {a : α} (h : r.result = .ok a) (f : α → Reading β) :
    (r >>= f).notices = r.notices ++ (f a).notices := by
  change (andThen r f).notices = _
  simp [andThen, h]

theorem result_bind_ok {r : Reading α} {a : α} (h : r.result = .ok a) (f : α → Reading β) :
    (r >>= f).result = (f a).result := by
  change (andThen r f).result = _
  simp [andThen, h]

end Reading

end EventLayer
