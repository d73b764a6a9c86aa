/-
**Selectors and locations in the texts of a call.**

A selector of digits selects by number, but not all signs that count as digits are decimal digits, and a
number can have too many of them; then the selector is no number, and no name either.  A location whose
numbers denote no number is no location.  One whose first unusable number is an infinity is not read at
all, and neither is a text with a number of too many digits.

Main definitions:

* `Text.IsOddNumeral`, `Selector.Unreadable` — digits that are no number, and selectors of such;
* `Location.given?`, `Location.Overflows` — the numbers of a location, and the first of them that cannot
  be used being infinite;
* `Location.Unreadable` — locations whose reading fails.

Main results:

* `Selector.exists_read_iff`, `Location.exists_read_iff` — **selectors and locations are read unless they
  are unreadable**;
* `Location.readNumbers_eq_tooLarge_iff` — the numbers of a location fail by their first infinite one.
-/
import EventLayer.Link.Selector
import EventLayer.Location
import EventLayer.Proofs.Results

set_option autoImplicit false
set_option relaxedAutoImplicit false

namespace EventLayer

/-! ### Selectors -/

/-- A text of digits that denotes no whole number: one of them is no decimal digit, or there are too
many. -/
def Text.IsOddNumeral (s : String) : Prop :=
  Text.trim s ≠ "" ∧ (Text.trim s).toList.all Text.isDigitLike = true ∧ Text.readInt? (Text.trim s) = none

namespace Selector

/-- A selector whose reading fails. -/
def Unreadable : Json → Prop
  | .null | .int _ | .bool _ => False
  | v => Text.IsOddNumeral v.text

theorem exists_ofText_iff (s : String) : (∃ selector, ofText s = .ok selector) ↔ ¬Text.IsOddNumeral s := by
  unfold ofText
  dsimp only
  split
  · next hblank => exact iff_of_true ⟨_, rfl⟩ fun hodd => hodd.1 hblank
  · next hword =>
      split
      · next hdigits =>
          cases hread : Text.readInt? (Text.trim s) with
          | some n =>
              refine iff_of_true ⟨_, rfl⟩ fun hodd => ?_
              rw [hodd.2.2] at hread
              cases hread
          | none => exact iff_of_false nofun (not_not_intro ⟨hword, hdigits, hread⟩)
      · next hdigits => exact iff_of_true ⟨_, rfl⟩ fun hodd => hdigits hodd.2.1

/-- **A selector is read unless its digits are no number.** -/
theorem exists_read_iff (v : Json) : (∃ selector, read v = .ok selector) ↔ ¬Unreadable v := by
  cases v with
  | null => exact iff_of_true ⟨_, rfl⟩ id
  | int n => exact iff_of_true ⟨_, rfl⟩ id
  | bool b => exact iff_of_true ⟨_, rfl⟩ id
  | float x => exact exists_ofText_iff (Json.float x).text
  | str s => exact exists_ofText_iff s
  | arr items => exact exists_ofText_iff (Json.arr items).text
  | obj fields => exact exists_ofText_iff (Json.obj fields).text

end Selector

/-! ### The numbers of a location -/

namespace Json

/-- A value that is too large for a floating-point number, or denotes an infinity. -/
def IsUnbounded (v : Json) : Prop :=
  v.toDouble = .error .tooLarge ∨ ∃ negative, v.toDouble = .ok (.infinite negative)

variable {v : Json}

theorem toDouble_truncate_eq_tooLarge_iff (v : Json) :
    (v.toDouble >>= Double.truncate) = .error .tooLarge ↔ v.IsUnbounded := by
  unfold IsUnbounded
  cases v.toDouble with
  | error e => simp [bind, Except.bind]
  | ok x => cases x <;> simp [bind, Except.bind, Double.truncate]

/-- A value without a whole part has the wrong type, denotes no number, or is unbounded. -/
theorem error_of_toDouble_truncate {e : Fault} (h : (v.toDouble >>= Double.truncate) = .error e) :
    e = .wrongType ∨ e = .notANumber ∨ e = .tooLarge := by
  cases hv : v.toDouble with
  | ok x =>
      rw [hv, Except.ok_bind] at h
      cases x <;> cases h <;> simp
  | error e' =>
      rw [hv] at h
      cases h
      cases v with
      | bool b => cases hv
      | float x => cases hv
      | int n =>
          simp only [toDouble, Double.ofIntChecked] at hv
          split at hv <;> cases hv
          simp
      | str s =>
          simp only [toDouble] at hv
          split at hv <;> cases hv
          simp
      | null | arr items | obj fields =>
          cases hv
          simp

end Json

namespace Location

/-- Something is given, be it unusable. -/
def isGiven (v : Json) : Bool := !(v matches .null) && !(v matches .str "")

/-- What is given under the first of several names at which something is given. -/
def given? (fields : OrderedMap String Json) (names : List String) : Option Json :=
  names.findSome? fun name => (fields.get? name).filter isGiven

theorem intField_cons (fields : OrderedMap String Json) (name : String) (names : List String) :
    intField fields (name :: names) = match (fields.get? name).filter isGiven with
      | none => intField fields names
      | some v => v.toDouble >>= Double.truncate := by
  rw [intField]
  cases fields.get? name with
  | none => rfl
  | some v =>
      rw [Option.filter_some]
      cases v with
      | str s =>
          by_cases hs : s = ""
          · subst hs
            rfl
          · simp [isGiven, hs]
      | _ => rfl

theorem intField_eq (fields : OrderedMap String Json) (names : List String) :
    intField fields names = match given? fields names with
      | none => .ok 0
      | some v => v.toDouble >>= Double.truncate := by
  induction names with
  | nil => rfl
  | cons name rest ih =>
      rw [intField_cons, given?, List.findSome?_cons]
      cases (fields.get? name).filter isGiven with
      | none => exact ih
      | some v => rfl

/-- Under the first of several names at which something is given, it is unbounded. -/
def GivesUnbounded (fields : OrderedMap String Json) (names : List String) : Prop :=
  ∃ v, given? fields names = some v ∧ v.IsUnbounded

theorem intField_eq_tooLarge_iff (fields : OrderedMap String Json) (names : List String) :
    intField fields names = .error .tooLarge ↔ GivesUnbounded fields names := by
  rw [intField_eq, GivesUnbounded]
  cases given? fields names with
  | none => simp
  | some v => simp [Json.toDouble_truncate_eq_tooLarge_iff]

theorem error_of_intField {fields : OrderedMap String Json} {names : List String} {e : Fault}
    (h : intField fields names = .error e) : e = .wrongType ∨ e = .notANumber ∨ e = .tooLarge := by
  rw [intField_eq] at h
  split at h
  · cases h
  · exact Json.error_of_toDouble_truncate h

/-- The names of the numbers of a location, in the order in which they are read. -/
def numberNames : List (List String) :=
  [["x"], ["y"], ["forward", "shift_forward"], ["rightward", "right", "shift_right"]]

/-- One of several numbers is unbounded, and those before it can be read. -/
def Overflows (fields : OrderedMap String Json) : List (List String) → Prop
  | [] => False
  | names :: rest =>
    GivesUnbounded fields names ∨ (∃ n, intField fields names = .ok n) ∧ Overflows fields rest

/-- **The numbers of a location fail by an infinity if the first that cannot be used is one.** -/
theorem readNumbers_eq_tooLarge_iff (fields : OrderedMap String Json) (relativity : Relativity) :
    readNumbers fields relativity = .error .tooLarge ↔ Overflows fields numberNames := by
  simp only [readNumbers, Except.bind_eq_error_iff, intField_eq_tooLarge_iff, Overflows, numberNames]
  simp [pure, Except.pure]

theorem error_of_readNumbers {fields : OrderedMap String Json} {relativity : Relativity} {e : Fault}
    (h : readNumbers fields relativity = .error e) : e = .wrongType ∨ e = .notANumber ∨ e = .tooLarge := by
  simp only [readNumbers, Except.bind_eq_error_iff] at h
  rcases h with h | ⟨x, -, h | ⟨y, -, h | ⟨forward, -, h | ⟨rightward, -, h⟩⟩⟩⟩
  · exact error_of_intField h
  · exact error_of_intField h
  · exact error_of_intField h
  · exact error_of_intField h
  · cases h

/-! ### Locations -/

/-- The numbers of a location whose fields are given fail by an infinity. -/
def FieldsOverflow (raw : List (String × Json)) : Prop := Overflows (normalFields raw) numberNames

/-- A location whose reading fails. -/
def Unreadable : Json → Prop
  | .str s => s ≠ "" ∧ (Json.read s = .error .tooManyDigits ∨
      ∃ fields, Json.read s = .ok (.obj fields) ∧ FieldsOverflow fields)
  | .obj fields => FieldsOverflow fields
  | _ => False

theorem exists_readRelativity (fields : OrderedMap String Json) :
    ∃ r, (readRelativity fields).result = .ok r := by
  unfold readRelativity
  dsimp only
  split
  · exact ⟨_, rfl⟩
  · exact ⟨_, rfl⟩

theorem exists_ofFields_iff (raw : List (String × Json)) :
    (∃ spec, (ofFields raw).result = .ok spec) ↔ ¬FieldsOverflow raw := by
  obtain ⟨r, hr⟩ := exists_readRelativity (normalFields raw)
  unfold ofFields
  dsimp only
  rw [Reading.result_bind_ok hr, FieldsOverflow, ← readNumbers_eq_tooLarge_iff _ r]
  cases hnumbers : readNumbers (normalFields raw) r with
  | ok spec => exact iff_of_true ⟨_, rfl⟩ nofun
  | error e =>
      rcases error_of_readNumbers hnumbers with rfl | rfl | rfl
      · exact iff_of_true ⟨_, rfl⟩ nofun
      · exact iff_of_true ⟨_, rfl⟩ nofun
      · exact iff_of_false nofun (not_not_intro rfl)

/-- **A location is read unless its first unusable number is an infinity, or it is a text with a number of
too many digits.** -/
theorem exists_read_iff (v : Json) : (∃ spec, (read v).result = .ok spec) ↔ ¬Unreadable v := by
  cases v with
  | obj fields => exact exists_ofFields_iff fields
  | null | bool b | int n | float x | arr items => exact iff_of_true ⟨_, rfl⟩ id
  | str s =>
      by_cases hempty : s = ""
      · subst hempty
        exact iff_of_true ⟨_, rfl⟩ fun h => h.1 rfl
      · rw [read, Unreadable]
        · cases hread : Json.read s with
          | error misread =>
              cases misread with
              | malformed => exact iff_of_true ⟨none, rfl⟩ (by simp)
              | tooManyDigits => exact iff_of_false nofun (by simp [hempty])
          | ok v =>
              cases v with
              | obj fields => simpa [hempty] using exists_ofFields_iff fields
              | null | bool b | int n | float x | str s | arr items =>
                  exact iff_of_true ⟨none, rfl⟩ (by simp)
        · exact hempty

end Location

end EventLayer
