/-
**Numbers in the texts of a call.**

The arguments of a call are texts, and where a number is needed the text is read as a decimal number and
cut to its whole part.  A text that denotes no number is as good as a zero, or as no limit at all.  A text
that denotes an infinity is not: an infinity has no whole part, and the reading fails.

Main definitions:

* `Json.IsInfinite`, `Json.NoNumber` — texts that denote an infinity, and texts that denote no number.

Main results:

* `Json.decimalPart_cases` — a text denotes a number with a whole part, no number, or an infinity;
* `exists_readAmount_iff`, `exists_readDistance_iff` — **amounts and distances are read unless they are
  infinite**;
* `ofIntChecked_of_readAmount` — an amount that is read is in the range of floating-point numbers.
-/
import EventLayer.Link.Selector
import EventLayer.Proofs.Double.Rounding
import EventLayer.Proofs.Results
import EventLayer.Session.Loot

set_option autoImplicit false
set_option relaxedAutoImplicit false

namespace EventLayer

/-! ### Decimal texts -/

namespace Json

/-- The text of a value denotes an infinity. -/
def IsInfinite (v : Json) : Prop := ∃ negative, v.decimal? = some (.infinite negative)

/-- The text of a value denotes no number. -/
def NoNumber (v : Json) : Prop := v.decimalPart = .error .notANumber

instance (v : Json) : Decidable v.IsInfinite :=
  match h : v.decimal? with
  | some (.infinite negative) => isTrue ⟨negative, h⟩
  | some .nan | some .negZero | some (.finite _) | none => isFalse (by simp [IsInfinite, h])

instance (v : Json) : Decidable v.NoNumber :=
  match h : v.decimalPart with
  | .ok _ => isFalse (by simp [NoNumber, h])
  | .error e => decidable_of_iff (e = .notANumber) (by simp [NoNumber, h])

variable {v : Json}

theorem decimalPart_of_isInfinite (h : v.IsInfinite) : v.decimalPart = .error .tooLarge := by
  obtain ⟨negative, h⟩ := h
  rw [decimalPart, h]
  rfl

theorem not_isInfinite_of_ok {n : Int} (h : v.decimalPart = .ok n) : ¬v.IsInfinite := by
  intro hinfinite
  rw [decimalPart_of_isInfinite hinfinite] at h
  cases h

theorem NoNumber.not_isInfinite (h : v.NoNumber) : ¬v.IsInfinite := by
  intro hinfinite
  rw [NoNumber, decimalPart_of_isInfinite hinfinite] at h
  cases h

/-- A text denotes a number with a whole part, no number, or an infinity. -/
theorem decimalPart_cases (v : Json) :
    (∃ n, v.decimalPart = .ok n) ∨ v.NoNumber ∨ v.IsInfinite := by
  unfold NoNumber IsInfinite decimalPart
  cases v.decimal? with
  | none => exact Or.inr (Or.inl rfl)
  | some x =>
      cases x with
      | nan => exact Or.inr (Or.inl rfl)
      | infinite negative => exact Or.inr (Or.inr ⟨negative, rfl⟩)
      | negZero => exact Or.inl ⟨0, rfl⟩
      | finite q => exact Or.inl ⟨q.num.tdiv q.den, rfl⟩

end Json

/-! ### Amounts -/

variable {v : Json}

/-- An amount that is no number counts as zero. -/
theorem readAmount_of_noNumber (h : v.NoNumber) : (readAmount v).result = .ok 0 := by
  unfold readAmount
  rw [show v.decimalPart = _ from h]
  rfl

theorem readAmount_of_ok {n : Int} (h : v.decimalPart = .ok n) : (readAmount v).result = .ok n := by
  unfold readAmount
  rw [h]
  rfl

theorem readAmount_of_isInfinite (h : v.IsInfinite) :
    (readAmount v).result = .error .tooLarge := by
  unfold readAmount
  rw [Json.decimalPart_of_isInfinite h]
  rfl

/-- **An amount is read unless it is infinite.** -/
theorem exists_readAmount_iff (v : Json) :
    (∃ n, (readAmount v).result = .ok n) ↔ ¬v.IsInfinite := by
  rcases v.decimalPart_cases with ⟨n, hn⟩ | hnone | hinfinite
  · exact iff_of_true ⟨n, readAmount_of_ok hn⟩ (Json.not_isInfinite_of_ok hn)
  · exact iff_of_true ⟨0, readAmount_of_noNumber hnone⟩ hnone.not_isInfinite
  · refine iff_of_false ?_ (not_not_intro hinfinite)
    rintro ⟨n, hn⟩
    rw [readAmount_of_isInfinite hinfinite] at hn
    cases hn

/-- An amount that is read is in the range of floating-point numbers. -/
theorem ofIntChecked_of_readAmount {n : Int} (h : (readAmount v).result = .ok n) :
    ∃ x, Double.ofIntChecked n = .ok x := by
  rcases v.decimalPart_cases with ⟨m, hm⟩ | hnone | hinfinite
  · rw [readAmount_of_ok hm] at h
    cases h
    exact Json.ofIntChecked_of_decimalPart hm
  · rw [readAmount_of_noNumber hnone] at h
    cases h
    exact Double.ofIntChecked_of_le (Nat.zero_le _)
  · rw [readAmount_of_isInfinite hinfinite] at h
    cases h

/-! ### Distances -/

/-- A blank text denotes no number. -/
theorem Json.noNumber_of_blank (h : Text.trim v.text = "") : v.NoNumber := by
  unfold NoNumber decimalPart decimal?
  rw [h]
  decide +kernel

/-- **A distance is read unless it is infinite.** -/
theorem exists_readDistance_iff (v : Json) :
    (∃ limit, (readDistance v).result = .ok limit) ↔ ¬v.IsInfinite := by
  unfold readDistance
  split
  · exact iff_of_true ⟨none, rfl⟩ (by decide +kernel)
  · dsimp only
    split
    · next hblank => exact iff_of_true ⟨none, rfl⟩ (Json.noNumber_of_blank hblank).not_isInfinite
    · rcases v.decimalPart_cases with ⟨n, hn⟩ | hnone | hinfinite
      · rw [hn]
        exact iff_of_true ⟨_, rfl⟩ (Json.not_isInfinite_of_ok hn)
      · rw [show v.decimalPart = _ from hnone]
        exact iff_of_true ⟨none, rfl⟩ hnone.not_isInfinite
      · rw [Json.decimalPart_of_isInfinite hinfinite]
        refine iff_of_false ?_ (not_not_intro hinfinite)
        rintro ⟨limit, hlimit⟩
        cases hlimit

end EventLayer
