/-
**Whole numbers are read as they are written.**

The tables of switches and variables are saved as objects, so that their numbers become texts, and
are read again from them.  A whole number is written with the plain digits, which are the first of
the rows of digits that are read, and with nothing but a minus before them.

Main results:

* `Text.digitRun_of_isDigit` — a run of plain digits;
* `Text.ofDigits_plain` — the number that they write;
* `Text.toString_injective` — different whole numbers are written differently;
* `Text.readInt?_toString` — **a whole number is read as it was written**, if it is not too long.
-/
import EventLayer.Text.Numeral

set_option autoImplicit false
set_option relaxedAutoImplicit false

namespace EventLayer.Text

/-! ### Plain digits -/

/-- What a plain digit is worth. -/
def plainValue (c : Char) : Nat := c.toNat - '0'.toNat

theorem digitValue?_of_isDigit {c : Char} (h : c.isDigit = true) :
    digitValue? c = some (plainValue c) := by
  have hrow : 0x30 ≤ c.toNat ∧ c.toNat < 0x30 + 10 := by
    have hd := Char.isDigit_iff_toNat.mp h
    have h0 : '0'.toNat = 48 := rfl
    have h9 : '9'.toNat = 57 := rfl
    omega
  -- the row of the plain digits is the first that is looked at
  rw [digitValue?, digitZeros, List.findSome?_cons, if_pos hrow]
  rfl

theorem ne_underscore_of_isDigit {c : Char} (h : c.isDigit = true) : c ≠ '_' := by
  rintro rfl
  revert h
  decide

/-- A run of plain digits is read to its end. -/
theorem digitRun_of_isDigit {cs : List Char} (h : ∀ c ∈ cs, c.isDigit = true) (started : Bool) :
    digitRun started cs = (cs.map plainValue, []) := by
  induction cs generalizing started with
  | nil => rfl
  | cons c rest ih =>
      have hc : c.isDigit = true := h c (by simp)
      have hrest : digitRun true rest = (rest.map plainValue, []) :=
        ih (fun c hc => h c (by simp [hc])) true
      rw [digitRun, if_neg (by simp [ne_underscore_of_isDigit hc]), digitValue?_of_isDigit hc]
      simp [hrest]

theorem ofDigits_plain (cs : List Char) : ofDigits (cs.map plainValue) = Nat.ofDigitChars 10 cs 0 := by
  rw [ofDigits, List.foldl_map, Nat.ofDigitChars_eq_foldl]
  rfl

/-! ### Signs and blanks -/

theorem isNumeralBlank_of_isDigit {c : Char} (h : c.isDigit = true) : isNumeralBlank c = false := by
  have hd := Char.isDigit_iff_toNat.mp h
  have h0 : '0'.toNat = 48 := rfl
  have h9 : '9'.toNat = 57 := rfl
  have hblank : isBlank c = false := by
    simp only [isBlank, blankRanges, List.any_cons, List.any_nil, Bool.or_eq_false_iff,
      Bool.and_eq_false_iff, decide_eq_false_iff_not, and_true]
    omega
  rw [isNumeralBlank, hblank]
  rfl

/-- Nothing is cut off where nothing is blank. -/
theorem numeralChars_of_solid {s : String} (h : ∀ c ∈ s.toList, isNumeralBlank c = false) :
    numeralChars s = s.toList := by
  have hsolid : ∀ cs : List Char, (∀ c ∈ cs, isNumeralBlank c = false) →
      cs.dropWhile isNumeralBlank = cs := by
    intro cs hcs
    cases cs with
    | nil => rfl
    | cons c rest => rw [List.dropWhile_cons, hcs c (by simp), if_neg (by simp)]
  rw [numeralChars, hsolid _ h, hsolid _ (by simpa using h), List.reverse_reverse]

theorem readSign_of_isDigit {cs : List Char} (h : ∀ c ∈ cs, c.isDigit = true) :
    readSign cs = (false, cs) := by
  unfold readSign
  split
  · exact absurd (h '-' (by simp)) (by decide)
  · exact absurd (h '+' (by simp)) (by decide)
  · rfl

/-! ### Whole numbers -/

/-- The digits with which a number is written. -/
theorem isDigit_of_mem_digits {n : Nat} {c : Char} (h : c ∈ Nat.toDigits 10 n) :
    c.isDigit = true := Nat.isDigit_of_mem_toDigits (by decide) (by decide) h

theorem length_digits_le {n k : Nat} (hk : 0 < k) (h : n < Nat.pow 10 k) :
    (Nat.toDigits 10 n).length ≤ k := (Nat.length_toDigits_le_iff (by decide) hk).mpr h

/-- The digits of a number that is not too long give the number back. -/
theorem wholeOfDigits?_digits {n : Nat} (h : (Nat.toDigits 10 n).length ≤ maxDigits) :
    wholeOfDigits? ((Nat.toDigits 10 n).map plainValue) = some n := by
  rw [wholeOfDigits?, List.length_map, if_neg (Nat.not_lt.mpr h), ofDigits_plain,
    Nat.ofDigitChars_ten_toDigits]

/-- Digits behind an optional minus. -/
theorem readInt?_of_digits {s : String} {n : Nat} (negative : Bool)
    (h : (Nat.toDigits 10 n).length ≤ maxDigits)
    (hs : s.toList = (if negative then ['-'] else []) ++ Nat.toDigits 10 n) :
    readInt? s = some (if negative then -(n : Int) else n) := by
  have hsolid : ∀ c ∈ s.toList, isNumeralBlank c = false := by
    intro c hc
    rw [hs, List.mem_append] at hc
    rcases hc with hc | hc
    · cases negative with
      | false => cases hc
      | true =>
          obtain rfl : c = '-' := by simpa using hc
          decide
    · exact isNumeralBlank_of_isDigit (isDigit_of_mem_digits hc)
  have hsign : readSign (numeralChars s) = (negative, Nat.toDigits 10 n) := by
    rw [numeralChars_of_solid hsolid, hs]
    cases negative with
    | false => exact readSign_of_isDigit fun c => isDigit_of_mem_digits
    | true => rfl
  have hrun : digitRun false (Nat.toDigits 10 n) = ((Nat.toDigits 10 n).map plainValue, []) :=
    digitRun_of_isDigit (fun c => isDigit_of_mem_digits) false
  unfold readInt?
  rw [hsign]
  dsimp only
  rw [hrun]
  cases hds : (Nat.toDigits 10 n).map plainValue with
  | nil => exact absurd (List.map_eq_nil_iff.mp hds) Nat.toDigits_ne_nil
  | cons d rest =>
      dsimp only
      rw [← hds, wholeOfDigits?_digits h]
      rfl

/-- A whole number is written with its digits, behind a minus if it is negative. -/
theorem toList_toString (n : Int) :
    (toString n).toList = (if n < 0 then ['-'] else []) ++ Nat.toDigits 10 n.natAbs := by
  rw [Int.toString_eq_repr, Int.repr_eq_if]
  by_cases hn : 0 ≤ n
  · rw [if_pos hn, if_neg (Int.not_lt.mpr hn), Nat.toList_repr, show n.toNat = n.natAbs by omega]
    rfl
  · rw [if_neg hn, if_pos (Int.not_le.mp hn), String.toList_append, Nat.toList_repr,
      show (-n).toNat = n.natAbs by omega]
    rfl

theorem natAbs_eq_of_digits {m n : Int} (h : Nat.toDigits 10 m.natAbs = Nat.toDigits 10 n.natAbs) :
    m.natAbs = n.natAbs := by
  have hnumber := congrArg (Nat.ofDigitChars 10 · 0) h
  simpa using hnumber

/-- Different whole numbers are written differently. -/
theorem toString_injective {m n : Int} (h : toString m = toString n) : m = n := by
  have hminus : ∀ k : Nat, '-' ∉ Nat.toDigits 10 k := fun k hk =>
    absurd (isDigit_of_mem_digits hk) (by decide)
  have hchars := congrArg String.toList h
  rw [toList_toString, toList_toString] at hchars
  by_cases hm : m < 0 <;> by_cases hn : n < 0
  · have hdigits : Nat.toDigits 10 m.natAbs = Nat.toDigits 10 n.natAbs := by
      simpa [hm, hn] using hchars
    have := natAbs_eq_of_digits hdigits
    omega
  · refine absurd ?_ (hminus n.natAbs)
    rw [if_pos hm, if_neg hn, List.nil_append] at hchars
    rw [← hchars]
    exact List.mem_cons_self
  · refine absurd ?_ (hminus m.natAbs)
    rw [if_neg hm, if_pos hn, List.nil_append] at hchars
    rw [hchars]
    exact List.mem_cons_self
  · have hdigits : Nat.toDigits 10 m.natAbs = Nat.toDigits 10 n.natAbs := by
      simpa [hm, hn] using hchars
    have := natAbs_eq_of_digits hdigits
    omega

/-- No blank stands in a whole number. -/
theorem blank_notMem_toString (n : Int) : ' ' ∉ (toString n).toList := by
  rw [toList_toString, List.mem_append]
  rintro (hsign | hdigit)
  · split at hsign
    · simp at hsign
    · cases hsign
  · exact absurd (isDigit_of_mem_digits hdigit) (by decide)

/-- **A whole number is read as it was written**, if it is not too long. -/
theorem readInt?_toString {n : Int} (h : isWritable n = true) : readInt? (toString n) = some n := by
  have hlen : (Nat.toDigits 10 n.natAbs).length ≤ maxDigits :=
    length_digits_le (by decide) (of_decide_eq_true h)
  have hs := toList_toString n
  by_cases hn : n < 0
  · rw [if_pos hn] at hs
    rw [readInt?_of_digits true hlen hs]
    exact congrArg some (by simp only [if_true]; omega)
  · rw [if_neg hn] at hs
    rw [readInt?_of_digits false hlen hs]
    exact congrArg some (Int.natAbs_of_nonneg (Int.not_lt.mp hn))

end EventLayer.Text
