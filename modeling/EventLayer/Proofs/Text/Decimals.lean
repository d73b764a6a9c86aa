/-
**Numbers inside a longer text.**

Where a number stands inside a form, its digits are read off the text one by one, without the signs,
underscores and blanks that a text that is a number by itself may have.  The value is the same: what
the digits come to is what the reader of whole numbers, or that of decimal numbers, makes of the
piece of text alone.

Main definitions:

* `Text.IsDecimal` — digits, and perhaps a point and digits;
* `Text.minus` — a minus sign that may stand before a number;
* `Text.wholeNumber`, `Text.decimalNumber` — what a text that is a number by itself denotes.

Main results:

* `Text.digitsValue_eq` — **digits come to the whole number that they write**;
* `Text.plainDecimal?_append`, `Text.exists_isDecimal` — **the decimal number at the start of a text**;
* `Json.decimalPart_int` — **a whole number is the whole part of its own text**, unless it is rounded.
-/
import EventLayer.Proofs.Double.Rounding
import EventLayer.Proofs.Saving.Numeral
import EventLayer.Proofs.Text.Scanning

set_option autoImplicit false
set_option relaxedAutoImplicit false

namespace EventLayer.Text

variable {cs ds es rest : List Char}

/-! ### Runs of digits -/

/-- What digits are worth, one by one. -/
def values (ds : List Char) : List Nat := ds.filterMap digitValue?

theorem values_append (ds es : List Char) : values (ds ++ es) = values ds ++ values es :=
  List.filterMap_append

theorem length_values (h : ∀ c ∈ ds, isDecimalDigit c = true) : (values ds).length = ds.length := by
  induction ds with
  | nil => rfl
  | cons c ds ih =>
      obtain ⟨d, hd⟩ := Option.isSome_iff_exists.1 (h c (by simp))
      rw [values, List.filterMap_cons_some hd, List.length_cons, List.length_cons]
      exact congrArg (· + 1) (ih fun c hc => h c (by simp [hc]))

theorem ne_of_isDecimalDigit {c d : Char} (h : isDecimalDigit c = true) (hd : isDecimalDigit d = false) :
    c ≠ d := by
  rintro rfl
  rw [h] at hd
  cases hd

/-- A run of digits is read up to what follows it, if that is neither a digit nor an underscore. -/
theorem digitRun_append (h : ∀ c ∈ ds, isDecimalDigit c = true) (hdigit : ClearOf isDecimalDigit rest)
    (hline : ClearOf (· == '_') rest) (started : Bool) :
    digitRun started (ds ++ rest) = (values ds, rest) := by
  induction ds generalizing started with
  | nil =>
      cases rest with
      | nil => rfl
      | cons c rest =>
          have hc : c ≠ '_' := by simpa using clearOf_cons.1 hline
          have hnone : digitValue? c = none := by simpa [isDecimalDigit] using clearOf_cons.1 hdigit
          rw [List.nil_append, digitRun, if_neg (by simp [hc]), hnone]
          rfl
  | cons c ds ih =>
      have hc := h c (by simp)
      have hne : c ≠ '_' := ne_of_isDecimalDigit hc (by decide)
      obtain ⟨d, hd⟩ := Option.isSome_iff_exists.1 hc
      rw [List.cons_append, digitRun, if_neg (by simp [hne]), hd, values, List.filterMap_cons_some hd]
      simp only [ih (fun c hc => h c (by simp [hc])) true]
      rfl

theorem Digits.values_ne_nil (h : Digits ds) : values ds ≠ [] := by
  intro hnil
  have hlength := length_values h.2
  rw [hnil] at hlength
  exact h.1 (List.length_eq_zero_iff.1 hlength.symm)

theorem isNumeralBlank_of_isDecimalDigit {c : Char} (h : isDecimalDigit c = true) :
    isNumeralBlank c = false := by
  rw [isNumeralBlank, isBlank_of_isDecimalDigit h]
  rfl

theorem readSign_digits (h : Digits ds) (rest : List Char) : readSign (ds ++ rest) = (false, ds ++ rest) := by
  obtain ⟨hne, hall⟩ := h
  cases ds with
  | nil => exact absurd rfl hne
  | cons c ds =>
      have hminus : c ≠ '-' := ne_of_isDecimalDigit (hall c (by simp)) (by decide)
      have hplus : c ≠ '+' := ne_of_isDecimalDigit (hall c (by simp)) (by decide)
      unfold readSign
      split
      · next heq => exact absurd (List.cons.inj heq).1 hminus
      · next heq => exact absurd (List.cons.inj heq).1 hplus
      · rfl

/-! ### Whole numbers -/

/-- A minus sign that may stand before a number. -/
def minus (negative : Bool) : List Char := if negative then ['-'] else []

theorem readSign_minus (negative : Bool) (h : Digits ds) (rest : List Char) :
    readSign (minus negative ++ (ds ++ rest)) = (negative, ds ++ rest) := by
  cases negative with
  | false => exact readSign_digits h rest
  | true => rfl

theorem not_numeralBlank_minus {negative : Bool} {c : Char} (h : c ∈ minus negative) :
    isNumeralBlank c = false := by
  cases negative with
  | false => cases h
  | true =>
      obtain rfl := List.mem_singleton.1 h
      decide

/-- A text without blanks is read as it is. -/
theorem numeralChars_ofList (h : ∀ c ∈ cs, isNumeralBlank c = false) :
    numeralChars (String.ofList cs) = cs := by
  rw [numeralChars_of_solid (by rwa [String.toList_ofList]), String.toList_ofList]

/-- The whole number that digits write behind a sign, as it is read where a text is a number by
itself. -/
theorem readInt?_minus (negative : Bool) (h : Digits ds) :
    readInt? (String.ofList (minus negative ++ ds)) =
      (wholeOfDigits? (values ds)).map fun (n : Nat) => if negative then -(n : Int) else n := by
  have hchars : numeralChars (String.ofList (minus negative ++ ds)) = minus negative ++ ds := by
    refine numeralChars_ofList fun c hc => ?_
    rcases List.mem_append.1 hc with hc | hc
    · exact not_numeralBlank_minus hc
    · exact isNumeralBlank_of_isDecimalDigit (h.2 c hc)
  have hrun := digitRun_append h.2 clearOf_nil clearOf_nil false
  have hsign := readSign_minus negative h []
  rw [List.append_nil] at hrun hsign
  unfold readInt?
  rw [hchars, hsign]
  dsimp only
  rw [hrun]
  cases hds : values ds with
  | nil => exact absurd hds h.values_ne_nil
  | cons d rest => rfl

/-- The digits with which a number is written. -/
theorem digits_toDigits (n : Nat) : Digits (Nat.toDigits 10 n) := by
  refine ⟨Nat.toDigits_ne_nil, fun c hc => ?_⟩
  rw [isDecimalDigit, digitValue?_of_isDigit (isDigit_of_mem_digits hc)]
  rfl

/-- A whole number is written with its digits, behind a minus if it is negative. -/
theorem toString_eq_ofList (n : Int) :
    toString n = String.ofList (minus (decide (n < 0)) ++ Nat.toDigits 10 n.natAbs) := by
  rw [← String.toList_inj, toList_toString, String.toList_ofList, minus]
  simp only [decide_eq_true_eq]

/-- A whole number that is too long is not read. -/
theorem readInt?_toString_of_long {n : Int} (h : isWritable n = false) : readInt? (toString n) = none := by
  have hlong : maxDigits < (Nat.toDigits 10 n.natAbs).length := by
    -- for any bound, lest the power is worked out
    have hpow : ∀ k, 0 < k → (Nat.toDigits 10 n.natAbs).length ≤ k → n.natAbs < Nat.pow 10 k :=
      fun k hk => (Nat.length_toDigits_le_iff (by decide) hk).1
    by_contra hle
    exact of_decide_eq_false h (hpow maxDigits (by decide) (Nat.le_of_not_lt hle))
  have hdigits := digits_toDigits n.natAbs
  rw [toString_eq_ofList, readInt?_minus _ hdigits, wholeOfDigits?, length_values hdigits.2, if_pos hlong]
  rfl

/-- The whole number that a text denotes, without its sign; it is a fault if it denotes none. -/
def wholeNumber (cs : List Char) : Except Fault Nat :=
  match readInt? (String.ofList cs) with
  | some n => .ok n.natAbs
  | none => .error .notANumber

/-- **Digits come to the whole number that they write**; too many of them write none. -/
theorem digitsValue_eq (h : Digits ds) : digitsValue ds = wholeNumber ds := by
  have hread := readInt?_minus false h
  rw [minus, if_neg (by decide), List.nil_append] at hread
  rw [digitsValue, wholeNumber, hread, show ds.filterMap digitValue? = values ds from rfl]
  cases wholeOfDigits? (values ds) <;> rfl

/-- Digits write a number unless there are too many. -/
theorem wholeNumber_digits_eq_error_iff (h : Digits ds) :
    (∃ e, wholeNumber ds = .error e) ↔ maxDigits < ds.length := by
  rw [← digitsValue_eq h, digitsValue, wholeOfDigits?, show ds.filterMap digitValue? = values ds from rfl,
    length_values h.2]
  split <;> simp_all

/-! ### Decimal numbers -/

/-- Digits, and perhaps a point and digits. -/
def IsDecimal (k : List Char) : Prop :=
  Digits k ∨ ∃ whole fraction, Digits whole ∧ Digits fraction ∧ k = whole ++ '.' :: fraction

theorem IsDecimal.clearOf {k : List Char} (h : IsDecimal k) {p : Char → Bool}
    (hp : ∀ c, isDecimalDigit c = true → p c = false) (rest : List Char) : ClearOf p (k ++ rest) := by
  rcases h with h | ⟨whole, fraction, hwhole, -, rfl⟩
  · exact h.clearOf hp rest
  · rw [List.append_assoc]
    exact hwhole.clearOf hp _

theorem IsDecimal.solid {k : List Char} (h : IsDecimal k) : Solid k := by
  rcases h with h | ⟨whole, fraction, hwhole, hfraction, rfl⟩
  · exact h.solid
  · exact hwhole.solid.append (List.forall_mem_cons.2 ⟨by decide, hfraction.solid⟩)

/-- The decimal number that a text denotes; it is a fault if it denotes none. -/
def decimalNumber (cs : List Char) : Except Fault Double :=
  match readDouble? (String.ofList cs) with
  | some x => .ok x
  | none => .error .notANumber

/-- A decimal number with its sign, as it is read where a text is a number by itself. -/
theorem decimalNumber_eq {whole fraction tail : List Char} (negative : Bool) (hwhole : Digits whole)
    (htail : tail = [] ∧ fraction = [] ∨ tail = '.' :: fraction ∧ Digits fraction) :
    decimalNumber (minus negative ++ (whole ++ tail)) =
      .ok (scaled negative (values (whole ++ fraction)) (-fraction.length)) := by
  have hchars : numeralChars (String.ofList (minus negative ++ (whole ++ tail))) =
      minus negative ++ (whole ++ tail) := by
    refine numeralChars_ofList fun c hc => ?_
    rw [List.mem_append, List.mem_append] at hc
    rcases hc with hc | hc | hc
    · exact not_numeralBlank_minus hc
    · exact isNumeralBlank_of_isDecimalDigit (hwhole.2 c hc)
    · rcases htail with ⟨rfl, -⟩ | ⟨rfl, hfraction⟩
      · cases hc
      · rcases List.mem_cons.1 hc with rfl | hc
        · decide
        · exact isNumeralBlank_of_isDecimalDigit (hfraction.2 c hc)
  have hsign := readSign_minus negative hwhole tail
  have hrun : digitRun false (whole ++ tail) = (values whole, tail) := by
    refine digitRun_append hwhole.2 ?_ ?_ false <;> rcases htail with ⟨rfl, -⟩ | ⟨rfl, -⟩
    · exact clearOf_nil
    · exact clearOf_cons.2 (by decide)
    · exact clearOf_nil
    · exact clearOf_cons.2 (by decide)
  have hpoint : readFraction tail = (values fraction, []) := by
    rcases htail with ⟨rfl, rfl⟩ | ⟨rfl, hfraction⟩
    · rfl
    · have hfrun := digitRun_append hfraction.2 clearOf_nil clearOf_nil false
      rwa [List.append_nil] at hfrun
  have hlength : (values fraction).length = fraction.length := by
    rcases htail with ⟨-, rfl⟩ | ⟨-, hfraction⟩
    · rfl
    · exact length_values hfraction.2
  have hsome : (values whole).isEmpty = false := by
    cases hvalues : values whole with
    | nil => exact absurd hvalues hwhole.values_ne_nil
    | cons _ _ => rfl
  -- there is no exponent, so the point alone shifts the digits
  unfold decimalNumber readDouble?
  rw [hchars, hsign]
  dsimp only
  rw [hrun]
  dsimp only
  rw [hpoint]
  dsimp only
  rw [hsome, Bool.false_and, if_neg (by decide), readExponent, ← values_append, hlength]
  dsimp only
  rw [Int.zero_sub]

theorem decimalNumber_whole {whole : List Char} (negative : Bool) (hwhole : Digits whole) :
    decimalNumber (minus negative ++ whole) = .ok (scaled negative (values whole) 0) := by
  have hread : decimalNumber (minus negative ++ (whole ++ [])) =
      .ok (scaled negative (values (whole ++ [])) 0) :=
    decimalNumber_eq negative hwhole (.inl ⟨rfl, rfl⟩)
  rwa [List.append_nil] at hread

/-- **A decimal number at the start of a text**, followed by neither a digit nor a point. -/
theorem plainDecimal?_append {k : List Char} (hk : IsDecimal k) (negative : Bool)
    (hdigit : ClearOf isDecimalDigit rest) (hpoint : ClearOf (· == '.') rest) :
    ∃ x, plainDecimal? negative (k ++ rest) = some (x, rest) ∧
      decimalNumber (minus negative ++ k) = .ok x := by
  rcases hk with hk | ⟨whole, fraction, hwhole, hfraction, rfl⟩
  · refine ⟨_, ?_, decimalNumber_whole negative hk⟩
    rw [plainDecimal?, digits?_eq_some_iff.2 ⟨hk, rfl, hdigit⟩]
    cases rest with
    | nil => rfl
    | cons c rest =>
        have hc : c ≠ '.' := by simpa using clearOf_cons.1 hpoint
        simp only [Option.bind_eq_bind, Option.bind_some]
        split
        · next heq => exact absurd (List.cons.inj heq).1 hc
        · rfl
  · refine ⟨_, ?_, decimalNumber_eq negative hwhole (.inr ⟨rfl, hfraction⟩)⟩
    have hdot : ClearOf isDecimalDigit ('.' :: fraction ++ rest) := clearOf_cons.2 (by decide)
    rw [plainDecimal?, List.append_assoc, digits?_eq_some_iff.2 ⟨hwhole, rfl, hdot⟩]
    simp only [Option.bind_eq_bind, Option.bind_some, List.cons_append]
    rw [digits?_eq_some_iff.2 ⟨hfraction, rfl, hdigit⟩]
    rfl

/-- What is read as a decimal number at the start of a text is one. -/
theorem exists_isDecimal {negative : Bool} {x : Double} (h : plainDecimal? negative cs = some (x, rest)) :
    ∃ k, IsDecimal k ∧ cs = k ++ rest ∧ decimalNumber (minus negative ++ k) = .ok x := by
  obtain ⟨⟨whole, behind⟩, hdigits, hfound⟩ := Option.bind_eq_some_iff.1 h
  obtain ⟨hwhole, rfl, -⟩ := digits?_eq_some_iff.1 hdigits
  have hread := decimalNumber_whole negative hwhole
  have hplain : some (scaled negative (values whole) 0, behind) = some (x, rest) →
      ∃ k, IsDecimal k ∧ whole ++ behind = k ++ rest ∧ decimalNumber (minus negative ++ k) = .ok x := by
    intro heq
    cases heq
    exact ⟨whole, .inl hwhole, rfl, hread⟩
  dsimp only at hfound
  split at hfound
  · next more =>
      split at hfound
      · next fraction rest' hfrac =>
          cases hfound
          obtain ⟨hfraction, rfl, -⟩ := digits?_eq_some_iff.1 hfrac
          exact ⟨whole ++ '.' :: fraction, .inr ⟨whole, fraction, hwhole, hfraction, rfl⟩,
            by rw [List.append_assoc]; rfl, decimalNumber_eq negative hwhole (.inr ⟨rfl, hfraction⟩)⟩
      · exact hplain hfound
  · exact hplain hfound

/-! ### Whole numbers as decimal ones -/

/-- Zeros at the start do not count. -/
theorem ofDigits_dropWhile (ds : List Nat) : ofDigits (ds.dropWhile (· == 0)) = ofDigits ds := by
  induction ds with
  | nil => rfl
  | cons d ds ih =>
      rw [List.dropWhile_cons]
      split
      · next hzero =>
          obtain rfl := eq_of_beq hzero
          exact ih
      · rfl

/-- Digits without an exponent come to the number that they write, rounded. -/
theorem scaled_zero {ds : List Nat} (negative : Bool) (hlength : ds.length ≤ 400) (hne : ofDigits ds ≠ 0) :
    scaled negative ds 0 = Double.ofInt (if negative then -(ofDigits ds : Int) else ofDigits ds) := by
  have hshort : (ds.dropWhile (· == 0)).length ≤ 400 := (List.length_dropWhile_le _ _).trans hlength
  unfold scaled
  dsimp only
  rw [ofDigits_dropWhile, if_neg (by omega), if_neg (by omega), if_neg (Int.lt_irrefl 0), Double.ofInt]
  cases negative <;> simp

theorem values_toDigits (n : Nat) : ofDigits (values (Nat.toDigits 10 n)) = n := by
  have hplain : values (Nat.toDigits 10 n) = (Nat.toDigits 10 n).map plainValue := by
    rw [values, ← List.filterMap_eq_map]
    exact List.filterMap_congr fun c hc => digitValue?_of_isDigit (isDigit_of_mem_digits hc)
  rw [hplain, ofDigits_plain, Nat.ofDigitChars_ten_toDigits]

/-- No blank is cut off a whole number. -/
theorem trim_toString (n : Int) : trim (toString n) = toString n := by
  have hsolid : Solid (minus (decide (n < 0)) ++ Nat.toDigits 10 n.natAbs) := by
    refine Solid.append ?_ (digits_toDigits _).solid
    unfold minus
    split <;> decide
  rw [toString_eq_ofList, trim, String.toList_ofList, hsolid.trimChars_eq]

/-- A whole number is read as a decimal one, and rounded. -/
theorem readDouble?_toString {n : Int} (h : (Nat.toDigits 10 n.natAbs).length ≤ 400) :
    readDouble? (toString n) = some (Double.ofInt n) := by
  have hdigits := digits_toDigits n.natAbs
  have hread := decimalNumber_whole (decide (n < 0)) hdigits
  have hscaled : scaled (decide (n < 0)) (values (Nat.toDigits 10 n.natAbs)) 0 = Double.ofInt n := by
    by_cases hzero : n = 0
    · unfold scaled
      dsimp only
      rw [ofDigits_dropWhile, values_toDigits, if_pos (Or.inl (by omega)), hzero, Double.ofInt,
        Int.cast_zero, Double.ofRat_zero]
      rfl
    · have hsigned : (if decide (n < 0) = true then -(n.natAbs : Int) else n.natAbs) = n := by
        simp only [decide_eq_true_eq]
        omega
      rw [scaled_zero _ (by rwa [length_values hdigits.2]) (by rw [values_toDigits]; omega),
        values_toDigits, hsigned]
  rw [decimalNumber, ← toString_eq_ofList, hscaled] at hread
  split at hread
  · next x hx => rw [hx, Except.ok.inj hread]
  · cases hread

end EventLayer.Text

namespace EventLayer.Json

/-- **A whole number is the whole part of its own text**, if it is small enough not to be rounded. -/
theorem decimalPart_int {n : Int} (h : n.natAbs ≤ 2 ^ 53) : (Json.int n).decimalPart = .ok n := by
  have hlength : (Nat.toDigits 10 n.natAbs).length ≤ 16 :=
    Text.length_digits_le (by decide) (lt_of_le_of_lt h (by decide))
  have hdecimal : (Json.int n).decimal? = some (.finite n) := by
    rw [decimal?, show (Json.int n).text = toString n from rfl, Text.trim_toString,
      Text.readDouble?_toString (hlength.trans (by decide)), Double.ofInt_of_natAbs_le h]
  rw [decimalPart, hdecimal]
  change Except.ok ((n : Rat).num.tdiv (n : Rat).den) = _
  rw [Rat.num_intCast, Rat.den_intCast, Int.natCast_one, Int.tdiv_one]

end EventLayer.Json
