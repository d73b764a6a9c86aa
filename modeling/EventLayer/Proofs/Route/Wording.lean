/-
**How conditions are written.**

The readers of conditions scan a text from its start.  What they accept is said here without them:
a wording is a condition as an author writes it, with the texts of its numbers and names, and a text
writes it if it consists of the pieces of the wording in order, with blanks between any two.  Each
reader accepts exactly the texts of its own wordings, and comes to what the wording means.

Main definitions:

* `ConditionForm` — the forms of conditions, with their readers;
* `Wording` — a condition as it is written;
* `Wording.Writes` — the texts that write it;
* `Wording.meaning` — the condition that it stands for.

Main results:

* `facingNamed?_iff`, `comparison?_iff` and the like — **what the reader of each form accepts**;
* `ConditionForm.reader_iff` — **a reader accepts the texts of its wordings, and no others**.
-/
import EventLayer.Proofs.Text.Decimals
import EventLayer.Proofs.Text.Letters

set_option autoImplicit false
set_option relaxedAutoImplicit false

namespace EventLayer

open Text

/-! ### Forms -/

/-- The forms in which conditions are written. -/
inductive ConditionForm where
  | constant
  | switch
  | selfSwitch
  | comparison
  | near
  | far
  | chance
  | facingCode
  | facingName
deriving Repr, DecidableEq

namespace ConditionForm

/-- The forms in the order in which they are tried. -/
def all : List ConditionForm :=
  [constant, switch, selfSwitch, comparison, near, far, chance, facingCode, facingName]

/-- The reader of a form. -/
def reader : ConditionForm → List Char → Option (Except Fault RouteCondition)
  | constant => fun cs => (RouteCondition.const? cs).map .ok
  | switch => RouteCondition.switch?
  | selfSwitch => fun cs => (RouteCondition.selfSwitch? cs).map .ok
  | comparison => RouteCondition.comparison?
  | near => RouteCondition.near?
  | far => RouteCondition.far?
  | chance => fun cs => (RouteCondition.chance? cs).map .ok
  | facingCode => fun cs => (RouteCondition.facingCode? cs).map .ok
  | facingName => RouteCondition.facingNamed?

theorem forms_eq : RouteCondition.forms = all.map reader := rfl

theorem mem_all (f : ConditionForm) : f ∈ all := by
  cases f <;> decide

end ConditionForm

/-! ### Wordings -/

/-- A condition as it is written, with the texts of its numbers and names. -/
inductive Wording where
  | constant (value : Bool) (word : List Char)
  | switch (expected : Bool) (number : List Char)
  /-- The letter of a self switch may stand in quotes, of which one may be missing. -/
  | selfSwitch (expected : Bool) (opening : List Char) (letter : Char) (closing : List Char)
  | comparison (number : List Char) (relation : Relation) (negative : Bool) (operand : List Char)
  | near (number : List Char)
  | far (number : List Char)
  | chance (percent : List Char)
  | facingCode (code : Char)
  /-- The word before the parenthesis and the name are written in any letter case. -/
  | facingName (name : String × Int) (head opening letters closing : List Char)

/-- Letters of which one is an `i` without its dot, or a capital one with it. -/
def dotted (letters : List Char) : Bool := letters.any fun c => c == 'ı' || c == 'İ'

/-- The exclamation mark before a condition that is expected not to hold. -/
def Wording.mark (expected : Bool) : List Char := if expected then [] else ['!']

namespace Wording

/-- The form of a wording. -/
def form : Wording → ConditionForm
  | constant _ _ => .constant
  | switch _ _ => .switch
  | selfSwitch _ _ _ _ => .selfSwitch
  | comparison _ _ _ _ => .comparison
  | near _ => .near
  | far _ => .far
  | chance _ => .chance
  | facingCode _ => .facingCode
  | facingName _ _ _ _ _ => .facingName

/-- The pieces of a wording, between which blanks may stand. -/
def pieces : Wording → List (List Char)
  | constant _ word => [word]
  | switch expected number => [mark expected, "s[".toList, number, [']']]
  | selfSwitch expected opening letter closing =>
    [mark expected, "self[".toList, opening ++ letter :: closing, [']']]
  | comparison number relation negative operand =>
    ["v[".toList, number, [']'], relation.sign.toList, minus negative ++ operand]
  | near number => ["near(".toList, number, [')']]
  | far number => ["far(".toList, number, [')']]
  | chance percent => ["chance(".toList, percent, [')']]
  | facingCode code => ["facing(".toList, [code], [')']]
  | facingName _ head opening letters closing => [head, opening ++ (letters ++ closing), [')']]

/-- The numbers, letters and names of a wording are such. -/
def Proper : Wording → Prop
  | constant value word => Alike (if value then "true" else "false").toList word
  | switch _ number => Digits number
  | selfSwitch _ opening letter closing =>
    Quote opening ∧ letter.toUpper ∈ ['A', 'B', 'C', 'D'] ∧ Quote closing
  | comparison number _ _ operand => Digits number ∧ IsDecimal operand
  | near number => Digits number
  | far number => Digits number
  | chance percent => IsDecimal percent
  | facingCode code => code ∈ ['2', '4', '6', '8']
  | facingName name head opening letters closing =>
    name ∈ Direction.names ∧ Alike "facing(".toList head ∧ Quote opening ∧
      Alike name.1.toList letters ∧ Quote closing

/-- A text writes a wording: it consists of its pieces, with blanks between them. -/
def Writes (w : Wording) (cs : List Char) : Prop := w.Proper ∧ Spaced w.pieces cs

/-- The condition that a wording stands for.  Its numbers are read as texts that are numbers by
themselves; the name of a direction written with another `i` is in no table. -/
def meaning : Wording → Except Fault RouteCondition
  | constant value _ => .ok (.const value)
  | switch expected number => (wholeNumber number).map (.switchIs · expected)
  | selfSwitch expected _ letter _ => .ok (.selfSwitchIs letter.toUpper.toString expected)
  | comparison number relation negative operand => do
    return .variableIs (← wholeNumber number) relation (← decimalNumber (minus negative ++ operand))
  | near number => (wholeNumber number).map (.playerWithin · true)
  | far number => (wholeNumber number).map (.playerWithin · false)
  | chance percent => (decimalNumber percent).map .chance
  | facingCode code => (wholeNumber [code]).map fun (n : Nat) => .facing n
  | facingName name _ _ letters _ =>
    if dotted letters then .error .missingKey else .ok (.facing name.2)

end Wording

/-! ### Scanning the pieces -/

variable {cs rest word : List Char} {r : Except Fault RouteCondition}

theorem fits_iff : ((afterCaseless? word cs).any fun r => r.2.isEmpty) = true ↔ Alike word cs := by
  rw [Option.any_eq_true_iff_get]
  constructor
  · rintro ⟨hsome, hempty⟩
    obtain ⟨⟨written, rest⟩, h⟩ := Option.isSome_iff_exists.1 hsome
    simp only [h, Option.get_some, List.isEmpty_iff] at hempty
    obtain ⟨halike, rfl⟩ := afterCaseless?_eq_some_iff.1 h
    rwa [hempty, List.append_nil]
  · intro halike
    have h := afterCaseless?_eq_some_iff.2 ⟨halike, (List.append_nil cs).symm⟩
    exact ⟨by rw [h]; rfl, by simp [h]⟩

/-- A number behind a word, up to a closing character. -/
theorem bracketed?_eq_some_iff {word : String} {closing : Char} {r : Except Fault Nat}
    (hblank : isBlank closing = false) (hdigit : isDecimalDigit closing = false) :
    RouteCondition.bracketed? word closing cs = some r ↔
      ∃ ds, Digits ds ∧ Spaced [word.toList, ds, [closing]] cs ∧ wholeNumber ds = r := by
  constructor
  · intro h
    obtain ⟨rest, hrest, hfound⟩ := Option.bind_eq_some_iff.1 h
    obtain ⟨⟨ds, behind⟩, hdigits, hend⟩ := Option.bind_eq_some_iff.1 hfound
    obtain rfl := after?_eq_some_iff.1 hrest
    obtain ⟨hds, htrim, -⟩ := digits?_eq_some_iff.1 hdigits
    obtain ⟨b, hb, heq⟩ := exists_blanks rest
    dsimp only at hend
    split at hend
    · next hcloses =>
        obtain ⟨b', hb', rfl⟩ := (closes_iff hblank).1 hcloses
        refine ⟨ds, hds, ⟨b, ds ++ (b' ++ [closing]), hb, ⟨b', [closing], hb', rfl, rfl⟩, ?_⟩, ?_⟩
        · rw [heq, htrim]
        · rw [← digitsValue_eq hds]
          exact Option.some.inj hend
    · cases hend
  · rintro ⟨ds, hds, ⟨b, rest, hb, ⟨b', last, hb', rfl, rfl⟩, rfl⟩, rfl⟩
    have hclear : ClearOf isDecimalDigit (b' ++ [closing]) :=
      hb'.clearOf (fun _ => isDecimalDigit_of_isBlank) (clearOf_cons.2 hdigit)
    have hread : digits? (trimStartChars (b ++ (ds ++ (b' ++ [closing])))) =
        some (ds, b' ++ [closing]) := by
      rw [trimStartChars_append hb, trimStartChars_of_clear (hds.clearOf_blank _)]
      exact digits?_eq_some_iff.2 ⟨hds, rfl, hclear⟩
    rw [RouteCondition.bracketed?, after?_append]
    simp only [Option.bind_eq_bind, Option.bind_some, hread]
    rw [if_pos ((closes_iff hblank).2 ⟨b', hb', rfl⟩), digitsValue_eq hds]

theorem exists_mark (cs : List Char) : ∃ b, Blanks b ∧
    cs = Wording.mark (RouteCondition.polarity cs).1 ++ (b ++ (RouteCondition.polarity cs).2) := by
  unfold RouteCondition.polarity
  split
  · next rest =>
      obtain ⟨b, hb, heq⟩ := exists_blanks rest
      exact ⟨b, hb, congrArg ('!' :: ·) heq⟩
  · exact exists_blanks cs

/-- A mark is taken off, and the blanks behind it. -/
theorem polarity_mark {b : List Char} (expected : Bool) (hb : Blanks b) (hblank : ClearOf isBlank cs)
    (hmark : ClearOf (· == '!') cs) :
    RouteCondition.polarity (Wording.mark expected ++ (b ++ cs)) = (expected, cs) := by
  have htrim : trimStartChars (b ++ cs) = cs := by
    rw [trimStartChars_append hb, trimStartChars_of_clear hblank]
  cases expected with
  | false => exact congrArg (Prod.mk false) htrim
  | true =>
      have hclear : ClearOf (· == '!') (b ++ cs) := by
        refine hb.clearOf (fun c hc => ?_) hmark
        by_contra hne
        have heq : c = '!' := by simpa using hne
        subst heq
        exact absurd hc (by decide)
      change RouteCondition.polarity (b ++ cs) = _
      unfold RouteCondition.polarity
      split
      · next heq =>
          rw [heq] at hclear
          cases clearOf_cons.1 hclear
      · exact congrArg (Prod.mk true) htrim

/-! ### The reader of each form -/

theorem const?_iff : (RouteCondition.const? cs).map Except.ok = some r ↔
    ∃ value word, (Wording.constant value word).Writes cs ∧
      (Wording.constant value word).meaning = r := by
  -- the words differ in length, so that the order in which they are tried does not matter
  have hboth : ¬(Alike "true".toList cs ∧ Alike "false".toList cs) := by
    rintro ⟨htrue, hfalse⟩
    have h4 := htrue.length_eq
    have h5 := hfalse.length_eq
    rw [← h5] at h4
    exact absurd h4 (by decide)
  unfold RouteCondition.const?
  dsimp only
  constructor
  · intro h
    split at h
    · next hfits =>
        cases h
        exact ⟨true, cs, ⟨fits_iff.1 hfits, rfl⟩, rfl⟩
    · split at h
      · next hfits =>
          cases h
          exact ⟨false, cs, ⟨fits_iff.1 hfits, rfl⟩, rfl⟩
      · cases h
  · rintro ⟨value, word, ⟨hproper, hcs⟩, rfl⟩
    obtain rfl : cs = word := hcs
    cases value with
    | true =>
        have halike : Alike "true".toList cs := hproper
        rw [if_pos (fits_iff.2 halike)]
        rfl
    | false =>
        have halike : Alike "false".toList cs := hproper
        rw [if_neg (fun hfits => hboth ⟨fits_iff.1 hfits, halike⟩), if_pos (fits_iff.2 halike)]
        rfl

theorem switch?_iff : RouteCondition.switch? cs = some r ↔
    ∃ expected number, (Wording.switch expected number).Writes cs ∧
      (Wording.switch expected number).meaning = r := by
  constructor
  · intro h
    obtain ⟨found, hfound, rfl⟩ := Option.map_eq_some_iff.1 h
    obtain ⟨ds, hds, hspaced, rfl⟩ := (bracketed?_eq_some_iff (by decide) (by decide)).1 hfound
    obtain ⟨b, hb, heq⟩ := exists_mark cs
    exact ⟨_, ds, ⟨hds, b, _, hb, hspaced, heq⟩, rfl⟩
  · rintro ⟨expected, number, ⟨hds, b, rest, hb, hspaced, rfl⟩, rfl⟩
    have hpolarity := polarity_mark expected hb (hspaced.clearOf (by decide) (clearOf_cons.2 (by decide)))
      (hspaced.clearOf (by decide) (clearOf_cons.2 (by decide)))
    unfold RouteCondition.switch?
    rw [hpolarity]
    dsimp only
    rw [(bracketed?_eq_some_iff (by decide) (by decide)).2 ⟨number, hds, hspaced, rfl⟩]
    rfl

/-- The letter of a self switch begins with no character without a capital form. -/
theorem clearOf_channel {p : Char → Bool} {letter : Char} (h : letter.toUpper ∈ ['A', 'B', 'C', 'D'])
    (hp : ∀ c, p c = true → c.toUpper = c) (hletters : ∀ d ∈ ['A', 'B', 'C', 'D'], p d = false) :
    ClearOf p (letter :: cs) := by
  rw [clearOf_cons]
  by_contra hletter
  have hp' : p letter = true := by simpa using hletter
  rw [hp letter hp'] at h
  exact hletter (hletters letter h)

theorem toUpper_of_isQuote {c : Char} (h : isQuote c = true) : c.toUpper = c := by
  rw [isQuote, Bool.or_eq_true, beq_iff_eq, beq_iff_eq] at h
  rcases h with rfl | rfl <;> decide

theorem selfSwitch?_iff : (RouteCondition.selfSwitch? cs).map Except.ok = some r ↔
    ∃ expected opening letter closing, (Wording.selfSwitch expected opening letter closing).Writes cs ∧
      (Wording.selfSwitch expected opening letter closing).meaning = r := by
  unfold RouteCondition.selfSwitch?
  constructor
  · intro h
    obtain ⟨b, hb, hmark⟩ := exists_mark cs
    generalize RouteCondition.polarity cs = marked at h hmark
    obtain ⟨expected, found⟩ := marked
    obtain ⟨c, hfound, rfl⟩ := Option.map_eq_some_iff.1 h
    dsimp only at hfound hmark
    obtain ⟨rest, hrest, hletter⟩ := Option.bind_eq_some_iff.1 hfound
    obtain rfl := after?_eq_some_iff.1 hrest
    obtain ⟨b', hb', hblanks⟩ := exists_blanks rest
    obtain ⟨opening, hopening, hquote⟩ := exists_quote (trimStartChars rest)
    split at hletter
    · next letter behind hskip =>
        split at hletter
        · next hend =>
            cases hletter
            obtain ⟨closing, hclosing, hquote'⟩ := exists_quote behind
            obtain ⟨b'', hb'', hcloses⟩ := (closes_iff (by decide)).1 hend.2
            refine ⟨expected, opening, letter, closing, ⟨⟨hopening, hend.1, hclosing⟩,
              b, _, hb, ⟨b', _, hb', ⟨b'', _, hb'', rfl, rfl⟩, rfl⟩, ?_⟩, rfl⟩
            rw [hmark, hblanks, hquote, hskip, hquote', hcloses]
            simp only [List.append_assoc, List.cons_append]
        · cases hletter
    · cases hletter
  · rintro ⟨expected, opening, letter, closing, ⟨⟨hopening, hletter, hclosing⟩, b, rest, hb, hspaced,
      rfl⟩, rfl⟩
    rw [polarity_mark expected hb (hspaced.clearOf (by decide) (clearOf_cons.2 (by decide)))
      (hspaced.clearOf (by decide) (clearOf_cons.2 (by decide)))]
    obtain ⟨b', rest, hb', ⟨b'', last, hb'', rfl, rfl⟩, rfl⟩ := hspaced
    -- a letter of a self switch is neither a blank nor a quote, so only what stands before it is passed over
    have hblank : ClearOf isBlank (opening ++ (letter :: (closing ++ (b'' ++ [']'])))) :=
      hopening.clearOf_blank (clearOf_channel hletter (fun _ => toUpper_of_isBlank) (by decide))
    have hskip : skipOne ['\'', '"'] (opening ++ (letter :: (closing ++ (b'' ++ [']'])))) =
        letter :: (closing ++ (b'' ++ [']'])) :=
      skipOne_quote hopening (clearOf_channel hletter (fun _ => toUpper_of_isQuote) (by decide))
    have hskip' : skipOne ['\'', '"'] (closing ++ (b'' ++ [']'])) = b'' ++ [']'] :=
      skipOne_quote hclosing (hb''.clearOf_closing (fun _ => isQuote_of_isBlank) (by decide))
    dsimp only
    rw [after?_append]
    simp only [Option.bind_eq_bind, Option.bind_some, trimStartChars_append hb', List.append_assoc,
      List.cons_append, trimStartChars_of_clear hblank, hskip, hskip']
    rw [if_pos ⟨hletter, (closes_iff (by decide)).2 ⟨b'', hb'', rfl⟩⟩]
    rfl

/-! ### Comparisons -/

theorem eq_append_of_relation? {relation : Relation} (h : RouteCondition.relation? cs = some (relation, rest)) :
    cs = relation.sign.toList ++ rest := by
  have hsigns : ∀ s ∈ Relation.signs, s.1 = s.2.sign := by decide
  obtain ⟨s, hs, hfound⟩ := List.exists_of_findSome?_eq_some h
  obtain ⟨behind, hbehind, heq⟩ := Option.map_eq_some_iff.1 hfound
  cases heq
  rw [after?_eq_some_iff.1 hbehind, hsigns s hs]

/-- The longer signs are tried first, and what follows a sign does not prolong it. -/
theorem relation?_append (relation : Relation) (h : ClearOf (· == '=') rest) :
    RouteCondition.relation? (relation.sign.toList ++ rest) = some (relation, rest) := by
  have hnone : after? ['='] rest = none := by
    cases rest with
    | nil => rfl
    | cons c rest =>
        have hc : c ≠ '=' := by simpa using clearOf_cons.1 h
        rw [after?, if_neg hc.symm]
  cases relation <;>
    simp [RouteCondition.relation?, Relation.signs, Relation.sign, after?, hnone]

/-- A decimal number up to the end of a text. -/
theorem exists_operand {α : Type} {negative : Bool} {f : Double → α} {a : α}
    (h : ((plainDecimal? negative cs).bind fun p => if p.2.isEmpty then some (f p.1) else none) = some a) :
    ∃ x, IsDecimal cs ∧ decimalNumber (minus negative ++ cs) = .ok x ∧ f x = a := by
  obtain ⟨⟨x, behind⟩, hdecimal, hend⟩ := Option.bind_eq_some_iff.1 h
  dsimp only at hend
  split at hend
  · next hempty =>
      obtain rfl := List.isEmpty_iff.1 hempty
      obtain ⟨operand, hoperand, hcs, hx⟩ := exists_isDecimal hdecimal
      rw [List.append_nil] at hcs
      subst hcs
      exact ⟨x, hoperand, hx, Option.some.inj hend⟩
  · cases hend

/-- What the parts of a comparison come to. -/
theorem meaning_comparison {number operand : List Char} {negative : Bool} {x : Double}
    (relation : Relation) (hnumber : Digits number)
    (hx : decimalNumber (minus negative ++ operand) = .ok x) :
    ((digitsValue number).map fun n => RouteCondition.variableIs n relation x) =
      (Wording.comparison number relation negative operand).meaning := by
  rw [Wording.meaning, hx, digitsValue_eq hnumber]
  cases wholeNumber number <;> rfl

theorem clearOf_signed {operand : List Char} {p : Char → Bool} (h : IsDecimal operand) (negative : Bool)
    (hdigit : ∀ c, isDecimalDigit c = true → p c = false) (hminus : p '-' = false) :
    ClearOf p (minus negative ++ operand) := by
  cases negative with
  | false =>
      have hclear := h.clearOf hdigit []
      rwa [List.append_nil] at hclear
  | true => exact clearOf_cons.2 hminus

/-- What is read as a comparison writes one. -/
theorem exists_comparison_of_read (h : RouteCondition.comparison? cs = some r) :
    ∃ number relation negative operand,
      (Wording.comparison number relation negative operand).Writes cs ∧
      (Wording.comparison number relation negative operand).meaning = r := by
  obtain ⟨rest, hrest, hfound⟩ := Option.bind_eq_some_iff.1 h
  obtain ⟨⟨number, behind⟩, hdigits, hbracket⟩ := Option.bind_eq_some_iff.1 hfound
  obtain ⟨rest', hrest', hsign⟩ := Option.bind_eq_some_iff.1 hbracket
  obtain ⟨⟨relation, tail⟩, hrelation, hoperand⟩ := Option.bind_eq_some_iff.1 hsign
  obtain rfl := after?_eq_some_iff.1 hrest
  obtain ⟨hnumber, htrim, -⟩ := digits?_eq_some_iff.1 hdigits
  -- the blanks before each of the pieces
  obtain ⟨b, hb, hblanks⟩ := exists_blanks rest
  obtain ⟨b', hb', hblanks'⟩ := exists_blanks behind
  obtain ⟨b'', hb'', hblanks''⟩ := exists_blanks rest'
  obtain ⟨b₃, hb₃, hblanks₃⟩ := exists_blanks tail
  have hend : ∃ negative operand x, trimStartChars tail = minus negative ++ operand ∧
      IsDecimal operand ∧ decimalNumber (minus negative ++ operand) = .ok x ∧
      ((digitsValue number).map fun n => RouteCondition.variableIs n relation x) = r := by
    dsimp only at hoperand
    generalize trimStartChars tail = text at hoperand
    split at hoperand
    · next more => exact ⟨true, more, (exists_operand hoperand).imp fun x hx => ⟨rfl, hx⟩⟩
    · exact ⟨false, _, (exists_operand hoperand).imp fun x hx => ⟨rfl, hx⟩⟩
  obtain ⟨negative, operand, x, htext, hdecimal, hx, rfl⟩ := hend
  refine ⟨number, relation, negative, operand, ⟨⟨hnumber, hdecimal⟩,
    b, _, hb, ⟨b', _, hb', ⟨b'', _, hb'', ⟨b₃, _, hb₃, rfl, rfl⟩, rfl⟩, rfl⟩, ?_⟩,
    (meaning_comparison relation hnumber hx).symm⟩
  rw [hblanks, htrim, hblanks', after?_eq_some_iff.1 hrest', hblanks'',
    eq_append_of_relation? hrelation, hblanks₃, htext]

/-- A text that writes a comparison is read as it. -/
theorem comparison?_of_writes {number operand : List Char} {relation : Relation} {negative : Bool}
    (h : (Wording.comparison number relation negative operand).Writes cs) :
    RouteCondition.comparison? cs =
      some (Wording.comparison number relation negative operand).meaning := by
  obtain ⟨⟨hnumber, hoperand⟩, b, _, hb, ⟨b', _, hb', ⟨b'', _, hb'', ⟨b₃, _, hb₃, rfl, rfl⟩, rfl⟩, rfl⟩,
    rfl⟩ := h
  obtain ⟨x, hread, hx⟩ := plainDecimal?_append hoperand negative clearOf_nil clearOf_nil
  rw [List.append_nil] at hread
  have hblank : ClearOf isBlank (minus negative ++ operand) :=
    clearOf_signed hoperand negative (fun _ => isBlank_of_isDecimalDigit) (by decide)
  -- what follows the sign must not make it a longer one
  have hequal : ClearOf (· == '=') (b₃ ++ (minus negative ++ operand)) := by
    refine hb₃.clearOf (fun c hc => ?_) (clearOf_signed hoperand negative (fun c hc => ?_) (by decide))
    · exact beq_false_of_ne fun heq => absurd (heq ▸ hc) (by decide)
    · exact beq_false_of_ne (ne_of_isDecimalDigit hc (by decide))
  have hsign : ClearOf isBlank (relation.sign.toList ++ (b₃ ++ (minus negative ++ operand))) := by
    cases relation <;> exact clearOf_cons.2 (by decide)
  have hdigits : digits? (number ++ (b' ++ ']' :: (b'' ++ (relation.sign.toList ++ (b₃ ++
      (minus negative ++ operand)))))) = some (number, _) :=
    digits?_eq_some_iff.2 ⟨hnumber, rfl, hb'.clearOf (fun _ => isDecimalDigit_of_isBlank)
      (clearOf_cons.2 (by decide))⟩
  have hbracket : ∀ t, after? [']'] (']' :: t) = some t := after?_append [']']
  rw [RouteCondition.comparison?, after?_append]
  simp only [Option.bind_eq_bind, Option.bind_some, trimStartChars_append hb, List.cons_append,
    List.nil_append, trimStartChars_of_clear (hnumber.clearOf_blank _), hdigits,
    trimStartChars_append hb', trimStartChars_of_clear (clearOf_cons.2 (by decide : isBlank ']' = false)),
    hbracket, trimStartChars_append hb'', trimStartChars_of_clear hsign, relation?_append relation hequal,
    trimStartChars_append hb₃, trimStartChars_of_clear hblank]
  cases negative with
  | true =>
      simp only [minus, if_true, List.cons_append, List.nil_append, hread, Option.bind_some,
        List.isEmpty_nil, meaning_comparison relation hnumber hx]
  | false =>
      -- a number without a minus sign does not begin with one
      have hclear : ClearOf (· == '-') operand := by
        have hclear := hoperand.clearOf (p := (· == '-'))
          (fun c hc => beq_false_of_ne (ne_of_isDecimalDigit hc (by decide))) []
        rwa [List.append_nil] at hclear
      simp only [minus, Bool.false_eq_true, if_false, List.nil_append]
      split
      · cases clearOf_cons.1 hclear
      · simp only [hread, Option.bind_some, List.isEmpty_nil, if_true,
          meaning_comparison relation hnumber hx]

theorem comparison?_iff : RouteCondition.comparison? cs = some r ↔
    ∃ number relation negative operand,
      (Wording.comparison number relation negative operand).Writes cs ∧
      (Wording.comparison number relation negative operand).meaning = r := by
  constructor
  · exact exists_comparison_of_read
  · rintro ⟨number, relation, negative, operand, hwrites, rfl⟩
    exact comparison?_of_writes hwrites

/-! ### Distances, chance and directions -/

/-- A distance in parentheses that follow a word. -/
theorem distance?_iff {word : String} {f : Nat → RouteCondition} :
    ((RouteCondition.bracketed? word ')' cs).map fun found => found.map f) = some r ↔
      ∃ number, (Digits number ∧ Spaced [word.toList, number, [')']] cs) ∧
        (wholeNumber number).map f = r := by
  rw [Option.map_eq_some_iff]
  constructor
  · rintro ⟨found, hfound, rfl⟩
    obtain ⟨number, hnumber, hspaced, rfl⟩ := (bracketed?_eq_some_iff (by decide) (by decide)).1 hfound
    exact ⟨number, ⟨hnumber, hspaced⟩, rfl⟩
  · rintro ⟨number, ⟨hnumber, hspaced⟩, rfl⟩
    exact ⟨_, (bracketed?_eq_some_iff (by decide) (by decide)).2 ⟨number, hnumber, hspaced, rfl⟩, rfl⟩

theorem near?_iff : RouteCondition.near? cs = some r ↔
    ∃ number, (Wording.near number).Writes cs ∧ (Wording.near number).meaning = r := distance?_iff

theorem far?_iff : RouteCondition.far? cs = some r ↔
    ∃ number, (Wording.far number).Writes cs ∧ (Wording.far number).meaning = r := distance?_iff

theorem chance?_iff : (RouteCondition.chance? cs).map Except.ok = some r ↔
    ∃ percent, (Wording.chance percent).Writes cs ∧ (Wording.chance percent).meaning = r := by
  constructor
  · intro h
    obtain ⟨c, hfound, rfl⟩ := Option.map_eq_some_iff.1 h
    obtain ⟨rest, hrest, hpercent⟩ := Option.bind_eq_some_iff.1 hfound
    obtain ⟨⟨x, behind⟩, hdecimal, hend⟩ := Option.bind_eq_some_iff.1 hpercent
    obtain rfl := after?_eq_some_iff.1 hrest
    obtain ⟨b, hb, hblanks⟩ := exists_blanks rest
    obtain ⟨percent, hproper, htext, hx⟩ := exists_isDecimal hdecimal
    dsimp only at hend
    split at hend
    · next hcloses =>
        cases hend
        obtain ⟨b', hb', rfl⟩ := (closes_iff (by decide)).1 hcloses
        refine ⟨percent, ⟨hproper, b, _, hb, ⟨b', _, hb', rfl, rfl⟩, ?_⟩, ?_⟩
        · rw [hblanks, htext]
        · rw [Wording.meaning, show decimalNumber percent = .ok x from hx]
          rfl
    · cases hend
  · rintro ⟨percent, ⟨hpercent, b, _, hb, ⟨b', _, hb', rfl, rfl⟩, rfl⟩, rfl⟩
    have hpercent : IsDecimal percent := hpercent
    -- what follows the number, blanks or the parenthesis, does not prolong it
    obtain ⟨x, hread, hx⟩ := plainDecimal?_append hpercent false
      (hb'.clearOf_closing (fun _ => isDecimalDigit_of_isBlank) (by decide : isDecimalDigit ')' = false))
      (hb'.clearOf_closing (fun c hc => beq_false_of_ne fun heq => absurd (heq ▸ hc) (by decide))
        (by decide : (')' == '.') = false))
    have hblank : ClearOf isBlank (percent ++ (b' ++ [')'])) :=
      hpercent.clearOf (fun _ => isBlank_of_isDecimalDigit) _
    rw [RouteCondition.chance?, after?_append]
    simp only [Option.bind_eq_bind, Option.bind_some, trimStartChars_append hb,
      trimStartChars_of_clear hblank, hread]
    rw [if_pos ((closes_iff (by decide)).2 ⟨b', hb', rfl⟩), Wording.meaning,
      show decimalNumber percent = .ok x from hx]
    rfl

theorem facingCode?_iff : (RouteCondition.facingCode? cs).map Except.ok = some r ↔
    ∃ code, (Wording.facingCode code).Writes cs ∧ (Wording.facingCode code).meaning = r := by
  have hvalue : ∀ code ∈ ['2', '4', '6', '8'],
      ((wholeNumber [code]).map fun (n : Nat) => RouteCondition.facing n) =
        .ok (.facing ((code.toNat : Int) - 48)) := by
    decide +kernel
  have hnotBlank : ∀ code ∈ ['2', '4', '6', '8'], isBlank code = false := by decide
  constructor
  · intro h
    obtain ⟨c, hfound, rfl⟩ := Option.map_eq_some_iff.1 h
    obtain ⟨rest, hrest, hcode⟩ := Option.bind_eq_some_iff.1 hfound
    obtain rfl := after?_eq_some_iff.1 hrest
    obtain ⟨b, hb, hblanks⟩ := exists_blanks rest
    split at hcode
    · next code behind htrim =>
        split at hcode
        · next hend =>
            cases hcode
            obtain ⟨b', hb', rfl⟩ := (closes_iff (by decide)).1 hend.2
            refine ⟨code, ⟨hend.1, b, _, hb, ⟨b', _, hb', rfl, rfl⟩, ?_⟩, hvalue code hend.1⟩
            rw [hblanks, htrim]
            rfl
        · cases hcode
    · cases hcode
  · rintro ⟨code, ⟨hcode, b, _, hb, ⟨b', _, hb', rfl, rfl⟩, rfl⟩, rfl⟩
    have hcode : code ∈ ['2', '4', '6', '8'] := hcode
    have hblank : ClearOf isBlank (code :: (b' ++ [')'])) := clearOf_cons.2 (hnotBlank code hcode)
    rw [RouteCondition.facingCode?, after?_append]
    simp only [Option.bind_eq_bind, Option.bind_some, trimStartChars_append hb, List.cons_append,
      List.nil_append, trimStartChars_of_clear hblank]
    rw [if_pos ⟨hcode, (closes_iff (by decide)).2 ⟨b', hb', rfl⟩⟩]
    exact congrArg some (hvalue code hcode).symm

/-! ### Names of directions -/

theorem names_plain : ∀ name ∈ Direction.names, name.1.toList.all IsPlain = true := by
  decide

/-- No direction is called as the beginning of another. -/
theorem names_apart : ∀ name ∈ Direction.names, ∀ name' ∈ Direction.names,
    name.1.toList <+: name'.1.toList → name.1.toList = name'.1.toList := by
  decide

theorem names_first : ∀ name ∈ Direction.names,
    name.1.toList = name.1.toList.headD ' ' :: name.1.toList.tail ∧
      name.1.toList.headD ' ' ∈ ['d', 'l', 'r', 'u'] ∧ IsPlain (name.1.toList.headD ' ') = true := by
  decide

theorem clearOf_name {name : String × Int} {p : Char → Bool} {letters : List Char}
    (hname : name ∈ Direction.names) (h : Alike name.1.toList letters)
    (hself : ∀ c, p c = true → plainLetter c = c) (hp : ∀ w ∈ ['d', 'l', 'r', 'u'], p w = false)
    (tail : List Char) : ClearOf p (letters ++ tail) := by
  obtain ⟨heq, hhead, hplain⟩ := names_first name hname
  rw [heq] at h
  exact h.clearOf hplain hself (hp _ hhead) tail

/-- **How the name of a direction is looked up**: one with another `i` is in no table. -/
theorem lookup_letters {name : String × Int} {letters : List Char} (hname : name ∈ Direction.names)
    (h : Alike name.1.toList letters) :
    Direction.names.lookup (lowerAscii (String.ofList letters)) =
      if dotted letters then none else some name.2 := by
  have hletters := (alike_iff (names_plain name hname)).1 h
  split
  · -- the other `i` is left as it is, and no direction has one in its name
    next hdotted =>
      obtain ⟨c, hc, hi⟩ := List.any_eq_true.1 hdotted
      have hi : c = 'ı' ∨ c = 'İ' := by simpa using hi
      have hlower : c.toLower = c := by rcases hi with rfl | rfl <;> decide
      have hother : ∀ name ∈ Direction.names, 'ı' ∉ name.1.toList ∧ 'İ' ∉ name.1.toList := by decide
      rw [List.lookup_eq_none_iff]
      intro name' hname'
      rw [bne_iff_ne]
      intro heq
      have hin : c ∈ name'.1.toList := by
        rw [← heq, lowerAscii, String.toList_map, String.toList_ofList]
        exact hlower ▸ List.mem_map_of_mem hc
      rcases hi with rfl | rfl
      · exact (hother name' hname').1 hin
      · exact (hother name' hname').2 hin
  · -- no direction has an `s` or a `k` in its name, so that all letters are in ASCII
    next hdotted =>
      have hnone : ∀ name ∈ Direction.names, 's' ∉ name.1.toList ∧ 'k' ∉ name.1.toList ∧
          Direction.names.lookup name.1 = some name.2 := by
        decide
      obtain ⟨hs, hk, hlookup⟩ := hnone name hname
      have hlower : letters.map Char.toLower = name.1.toList := by
        rw [← hletters]
        refine List.map_congr_left fun c hc => ?_
        have hi : ¬(c = 'ı' ∨ c = 'İ') := fun hi => hdotted (List.any_eq_true.2 ⟨c, hc, by simpa using hi⟩)
        have hin : plainLetter c ∈ name.1.toList := hletters ▸ List.mem_map_of_mem hc
        rw [plainLetter, if_neg hi] at hin ⊢
        split at hin
        · exact absurd hin hs
        · next hne =>
            split at hin
            · exact absurd hin hk
            · next hne' => rw [if_neg hne, if_neg hne']
      have hword : lowerAscii (String.ofList letters) = name.1 := by
        rw [← String.toList_inj, lowerAscii, String.toList_map, String.toList_ofList, hlower]
      rw [hword, hlookup]

/-- A name in any letter case, up to the closing parenthesis. -/
theorem facingName?_iff {letters : List Char} :
    RouteCondition.facingName? cs = some (String.ofList letters) ↔
      ∃ name head opening closing, (Wording.facingName name head opening letters closing).Writes cs := by
  constructor
  · intro h
    obtain ⟨⟨head, rest⟩, hhead, hfound⟩ := Option.bind_eq_some_iff.1 h
    obtain ⟨name, hname, hletters⟩ := List.exists_of_findSome?_eq_some hfound
    obtain ⟨⟨letters', behind⟩, hread, hend⟩ := Option.bind_eq_some_iff.1 hletters
    obtain ⟨hfacing, rfl⟩ := afterCaseless?_eq_some_iff.1 hhead
    obtain ⟨halike, hrest⟩ := afterCaseless?_eq_some_iff.1 hread
    obtain ⟨b, hb, hblanks⟩ := exists_blanks rest
    obtain ⟨opening, hopening, hquote⟩ := exists_quote (trimStartChars rest)
    obtain ⟨closing, hclosing, hquote'⟩ := exists_quote behind
    dsimp only at hend
    split at hend
    · next hcloses =>
        obtain rfl : letters' = letters := String.ofList_injective (Option.some.inj hend)
        obtain ⟨b', hb', heq⟩ := (closes_iff (by decide)).1 hcloses
        refine ⟨name, head, opening, closing, ⟨hname, hfacing, hopening, halike, hclosing⟩,
          b, _, hb, ⟨b', _, hb', rfl, rfl⟩, ?_⟩
        rw [hblanks, hquote, hrest, hquote', heq]
        simp only [List.append_assoc]
    · cases hend
  · rintro ⟨name, head, opening, closing, ⟨hname, hfacing, hopening, halike, hclosing⟩,
      b, _, hb, ⟨b', _, hb', rfl, rfl⟩, rfl⟩
    have hblank : ClearOf isBlank (opening ++ (letters ++ (closing ++ (b' ++ [')'])))) :=
      hopening.clearOf_blank (clearOf_name hname halike (fun _ => plainLetter_of_isBlank) (by decide) _)
    have hskip : skipOne ['\'', '"'] (opening ++ (letters ++ (closing ++ (b' ++ [')'])))) =
        letters ++ (closing ++ (b' ++ [')'])) :=
      skipOne_quote hopening
        (clearOf_name hname halike (fun _ => plainLetter_of_isQuote) (by decide) _)
    have hskip' : skipOne ['\'', '"'] (closing ++ (b' ++ [')'])) = b' ++ [')'] :=
      skipOne_quote hclosing (hb'.clearOf_closing (fun _ => isQuote_of_isBlank) (by decide))
    rw [RouteCondition.facingName?, afterCaseless?_eq_some_iff.2 ⟨hfacing, rfl⟩]
    simp only [Option.bind_eq_bind, Option.bind_some, trimStartChars_append hb, List.append_assoc,
      trimStartChars_of_clear hblank, hskip]
    refine findSome?_eq_some_of_unique hname ?_ ?_
    · rw [afterCaseless?_eq_some_iff.2 ⟨halike, rfl⟩]
      simp only [Option.bind_some, hskip']
      rw [if_pos ((closes_iff (by decide)).2 ⟨b', hb', rfl⟩)]
    · -- another name does not stand at the same place
      intro name' hname' written hwritten
      obtain ⟨⟨letters', behind⟩, hread, hend⟩ := Option.bind_eq_some_iff.1 hwritten
      obtain ⟨halike', heq⟩ := afterCaseless?_eq_some_iff.1 hread
      dsimp only at hend
      split at hend
      · obtain ⟨-, rfl⟩ := halike.unique halike' (names_plain name hname) (names_plain name' hname')
          (names_apart name hname name' hname') (names_apart name' hname' name hname) heq
        exact (Option.some.inj hend).symm
      · cases hend

theorem facingNamed?_iff : RouteCondition.facingNamed? cs = some r ↔
    ∃ name head opening letters closing,
      (Wording.facingName name head opening letters closing).Writes cs ∧
      (Wording.facingName name head opening letters closing).meaning = r := by
  have hmeaning : ∀ name head opening letters closing,
      (Wording.facingName name head opening letters closing).Writes cs →
      RouteCondition.facingNamed? cs =
        some (Wording.facingName name head opening letters closing).meaning := by
    intro name head opening letters closing hwrites
    have hwritten := facingName?_iff.2 ⟨name, head, opening, closing, hwrites⟩
    obtain ⟨⟨hname, -, -, hletters, -⟩, -⟩ := hwrites
    rw [RouteCondition.facingNamed?, hwritten, Option.map_some, lookup_letters hname hletters,
      Wording.meaning]
    cases dotted letters <;> rfl
  constructor
  · intro h
    obtain ⟨written, hwritten, -⟩ := Option.map_eq_some_iff.1 h
    obtain ⟨letters, rfl⟩ : ∃ letters, written = String.ofList letters :=
      ⟨written.toList, String.ofList_toList.symm⟩
    obtain ⟨name, head, opening, closing, hwrites⟩ := facingName?_iff.1 hwritten
    exact ⟨name, head, opening, _, closing, hwrites,
      Option.some.inj ((hmeaning _ _ _ _ _ hwrites).symm.trans h)⟩
  · rintro ⟨name, head, opening, letters, closing, hwrites, rfl⟩
    exact hmeaning _ _ _ _ _ hwrites

/-! ### All the forms -/

/-- **A reader accepts the texts of its wordings, and no others.** -/
theorem ConditionForm.reader_iff (f : ConditionForm) :
    f.reader cs = some r ↔ ∃ w : Wording, w.form = f ∧ w.Writes cs ∧ w.meaning = r := by
  constructor
  · intro h
    cases f with
    | constant =>
        obtain ⟨value, word, hw⟩ := const?_iff.1 h
        exact ⟨_, rfl, hw⟩
    | switch =>
        obtain ⟨expected, number, hw⟩ := switch?_iff.1 h
        exact ⟨_, rfl, hw⟩
    | selfSwitch =>
        obtain ⟨expected, opening, letter, closing, hw⟩ := selfSwitch?_iff.1 h
        exact ⟨_, rfl, hw⟩
    | comparison =>
        obtain ⟨number, relation, negative, operand, hw⟩ := comparison?_iff.1 h
        exact ⟨_, rfl, hw⟩
    | near =>
        obtain ⟨number, hw⟩ := near?_iff.1 h
        exact ⟨_, rfl, hw⟩
    | far =>
        obtain ⟨number, hw⟩ := far?_iff.1 h
        exact ⟨_, rfl, hw⟩
    | chance =>
        obtain ⟨percent, hw⟩ := chance?_iff.1 h
        exact ⟨_, rfl, hw⟩
    | facingCode =>
        obtain ⟨code, hw⟩ := facingCode?_iff.1 h
        exact ⟨_, rfl, hw⟩
    | facingName =>
        obtain ⟨name, head, opening, letters, closing, hw⟩ := facingNamed?_iff.1 h
        exact ⟨_, rfl, hw⟩
  · rintro ⟨w, rfl, hw⟩
    cases w with
    | constant value word => exact const?_iff.2 ⟨value, word, hw⟩
    | switch expected number => exact switch?_iff.2 ⟨expected, number, hw⟩
    | selfSwitch expected opening letter closing =>
        exact selfSwitch?_iff.2 ⟨expected, opening, letter, closing, hw⟩
    | comparison number relation negative operand =>
        exact comparison?_iff.2 ⟨number, relation, negative, operand, hw⟩
    | near number => exact near?_iff.2 ⟨number, hw⟩
    | far number => exact far?_iff.2 ⟨number, hw⟩
    | chance percent => exact chance?_iff.2 ⟨percent, hw⟩
    | facingCode code => exact facingCode?_iff.2 ⟨code, hw⟩
    | facingName name head opening letters closing =>
        exact facingNamed?_iff.2 ⟨name, head, opening, letters, closing, hw⟩

end EventLayer
