/-
**Pieces of a text with blanks between them.**

What authors write consists of pieces, with blanks allowed between some of them.  The readers scan a
piece, pass over blanks, and scan the next.  Here each step of such a reader is said to succeed
exactly if the text begins with a piece of a given form, so that a reader as a whole can be compared
with the form that it reads.

Main definitions:

* `Text.ClearOf` — a text that does not begin with a character of a class;
* `Text.Blanks`, `Text.Solid` — blanks alone, and no blanks at all;
* `Text.Spaced` — pieces in order, with blanks between them;
* `Text.Quote` — an optional quote;
* `Text.Digits` — decimal digits, at least one.

Main results:

* `Text.trimChars_surrounded` — **blanks at both ends are taken off**;
* `Text.digits?_eq_some_iff` — **the digits at the start of a text**.
-/
import Mathlib.Data.List.TakeWhile
import EventLayer.Proofs.Route.Conditions

set_option autoImplicit false
set_option relaxedAutoImplicit false

namespace EventLayer.Text

/-! ### Searches -/

/-- Where every result of a search is the same, it is what is found. -/
theorem findSome?_eq_some_of_unique {α β : Type} {f : α → Option β} {l : List α} {a : α} {b : β}
    (ha : a ∈ l) (hab : f a = some b) (hunique : ∀ a' ∈ l, ∀ b', f a' = some b' → b' = b) :
    l.findSome? f = some b := by
  have hsome : (l.findSome? f).isSome := List.findSome?_isSome_iff.2 ⟨a, ha, by rw [hab]; rfl⟩
  obtain ⟨b', hb'⟩ := Option.isSome_iff_exists.1 hsome
  obtain ⟨a', ha', hfound⟩ := List.exists_of_findSome?_eq_some hb'
  rw [hb', hunique a' ha' b' hfound]

/-! ### How a text begins -/

/-- A text that does not begin with a character of a class. -/
def ClearOf (p : Char → Bool) (cs : List Char) : Prop := ∀ c, cs.head? = some c → p c = false

section ClearOf

variable {p : Char → Bool} {c : Char} {cs ds : List Char}

theorem clearOf_nil : ClearOf p [] := nofun

theorem clearOf_cons : ClearOf p (c :: cs) ↔ p c = false := by simp [ClearOf]

theorem clearOf_append (h : cs ≠ []) : ClearOf p (cs ++ ds) ↔ ClearOf p cs := by
  cases cs with
  | nil => exact absurd rfl h
  | cons c cs => rw [List.cons_append, clearOf_cons, clearOf_cons]

theorem ClearOf.dropWhile (h : ClearOf p cs) : cs.dropWhile p = cs := by
  cases cs with
  | nil => rfl
  | cons c cs => rw [List.dropWhile_cons, if_neg (by simp [clearOf_cons.1 h])]

theorem ClearOf.takeWhile (h : ClearOf p cs) : cs.takeWhile p = [] := by
  cases cs with
  | nil => rfl
  | cons c cs => rw [List.takeWhile_cons, if_neg (by simp [clearOf_cons.1 h])]

theorem clearOf_of_forall (h : ∀ c ∈ cs, p c = false) : ClearOf p cs := by
  intro c hc
  exact h c (List.mem_of_mem_head? hc)

theorem clearOf_dropWhile (p : Char → Bool) (cs : List Char) : ClearOf p (cs.dropWhile p) := by
  intro c hc
  have hne := List.head?_dropWhile_not p cs
  rw [hc] at hne
  simpa using hne

end ClearOf

/-- What holds of every character of a text is decided along the text, not over all the characters
that there are. -/
instance decidableForallMem {p : Char → Prop} [DecidablePred p] (cs : List Char) :
    Decidable (∀ c ∈ cs, p c) :=
  List.decidableBAll p cs

/-! ### Blanks -/

/-- Blanks alone. -/
def Blanks (b : List Char) : Prop := ∀ c ∈ b, isBlank c = true

instance (b : List Char) : Decidable (Blanks b) :=
  inferInstanceAs (Decidable (∀ c ∈ b, isBlank c = true))

section Blanks

variable {b b' cs : List Char}

theorem blanks_nil : Blanks [] := nofun

theorem Blanks.append (h : Blanks b) (h' : Blanks b') : Blanks (b ++ b') := by
  intro c hc
  exact (List.mem_append.1 hc).elim (h c) (h' c)

/-- No blanks at all. -/
def Solid (cs : List Char) : Prop := ∀ c ∈ cs, isBlank c = false

instance (cs : List Char) : Decidable (Solid cs) :=
  inferInstanceAs (Decidable (∀ c ∈ cs, isBlank c = false))

theorem Solid.append {cs cs' : List Char} (h : Solid cs) (h' : Solid cs') : Solid (cs ++ cs') := by
  intro c hc
  exact (List.mem_append.1 hc).elim (h c) (h' c)

/-- Blanks do not begin with a character of a class without blanks. -/
theorem Blanks.clearOf {p : Char → Bool} (h : Blanks b) (hp : ∀ c, isBlank c = true → p c = false)
    (hcs : ClearOf p cs) : ClearOf p (b ++ cs) := by
  cases b with
  | nil => exact hcs
  | cons c b => exact clearOf_cons.2 (hp c (h c (by simp)))

theorem Blanks.clearOf_closing {p : Char → Bool} {closing : Char} (h : Blanks b)
    (hp : ∀ c, isBlank c = true → p c = false) (hclosing : p closing = false) :
    ClearOf p (b ++ [closing]) :=
  h.clearOf hp (clearOf_cons.2 hclosing)

theorem trimStartChars_append (h : Blanks b) : trimStartChars (b ++ cs) = trimStartChars cs :=
  List.dropWhile_append_of_pos h

theorem trimStartChars_of_clear (h : ClearOf isBlank cs) : trimStartChars cs = cs := h.dropWhile

theorem clearOf_trimStartChars (cs : List Char) : ClearOf isBlank (trimStartChars cs) :=
  clearOf_dropWhile isBlank cs

theorem exists_blanks (cs : List Char) : ∃ b, Blanks b ∧ cs = b ++ trimStartChars cs :=
  ⟨cs.takeWhile isBlank, fun c hc => by simpa using List.mem_takeWhile_imp hc,
    List.takeWhile_append_dropWhile.symm⟩

/-- Blanks at both ends are taken off. -/
theorem trimChars_surrounded (hb : Blanks b) (hb' : Blanks b') (h : ClearOf isBlank cs)
    (h' : ClearOf isBlank cs.reverse) : trimChars (b ++ (cs ++ b')) = cs := by
  have hrev : Blanks b'.reverse := fun c hc => hb' c (List.mem_reverse.1 hc)
  rw [trimChars, trimStartChars_append hb]
  cases cs with
  | nil =>
      have hnil : trimStartChars ([] ++ b') = [] := by
        rw [List.nil_append, ← List.append_nil b', trimStartChars_append hb']
        rfl
      rw [hnil]
      rfl
  | cons c cs =>
      have hstart : ClearOf isBlank (c :: cs ++ b') := (clearOf_append (by simp)).2 h
      rw [trimStartChars_of_clear hstart, trimEndChars, List.reverse_append,
        List.dropWhile_append_of_pos hrev, h'.dropWhile, List.reverse_reverse]

/-- A text is what is left of it without the blanks at its ends, and these blanks. -/
theorem exists_surroundings (cs : List Char) :
    ∃ b b', Blanks b ∧ Blanks b' ∧ cs = b ++ (trimChars cs ++ b') := by
  obtain ⟨b, hb, heq⟩ := exists_blanks cs
  obtain ⟨b', hb', heq'⟩ := exists_blanks (trimStartChars cs).reverse
  refine ⟨b, b'.reverse, hb, fun c hc => hb' c (List.mem_reverse.1 hc), ?_⟩
  have hend : trimStartChars cs = trimChars cs ++ b'.reverse := by
    have := congrArg List.reverse heq'
    rwa [List.reverse_reverse, List.reverse_append] at this
  rw [← hend]
  exact heq

theorem clearOf_trimChars (cs : List Char) : ClearOf isBlank (trimChars cs) := by
  obtain ⟨b', hb', heq⟩ := exists_blanks (trimStartChars cs).reverse
  have hend : trimStartChars cs = trimChars cs ++ b'.reverse := by
    have := congrArg List.reverse heq
    rwa [List.reverse_reverse, List.reverse_append] at this
  have hclear := clearOf_trimStartChars cs
  by_cases hnil : trimChars cs = []
  · rw [hnil]
    exact clearOf_nil
  · rw [hend] at hclear
    exact (clearOf_append hnil).1 hclear

theorem clearOf_reverse_trimChars (cs : List Char) : ClearOf isBlank (trimChars cs).reverse := by
  rw [trimChars, trimEndChars, List.reverse_reverse]
  exact clearOf_dropWhile isBlank _

theorem trimChars_trimChars (cs : List Char) : trimChars (trimChars cs) = trimChars cs := by
  have h := trimChars_surrounded blanks_nil blanks_nil (clearOf_trimChars cs) (clearOf_reverse_trimChars cs)
  rwa [List.append_nil] at h

/-- Where nothing is blank nothing is taken off. -/
theorem Solid.trimChars_eq (h : Solid cs) : trimChars cs = cs := by
  have hreverse : Solid cs.reverse := fun c hc => h c (List.mem_reverse.1 hc)
  have htrim := trimChars_surrounded blanks_nil blanks_nil (clearOf_of_forall h) (clearOf_of_forall hreverse)
  rwa [List.append_nil] at htrim

end Blanks

/-! ### Pieces -/

/-- Pieces in order, with blanks allowed between any two. -/
def Spaced : List (List Char) → List Char → Prop
  | [], cs => cs = []
  | [piece], cs => cs = piece
  | piece :: next :: pieces, cs =>
    ∃ b rest, Blanks b ∧ Spaced (next :: pieces) rest ∧ cs = piece ++ (b ++ rest)

section Pieces

variable {word cs rest : List Char}

theorem after?_eq_some_iff : after? word cs = some rest ↔ cs = word ++ rest := by
  constructor
  · intro h
    induction word generalizing cs with
    | nil => exact Option.some.inj h
    | cons w ws ih =>
        cases cs with
        | nil => cases h
        | cons c cs =>
            rw [after?] at h
            split at h
            · next heq => rw [heq, List.cons_append, ih h]
            · cases h
  · rintro rfl
    exact after?_append word rest

/-- Blanks and a closing character at the end of a text. -/
theorem closes_iff {closing : Char} (h : isBlank closing = false) :
    RouteCondition.closes closing cs = true ↔ ∃ b, Blanks b ∧ cs = b ++ [closing] := by
  rw [RouteCondition.closes, beq_iff_eq]
  constructor
  · intro hcs
    obtain ⟨b, hb, heq⟩ := exists_blanks cs
    exact ⟨b, hb, hcs ▸ heq⟩
  · rintro ⟨b, hb, rfl⟩
    rw [trimStartChars_append hb, trimStartChars_of_clear (clearOf_cons.2 h)]

/-- An optional quote. -/
def Quote (q : List Char) : Prop := q = [] ∨ q = ['\''] ∨ q = ['"']

/-- Whether a character is a quote. -/
def isQuote (c : Char) : Bool := c == '\'' || c == '"'

/-- What is passed over where one character of a class may stand. -/
theorem exists_skipped (chars cs : List Char) :
    ∃ q, (q = [] ∨ ∃ c ∈ chars, q = [c]) ∧ cs = q ++ skipOne chars cs := by
  cases cs with
  | nil => exact ⟨[], .inl rfl, rfl⟩
  | cons c cs =>
      rw [skipOne]
      split
      · next hc => exact ⟨[c], .inr ⟨c, hc, rfl⟩, rfl⟩
      · exact ⟨[], .inl rfl, rfl⟩

/-- One character of a class is passed over, and no other. -/
theorem skipOne_append {chars q : List Char} (hq : q = [] ∨ ∃ c ∈ chars, q = [c])
    (h : ClearOf (fun c => chars.contains c) cs) : skipOne chars (q ++ cs) = cs := by
  rcases hq with rfl | ⟨c, hc, rfl⟩
  · cases cs with
    | nil => rfl
    | cons c cs =>
        have hne : c ∉ chars := by simpa using clearOf_cons.1 h
        rw [List.nil_append, skipOne, if_neg hne]
  · rw [List.singleton_append, skipOne, if_pos hc]

theorem quote_iff {q : List Char} : Quote q ↔ q = [] ∨ ∃ c ∈ ['\'', '"'], q = [c] := by
  simp [Quote]

theorem exists_quote (cs : List Char) : ∃ q, Quote q ∧ cs = q ++ skipOne ['\'', '"'] cs := by
  simpa only [quote_iff] using exists_skipped ['\'', '"'] cs

/-- An optional quote is passed over, and only one. -/
theorem skipOne_quote {q : List Char} (hq : Quote q) (h : ClearOf isQuote cs) :
    skipOne ['\'', '"'] (q ++ cs) = cs := by
  refine skipOne_append (quote_iff.1 hq) fun c hc => ?_
  simpa [isQuote] using h c hc

theorem isQuote_of_isBlank {c : Char} (h : isBlank c = true) : isQuote c = false := by
  by_contra hquote
  rw [Bool.not_eq_false, isQuote, Bool.or_eq_true, beq_iff_eq, beq_iff_eq] at hquote
  rcases hquote with rfl | rfl <;> exact absurd h (by decide)

theorem Quote.solid {q : List Char} (h : Quote q) : Solid q := by
  rcases h with rfl | rfl | rfl <;> decide

/-- A quote is no blank. -/
theorem Quote.clearOf_blank {q : List Char} (hq : Quote q) (h : ClearOf isBlank cs) :
    ClearOf isBlank (q ++ cs) := by
  rcases hq with rfl | rfl | rfl
  · exact h
  · exact clearOf_cons.2 (by decide)
  · exact clearOf_cons.2 (by decide)

/-- Pieces begin as the first of them does. -/
theorem Spaced.clearOf {p : Char → Bool} {piece : List Char} {pieces : List (List Char)}
    (h : Spaced (piece :: pieces) cs) (hne : piece ≠ []) (hp : ClearOf p piece) : ClearOf p cs := by
  cases pieces with
  | nil =>
      obtain rfl : cs = piece := h
      exact hp
  | cons next pieces =>
      obtain ⟨b, rest, -, -, rfl⟩ := h
      exact (clearOf_append hne).2 hp

/-- Blanks at the start of pieces that have none themselves are between no pieces. -/
theorem Spaced.trimStart {pieces : List (List Char)} (h : Spaced pieces cs)
    (hp : ∀ piece ∈ pieces, ClearOf isBlank piece) : Spaced pieces (trimStartChars cs) := by
  induction pieces generalizing cs with
  | nil =>
      obtain rfl : cs = [] := h
      rfl
  | cons piece pieces ih =>
      have hpiece := hp piece (by simp)
      cases pieces with
      | nil =>
          obtain rfl : cs = piece := h
          rw [trimStartChars_of_clear hpiece]
          exact rfl
      | cons next pieces =>
          obtain ⟨b, rest, hb, hrest, rfl⟩ := h
          by_cases hne : piece = []
          · subst hne
            rw [List.nil_append, trimStartChars_append hb]
            exact ⟨[], _, blanks_nil, ih hrest fun piece h => hp piece (by simp [h]), rfl⟩
          · rw [trimStartChars_of_clear ((clearOf_append hne).2 hpiece)]
            exact ⟨b, rest, hb, hrest, rfl⟩

/-- Pieces end with the last of them. -/
theorem Spaced.exists_last {pieces : List (List Char)} {last : List Char}
    (h : Spaced (pieces ++ [last]) cs) : ∃ front, cs = front ++ last := by
  induction pieces generalizing cs with
  | nil => exact ⟨[], h⟩
  | cons piece pieces ih =>
      obtain ⟨next, rest, heq⟩ : ∃ next rest, pieces ++ [last] = next :: rest := by
        cases pieces <;> exact ⟨_, _, rfl⟩
      rw [List.cons_append, heq] at h
      obtain ⟨b, tail, -, htail, rfl⟩ := h
      obtain ⟨front, rfl⟩ := ih (heq ▸ htail)
      exact ⟨piece ++ (b ++ front), by simp only [List.append_assoc]⟩

end Pieces

/-! ### Digits -/

/-- Decimal digits, at least one. -/
def Digits (ds : List Char) : Prop := ds ≠ [] ∧ ∀ c ∈ ds, isDecimalDigit c = true

section Digits

variable {cs ds rest : List Char}

/-- The code points of digits and blanks are apart. -/
theorem digitZeros_not_blank : ∀ z ∈ digitZeros, ∀ r ∈ blankRanges, r.2 < z ∨ z + 10 ≤ r.1 := by
  decide

theorem isBlank_of_isDecimalDigit {c : Char} (h : isDecimalDigit c = true) : isBlank c = false := by
  obtain ⟨d, hd⟩ := Option.isSome_iff_exists.1 h
  obtain ⟨z, hz, hrow⟩ := List.exists_of_findSome?_eq_some hd
  split at hrow
  · next hin =>
      rw [isBlank, List.any_eq_false]
      intro r hr
      have hapart := digitZeros_not_blank z hz r hr
      simp only [Bool.and_eq_true, decide_eq_true_eq, not_and]
      omega
  · cases hrow

theorem isDecimalDigit_of_isBlank {c : Char} (h : isBlank c = true) : isDecimalDigit c = false := by
  by_contra hdigit
  rw [isBlank_of_isDecimalDigit (by simpa using hdigit)] at h
  cases h

theorem Digits.solid (h : Digits ds) : Solid ds := fun c hc => isBlank_of_isDecimalDigit (h.2 c hc)

/-- What holds of no digit, digits do not begin with. -/
theorem Digits.clearOf {p : Char → Bool} (h : Digits ds) (hp : ∀ c, isDecimalDigit c = true → p c = false)
    (rest : List Char) : ClearOf p (ds ++ rest) := by
  obtain ⟨hne, hall⟩ := h
  cases ds with
  | nil => exact absurd rfl hne
  | cons c ds => exact clearOf_cons.2 (hp c (hall c (by simp)))

theorem Digits.clearOf_blank (h : Digits ds) (rest : List Char) : ClearOf isBlank (ds ++ rest) :=
  h.clearOf (fun _ => isBlank_of_isDecimalDigit) rest

/-- **The digits at the start of a text.** -/
theorem digits?_eq_some_iff : digits? cs = some (ds, rest) ↔
    Digits ds ∧ cs = ds ++ rest ∧ ClearOf isDecimalDigit rest := by
  constructor
  · intro h
    rw [digits?] at h
    split at h
    · cases h
    · next hne =>
        cases h
        exact ⟨⟨hne, fun c hc => List.mem_takeWhile_imp hc⟩, List.takeWhile_append_dropWhile.symm,
          clearOf_dropWhile _ _⟩
  · rintro ⟨⟨hne, hall⟩, rfl, hclear⟩
    rw [digits?, List.takeWhile_append_of_pos hall, List.dropWhile_append_of_pos hall,
      hclear.takeWhile, hclear.dropWhile, List.append_nil]
    cases ds with
    | nil => exact absurd rfl hne
    | cons d ds => rfl

end Digits

end EventLayer.Text
