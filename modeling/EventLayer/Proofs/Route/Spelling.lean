/-
**No text has two spellings.**

The readers of conditions are tried one after another, and the first that accepts a text decides.  Which
is first does not matter: without its blanks and exclamation marks, and with each character replaced
by the ASCII character that it counts as, a text that writes a condition begins with an opening of the
form of the condition, and no opening of one form is the beginning of an opening of another.

Main definitions:

* `ConditionForm.openings` — how the texts of a form begin;
* `Wording.Spells` — the texts that write a condition, with blanks at their ends;
* `Wording.Faulty` — a wording that denotes no condition.

Main results:

* `Wording.form_unique` — **no text writes wordings of two forms**;
* `RouteCondition.parse_of_spells`, `RouteCondition.parse_of_unwritten` — **what a text is read as**;
* `RouteCondition.reads_back` — **conditions are read back**, in any order of the readers, and from the
  calls that they stand in.
-/
import EventLayer.Proofs.Results
import EventLayer.Proofs.Route.Calls
import EventLayer.Proofs.Route.Wording

set_option autoImplicit false
set_option relaxedAutoImplicit false

namespace EventLayer

open Text

variable {cs cs' : List Char}

/-! ### Texts laid bare -/

/-- A text without blanks and exclamation marks, each character as the ASCII character that it counts
as. -/
def bare (cs : List Char) : List Char := (cs.filter fun c => !isBlank c && c != '!').map plainLetter

theorem bare_append (cs cs' : List Char) : bare (cs ++ cs') = bare cs ++ bare cs' := by
  rw [bare, List.filter_append, List.map_append]
  rfl

theorem bare_blanks (h : Blanks cs) : bare cs = [] := by
  rw [bare, List.map_eq_nil_iff, List.filter_eq_nil_iff]
  intro c hc
  simp [h c hc]

/-- Pieces are laid bare one by one. -/
theorem bare_spaced {pieces : List (List Char)} (h : Spaced pieces cs) :
    bare cs = (pieces.map bare).flatten := by
  induction pieces generalizing cs with
  | nil =>
      obtain rfl : cs = [] := h
      rfl
  | cons piece pieces ih =>
      cases pieces with
      | nil =>
          obtain rfl : cs = piece := h
          simp
      | cons next pieces =>
          obtain ⟨b, rest, hb, hrest, rfl⟩ := h
          rw [List.map_cons, List.flatten_cons, bare_append, bare_append, bare_blanks hb, List.nil_append,
            ih hrest]

/-- What fits a word without blanks and exclamation marks is the word when laid bare. -/
theorem bare_alike {word : List Char} (h : Alike word cs) (hplain : word.all IsPlain = true)
    (hclear : ∀ w ∈ word, isBlank w = false ∧ w ≠ '!') : bare cs = word := by
  have hword := (alike_iff hplain).1 h
  have hall : cs.filter (fun c => !isBlank c && c != '!') = cs := by
    rw [List.filter_eq_self]
    intro c hc
    have hin : plainLetter c ∈ word := hword ▸ List.mem_map_of_mem hc
    have hblank := h.not_blank hplain (fun w hw => (hclear w hw).1) c hc
    have hmark : c ≠ '!' := by
      rintro rfl
      exact (hclear _ hin).2 (by decide)
    simp [hblank, hmark]
  rw [bare, hall, hword]

/-! ### Openings -/

/-- How the texts of a form begin, laid bare. -/
def ConditionForm.openings : ConditionForm → List (List Char)
  | constant => ["true".toList, "false".toList]
  | switch => ["s[".toList]
  | selfSwitch => ["self[".toList]
  | comparison => ["v[".toList]
  | near => ["near(".toList]
  | far => ["far(".toList]
  | chance => ["chance(".toList]
  | facingCode => ['2', '4', '6', '8'].map fun c => "facing(".toList ++ [c]
  | facingName => ['\'', '"', 'd', 'l', 'r', 'u'].map fun c => "facing(".toList ++ [c]

/-- No opening of one form is the beginning of an opening of another. -/
theorem ConditionForm.openings_apart : ∀ f ∈ all, ∀ g ∈ all, ∀ o ∈ f.openings, ∀ o' ∈ g.openings,
    o <+: o' → f = g := by
  decide

theorem names_clear : ∀ name ∈ Direction.names, ∀ w ∈ name.1.toList, isBlank w = false ∧ w ≠ '!' := by
  decide

namespace Wording

/-- A text that writes a wording begins with an opening of its form. -/
theorem exists_opening {w : Wording} (h : w.Writes cs) : ∃ o ∈ w.form.openings, o <+: bare cs := by
  obtain ⟨hproper, hspaced⟩ := h
  rw [bare_spaced hspaced]
  cases w with
  | constant value word =>
      refine ⟨bare word, ?_, ?_⟩
      · cases value with
        | true =>
            have halike : Alike "true".toList word := hproper
            rw [bare_alike halike (by decide) (by decide)]
            exact List.mem_cons_self
        | false =>
            have halike : Alike "false".toList word := hproper
            rw [bare_alike halike (by decide) (by decide)]
            exact List.mem_cons_of_mem _ List.mem_cons_self
      · simp [pieces]
  | switch expected number =>
      refine ⟨_, List.mem_singleton.2 rfl, ?_⟩
      cases expected <;> exact List.prefix_append _ _
  | selfSwitch expected opening letter closing =>
      refine ⟨_, List.mem_singleton.2 rfl, ?_⟩
      cases expected <;> exact List.prefix_append _ _
  | comparison number relation negative operand =>
      exact ⟨_, List.mem_singleton.2 rfl, List.prefix_append _ _⟩
  | near number => exact ⟨_, List.mem_singleton.2 rfl, List.prefix_append _ _⟩
  | far number => exact ⟨_, List.mem_singleton.2 rfl, List.prefix_append _ _⟩
  | chance percent => exact ⟨_, List.mem_singleton.2 rfl, List.prefix_append _ _⟩
  | facingCode code =>
      have hcode : code ∈ ['2', '4', '6', '8'] := hproper
      refine ⟨"facing(".toList ++ [code], List.mem_map_of_mem hcode, ?_⟩
      have hbare : ∀ code ∈ ['2', '4', '6', '8'], bare [code] = [code] := by decide
      rw [pieces, List.map_cons, List.map_cons, List.flatten_cons, List.flatten_cons, hbare code hcode,
        ← List.append_assoc]
      exact List.prefix_append _ _
  | facingName name head opening letters closing =>
      obtain ⟨hname, hhead, hopening, hletters, -⟩ := hproper
      -- behind the parenthesis stands a quote or the first letter of the name
      have hfirst : ∃ c ∈ ['\'', '"', 'd', 'l', 'r', 'u'], [c] <+: bare (opening ++ (letters ++ closing)) := by
        rw [bare_append]
        rcases hopening with rfl | rfl | rfl
        · obtain ⟨heq, hin, -⟩ := names_first name hname
          rw [bare_append, bare_alike hletters (names_plain name hname) (names_clear name hname), heq]
          exact ⟨_, List.mem_cons_of_mem _ (List.mem_cons_of_mem _ hin), List.prefix_append _ _⟩
        · exact ⟨'\'', by decide, List.prefix_append _ _⟩
        · exact ⟨'"', by decide, List.prefix_append _ _⟩
      obtain ⟨c, hc, tail, htail⟩ := hfirst
      refine ⟨"facing(".toList ++ [c], List.mem_map_of_mem hc, ?_⟩
      rw [pieces, List.map_cons, List.map_cons, List.flatten_cons, List.flatten_cons, ← htail,
        bare_alike hhead (by decide) (by decide), List.append_assoc, ← List.append_assoc]
      exact List.prefix_append _ _

/-- **No text writes wordings of two forms.** -/
theorem form_unique {w w' : Wording} (h : w.Writes cs) (h' : w'.Writes cs) : w.form = w'.form := by
  obtain ⟨o, ho, hprefix⟩ := exists_opening h
  obtain ⟨o', ho', hprefix'⟩ := exists_opening h'
  rcases List.prefix_or_prefix_of_prefix hprefix hprefix' with hle | hle
  · exact ConditionForm.openings_apart _ w.form.mem_all _ w'.form.mem_all _ ho _ ho' hle
  · exact (ConditionForm.openings_apart _ w'.form.mem_all _ w.form.mem_all _ ho' _ ho hle).symm

/-! ### Spellings -/

/-- A text spells a wording: it writes it, with blanks at its ends. -/
def Spells (w : Wording) (text : String) : Prop :=
  ∃ b cs b', Blanks b ∧ w.Writes cs ∧ Blanks b' ∧ text.toList = b ++ (cs ++ b')

/-- The pieces of a wording have no blanks. -/
theorem pieces_solid {w : Wording} (h : w.Proper) : ∀ piece ∈ w.pieces, Solid piece := by
  have hmark : ∀ expected, Solid (mark expected) := by
    intro expected
    cases expected <;> decide
  have hminus : ∀ negative, Solid (minus negative) := by
    intro negative
    cases negative <;> decide
  have hsign : ∀ relation : Relation, Solid relation.sign.toList := by
    intro relation
    cases relation <;> decide
  cases w with
  | constant value word =>
      have halike : Alike (if value then "true" else "false").toList word := h
      have hword : ∀ value : Bool, (if value then "true" else "false").toList.all IsPlain = true ∧
          ∀ w ∈ (if value then "true" else "false").toList, isBlank w = false := by
        decide
      simp only [pieces, List.forall_mem_cons]
      exact ⟨halike.not_blank (hword value).1 (hword value).2, nofun⟩
  | switch expected number =>
      have hnumber : Digits number := h
      simp only [pieces, List.forall_mem_cons]
      exact ⟨hmark expected, by decide, hnumber.solid, by decide, nofun⟩
  | selfSwitch expected opening letter closing =>
      obtain ⟨hopening, hletter, hclosing⟩ := h
      have hclear : ClearOf isBlank [letter] :=
        clearOf_channel hletter (fun _ => toUpper_of_isBlank) (by decide)
      have hsolid : isBlank letter = false := clearOf_cons.1 hclear
      simp only [pieces, List.forall_mem_cons]
      exact ⟨hmark expected, by decide,
        hopening.solid.append (List.forall_mem_cons.2 ⟨hsolid, hclosing.solid⟩), by decide, nofun⟩
  | comparison number relation negative operand =>
      obtain ⟨hnumber, hoperand⟩ := h
      simp only [pieces, List.forall_mem_cons]
      exact ⟨by decide, hnumber.solid, by decide, hsign relation, (hminus negative).append hoperand.solid, nofun⟩
  | near number | far number =>
      have hnumber : Digits number := h
      simp only [pieces, List.forall_mem_cons]
      exact ⟨by decide, hnumber.solid, by decide, nofun⟩
  | chance percent =>
      have hpercent : IsDecimal percent := h
      simp only [pieces, List.forall_mem_cons]
      exact ⟨by decide, hpercent.solid, by decide, nofun⟩
  | facingCode code =>
      have hcode : ∀ code ∈ ['2', '4', '6', '8'], isBlank code = false := by decide
      simp only [pieces, List.forall_mem_cons]
      exact ⟨by decide, List.forall_mem_singleton.2 (hcode code h), by decide, nofun⟩
  | facingName name head opening letters closing =>
      obtain ⟨hname, hhead, hopening, hletters, hclosing⟩ := h
      have hsolid := hletters.not_blank (names_plain name hname) fun w hw => (names_clear name hname w hw).1
      simp only [pieces, List.forall_mem_cons]
      exact ⟨hhead.not_blank (by decide) (by decide), hopening.solid.append (Solid.append hsolid hclosing.solid),
        by decide, nofun⟩

/-- The last piece of a wording is not empty. -/
theorem exists_last {w : Wording} (h : w.Proper) : ∃ front last, w.pieces = front ++ [last] ∧ last ≠ [] := by
  cases w with
  | constant value word =>
      refine ⟨[], word, rfl, ?_⟩
      rintro rfl
      have hlength := List.Forall₂.length_eq h
      cases value <;> cases hlength
  | comparison number relation negative operand =>
      have hoperand : IsDecimal operand := h.2
      refine ⟨[_, _, _, _], _, rfl, fun hnil => ?_⟩
      rcases hoperand with hdigits | ⟨whole, fraction, -, -, rfl⟩
      · exact hdigits.1 (List.append_eq_nil_iff.1 hnil).2
      · simp at hnil
  | switch _ _ | selfSwitch _ _ _ _ => exact ⟨[_, _, _], _, rfl, nofun⟩
  | _ => exact ⟨[_, _], _, rfl, nofun⟩

/-- A text writes a wording also without the blanks at its start. -/
theorem Writes.trimStart {w : Wording} (h : w.Writes cs) : w.Writes (trimStartChars cs) :=
  ⟨h.1, h.2.trimStart fun piece hpiece => clearOf_of_forall (pieces_solid h.1 piece hpiece)⟩

/-- A text that writes a wording does not end with a blank. -/
theorem Writes.clearOf_reverse {w : Wording} (h : w.Writes cs) : ClearOf isBlank cs.reverse := by
  obtain ⟨front, last, heq, hne⟩ := exists_last h.1
  have hsolid := pieces_solid h.1 last (heq ▸ List.mem_append_right _ (by simp))
  obtain ⟨before, rfl⟩ := Spaced.exists_last (heq ▸ h.2)
  rw [List.reverse_append]
  refine (clearOf_append (by simpa using hne)).2 (clearOf_of_forall fun c hc => ?_)
  exact hsolid c (List.mem_reverse.1 hc)

theorem Writes.ne_nil {w : Wording} (h : w.Writes cs) : cs ≠ [] := by
  obtain ⟨front, last, heq, hne⟩ := exists_last h.1
  obtain ⟨before, rfl⟩ := Spaced.exists_last (heq ▸ h.2)
  exact fun hnil => hne (List.append_eq_nil_iff.1 hnil).2

/-- A text spells what it writes without the blanks at its ends. -/
theorem spells_iff {w : Wording} {text : String} : w.Spells text ↔ w.Writes (trimChars text.toList) := by
  constructor
  · rintro ⟨b, cs, b', hb, hwrites, hb', htext⟩
    obtain ⟨b'', hb'', heq⟩ := exists_blanks cs
    have hcs : text.toList = (b ++ b'') ++ (trimStartChars cs ++ b') := by
      rw [htext, List.append_assoc, ← List.append_assoc b'', ← heq]
    rw [hcs, trimChars_surrounded (hb.append hb'') hb' (clearOf_trimStartChars cs)
      hwrites.trimStart.clearOf_reverse]
    exact hwrites.trimStart
  · intro h
    obtain ⟨b, b', hb, hb', htext⟩ := exists_surroundings text.toList
    exact ⟨b, _, b', hb, h, hb', htext⟩

/-! ### Wordings that denote nothing -/

/-- A wording that denotes no condition: its whole number has too many digits, or the name of its
direction another `i`. -/
def Faulty : Wording → Prop
  | switch _ number => maxDigits < number.length
  | comparison number _ _ _ => maxDigits < number.length
  | near number => maxDigits < number.length
  | far number => maxDigits < number.length
  | facingName _ _ _ letters _ => dotted letters = true
  | _ => False

theorem exists_wholeNumber {number : List Char} (h : Digits number) :
    (∃ n, wholeNumber number = .ok n) ↔ ¬maxDigits < number.length := by
  rw [← wholeNumber_digits_eq_error_iff h]
  cases wholeNumber number <;> simp

theorem exists_decimalNumber {operand : List Char} (h : IsDecimal operand) (negative : Bool) :
    ∃ x, decimalNumber (minus negative ++ operand) = .ok x := by
  obtain ⟨x, -, hx⟩ := plainDecimal?_append h negative clearOf_nil clearOf_nil
  exact ⟨x, hx⟩

theorem error_not_ok {α : Type} (e : Fault) : ¬∃ a : α, Except.error e = Except.ok a := by
  rintro ⟨_, h⟩
  cases h

theorem exists_map_eq_ok {α β : Type} {x : Except Fault α} {f : α → β} :
    (∃ b, x.map f = .ok b) ↔ ∃ a, x = .ok a := by
  cases x with
  | ok a => exact iff_of_true ⟨_, rfl⟩ ⟨_, rfl⟩
  | error e => exact iff_of_false (error_not_ok _) (error_not_ok _)

/-- A wording denotes a condition unless it is faulty. -/
theorem exists_meaning_iff {w : Wording} (h : w.Proper) : (∃ c, w.meaning = .ok c) ↔ ¬w.Faulty := by
  cases w with
  | constant value word => exact iff_of_true ⟨_, rfl⟩ id
  | switch expected number => exact exists_map_eq_ok.trans (exists_wholeNumber h)
  | selfSwitch expected opening letter closing => exact iff_of_true ⟨_, rfl⟩ id
  | comparison number relation negative operand =>
      obtain ⟨x, hx⟩ := exists_decimalNumber h.2 negative
      refine Iff.trans ?_ (exists_wholeNumber h.1)
      rw [meaning, hx]
      cases wholeNumber number with
      | ok n => exact iff_of_true ⟨_, rfl⟩ ⟨n, rfl⟩
      | error e => exact iff_of_false (error_not_ok _) (error_not_ok _)
  | near number => exact exists_map_eq_ok.trans (exists_wholeNumber h)
  | far number => exact exists_map_eq_ok.trans (exists_wholeNumber h)
  | chance percent =>
      exact iff_of_true (exists_map_eq_ok.2 (exists_decimalNumber h false)) id
  | facingCode code =>
      have hdigit : ∀ code ∈ ['2', '4', '6', '8'], isDecimalDigit code = true := by decide
      have hdigits : Digits [code] := ⟨List.cons_ne_nil _ _, List.forall_mem_singleton.2 (hdigit code h)⟩
      have hfew : ¬maxDigits < 1 := by decide
      exact iff_of_true (exists_map_eq_ok.2 ((exists_wholeNumber hdigits).2 hfew)) id
  | facingName name head opening letters closing =>
      rw [meaning, Faulty]
      split
      · next hdotted => exact iff_of_false (error_not_ok _) (fun hne => hne hdotted)
      · next hdotted => exact iff_of_true ⟨_, rfl⟩ hdotted

theorem wholeNumber_eq_error {number : List Char} {e : Fault} (h : wholeNumber number = .error e) :
    e = .notANumber := by
  rw [wholeNumber] at h
  split at h
  · cases h
  · exact (Except.error.inj h).symm

theorem decimalNumber_eq_error {number : List Char} {e : Fault} (h : decimalNumber number = .error e) :
    e = .notANumber := by
  rw [decimalNumber] at h
  split at h
  · cases h
  · exact (Except.error.inj h).symm

theorem map_eq_error {α β : Type} {x : Except Fault α} {f : α → β} {e : Fault} (h : x.map f = .error e) :
    x = .error e := by
  cases x with
  | ok a => cases h
  | error e' =>
      cases h
      rfl

/-- What is wrong with a wording is not that it is misspelled. -/
theorem foreign_of_meaning {w : Wording} {e : Fault} (h : w.meaning = .error e) : e.Foreign := by
  suffices hcases : e = .notANumber ∨ e = .missingKey by
    rcases hcases with rfl | rfl <;> exact nofun
  cases w with
  | constant _ _ | selfSwitch _ _ _ _ => cases h
  | switch _ _ | near _ | far _ | facingCode _ =>
      rw [meaning] at h
      exact .inl (wholeNumber_eq_error (map_eq_error h))
  | comparison number relation negative operand =>
      rcases Except.bind_eq_error_iff.1 h with hnumber | ⟨_, -, h⟩
      · exact .inl (wholeNumber_eq_error hnumber)
      · rcases Except.bind_eq_error_iff.1 h with hoperand | ⟨_, -, h⟩
        · exact .inl (decimalNumber_eq_error hoperand)
        · cases h
  | chance percent =>
      rw [meaning] at h
      exact .inl (decimalNumber_eq_error (map_eq_error h))
  | facingName name head opening letters closing =>
      rw [meaning] at h
      split at h
      · exact .inr (Except.error.inj h).symm
      · cases h

end Wording

/-! ### What texts are read as -/

/-- Two readers that accept one text are the same. -/
theorem ConditionForm.eq_of_isSome {f g : ConditionForm} (hf : (f.reader cs).isSome)
    (hg : (g.reader cs).isSome) : f = g := by
  obtain ⟨r, hr⟩ := Option.isSome_iff_exists.1 hf
  obtain ⟨r', hr'⟩ := Option.isSome_iff_exists.1 hg
  obtain ⟨w, rfl, hw, -⟩ := f.reader_iff.1 hr
  obtain ⟨w', rfl, hw', -⟩ := g.reader_iff.1 hr'
  exact Wording.form_unique hw hw'

namespace RouteCondition

variable {w : Wording} {text : String}

/-- What one reader makes of a text is found in any order of the readers. -/
theorem findSome?_forms {f : ConditionForm} {r : Except Fault RouteCondition}
    {l : List (List Char → Option (Except Fault RouteCondition))} (hl : l.Perm forms)
    (h : f.reader cs = some r) : l.findSome? (fun form => form cs) = some r := by
  refine findSome?_eq_some_of_unique (a := f.reader) ?_ h ?_
  · rw [hl.mem_iff, ConditionForm.forms_eq]
    exact List.mem_map_of_mem f.mem_all
  · intro form hform r' hr'
    rw [hl.mem_iff, ConditionForm.forms_eq] at hform
    obtain ⟨g, -, rfl⟩ := List.mem_map.1 hform
    have hsame : f = g :=
      ConditionForm.eq_of_isSome (Option.isSome_of_eq_some h) (Option.isSome_of_eq_some hr')
    subst hsame
    exact Option.some.inj (hr'.symm.trans h)

/-- **A text that spells a wording is read as what the wording means.** -/
theorem parse_of_spells (h : w.Spells text) : parse (some text) = w.meaning := by
  have hreader := (ConditionForm.reader_iff w.form).2 ⟨w, rfl, Wording.spells_iff.1 h, rfl⟩
  rw [parse, Option.getD_some, findSome?_forms (List.Perm.refl _) hreader]

/-- **Any other text is said to be misspelled.** -/
theorem parse_of_unwritten (h : ∀ w : Wording, ¬w.Spells text) :
    parse (some text) = .error (.invalidScript (.unrecognizedCondition (some text))) := by
  have hnone : forms.findSome? (fun form => form (trimChars text.toList)) = none := by
    rw [List.findSome?_eq_none_iff]
    intro form hform
    rw [ConditionForm.forms_eq] at hform
    obtain ⟨f, -, rfl⟩ := List.mem_map.1 hform
    rw [Option.eq_none_iff_forall_ne_some]
    intro r hr
    obtain ⟨w, -, hw, -⟩ := f.reader_iff.1 hr
    exact h w (Wording.spells_iff.2 hw)
  rw [parse, Option.getD_some, hnone]

/-- Two readers at different places accept no text both. -/
theorem forms_apart {i j : Nat} {form form' : List Char → Option (Except Fault RouteCondition)}
    (hi : forms[i]? = some form) (hj : forms[j]? = some form') (h : (form cs).isSome)
    (h' : (form' cs).isSome) : i = j := by
  rw [ConditionForm.forms_eq, List.getElem?_map, Option.map_eq_some_iff] at hi hj
  obtain ⟨f, hf, rfl⟩ := hi
  obtain ⟨g, hg, rfl⟩ := hj
  obtain rfl := ConditionForm.eq_of_isSome h h'
  obtain ⟨hlt, -⟩ := List.getElem?_eq_some_iff.1 hf
  exact (List.getElem?_inj hlt (by decide)).1 (hf.trans hg.symm)

/-- The order of the readers does not matter. -/
theorem findSome?_perm {l : List (List Char → Option (Except Fault RouteCondition))} (hl : l.Perm forms) :
    l.findSome? (fun form => form cs) = forms.findSome? fun form => form cs := by
  cases h : forms.findSome? fun form => form cs with
  | some r =>
      obtain ⟨form, hform, hr⟩ := List.exists_of_findSome?_eq_some h
      rw [ConditionForm.forms_eq] at hform
      obtain ⟨f, -, rfl⟩ := List.mem_map.1 hform
      exact findSome?_forms hl hr
  | none =>
      rw [List.findSome?_eq_none_iff] at h ⊢
      exact fun form hform => h form (hl.mem_iff.1 hform)

/-- A condition stands in a call without the blanks at its ends. -/
theorem parse_of_args (h : w.Spells text) : String.ofList (trimChars text.toList) ≠ "" ∧
    parse (some (String.ofList (trimChars text.toList))) = w.meaning := by
  have hwrites := Wording.spells_iff.1 h
  constructor
  · intro hnil
    have := congrArg String.toList hnil
    rw [String.toList_ofList] at this
    exact hwrites.ne_nil this
  · apply parse_of_spells
    rw [Wording.spells_iff, String.toList_ofList, trimChars_trimChars]
    exact hwrites

variable {c : RouteCondition} {line : String}

theorem parse_openIf (h : w.Spells text) (hc : w.meaning = .ok c)
    (hline : ScriptCall.Writes .openIf text.toList line) :
    RouteInstruction.parse (some line) = .ok (some (.openIf c)) := by
  obtain ⟨hne, hparse⟩ := parse_of_args h
  rw [RouteInstruction.parse_of_writes hline, RouteInstruction.ofCall]
  dsimp only
  rw [if_neg hne, hparse, hc]
  rfl

theorem parse_orElse (h : w.Spells text) (hc : w.meaning = .ok c)
    (hline : ScriptCall.Writes .orElse text.toList line) :
    RouteInstruction.parse (some line) = .ok (some (.orElse (some c))) := by
  obtain ⟨hne, hparse⟩ := parse_of_args h
  rw [RouteInstruction.parse_of_writes hline, RouteInstruction.ofCall]
  dsimp only
  rw [if_neg hne, hparse, hc]
  rfl

/-- **Conditions are read back.**  A text that spells a wording is read as the condition that the
wording denotes, by itself and from a call that opens or continues a chain; no other text is read as
a condition; and no two readers accept one text, so that any order of them comes to the same. -/
theorem reads_back :
    (∀ (w : Wording) (text : String), w.Spells text → ¬w.Faulty →
      ∃ c, w.meaning = .ok c ∧ parse (some text) = .ok c ∧
        ∀ line, (ScriptCall.Writes .openIf text.toList line →
            RouteInstruction.parse (some line) = .ok (some (.openIf c))) ∧
          (ScriptCall.Writes .orElse text.toList line →
            RouteInstruction.parse (some line) = .ok (some (.orElse (some c))))) ∧
      (∀ text c, parse (some text) = .ok c → ∃ w : Wording, w.Spells text ∧ w.meaning = .ok c) ∧
      (∀ (cs : List Char) (i j : Nat) (form form' : List Char → Option (Except Fault RouteCondition)),
        forms[i]? = some form → forms[j]? = some form' → (form cs).isSome → (form' cs).isSome → i = j) ∧
      ∀ (cs : List Char) (l : List (List Char → Option (Except Fault RouteCondition))), l.Perm forms →
        l.findSome? (fun form => form cs) = forms.findSome? fun form => form cs := by
  refine ⟨?_, ?_, fun _ _ _ _ _ => forms_apart, fun _ _ => findSome?_perm⟩
  · intro w text hspells hsound
    have hproper := (Wording.spells_iff.1 hspells).1
    obtain ⟨c, hc⟩ := (Wording.exists_meaning_iff hproper).2 hsound
    exact ⟨c, hc, (parse_of_spells hspells).trans hc,
      fun line => ⟨parse_openIf hspells hc, parse_orElse hspells hc⟩⟩
  · intro text c hc
    by_cases hwritten : ∃ w : Wording, w.Spells text
    · obtain ⟨w, hw⟩ := hwritten
      exact ⟨w, hw, (parse_of_spells hw).symm.trans hc⟩
    · rw [parse_of_unwritten (not_exists.1 hwritten)] at hc
      cases hc

/-- A comparison with a negative number, with blanks between its parts and around them. -/
theorem reads_back_comparison :
    let w := Wording.comparison ['3'] .atLeast true "2.5".toList
    let c := RouteCondition.variableIs 3 .atLeast (.finite (-5 / 2))
    w.Spells " v[ 3 ] >= -2.5" ∧ ¬w.Faulty ∧ w.meaning = .ok c ∧
      ScriptCall.Writes .orElse " v[ 3 ] >= -2.5".toList "this.rbElse ( v[ 3 ] >= -2.5);" ∧
      parse (some " v[ 3 ] >= -2.5") = .ok c ∧
      RouteInstruction.parse (some "this.rbElse ( v[ 3 ] >= -2.5);") = .ok (some (.orElse (some c))) ∧
      (∀ i form, forms[i]? = some form → (form "v[3]>=-2.5".toList).isSome → i = 3) ∧
      forms.reverse.findSome? (fun form => form "v[3]>=-2.5".toList) =
        forms.findSome? fun form => form "v[3]>=-2.5".toList := by
  intro w c
  obtain ⟨hread, -, hapart, horder⟩ := reads_back
  have hspells : w.Spells " v[ 3 ] >= -2.5" := by
    rw [Wording.spells_iff]
    refine ⟨⟨⟨by decide, by decide⟩,
      .inr ⟨['2'], ['5'], ⟨by decide, by decide⟩, ⟨by decide, by decide⟩, rfl⟩⟩, ?_⟩
    exact ⟨[' '], _, by decide, ⟨[' '], _, by decide, ⟨[' '], _, by decide, ⟨[' '], _, by decide, rfl, rfl⟩,
      rfl⟩, rfl⟩, rfl⟩
  have hsound : ¬w.Faulty := by
    change ¬maxDigits < 1
    decide
  have hmeaning : w.meaning = .ok c := by decide +kernel
  have hline : ScriptCall.Writes .orElse " v[ 3 ] >= -2.5".toList "this.rbElse ( v[ 3 ] >= -2.5);" :=
    ⟨[], "this.".toList, [' '], [';'], [], by decide, .inr rfl, by decide, .inr ⟨[], by decide, rfl⟩,
      by decide, rfl⟩
  obtain ⟨c', hc', hparse, hlines⟩ := hread w _ hspells hsound
  obtain rfl : c = c' := Except.ok.inj (hmeaning.symm.trans hc')
  exact ⟨hspells, hsound, hmeaning, hline, hparse, (hlines _).2 hline,
    fun i form hform hsome => hapart _ i 3 form _ hform rfl hsome (by decide +kernel),
    horder _ _ forms.reverse_perm⟩

end RouteCondition

end EventLayer
