/-
**Conditions that balk.**

A text that fits none of the forms of a condition is misspelled, and the reader says so.  Some texts
fit a form and still denote nothing: a number of too many digits, or the name of a direction written
with a letter that only counts as one of the name's letters, such as a dotless `ı`.  There the reader
fails in another way.  No text of ASCII characters does so, unless it is longer than any number that
can be read.

Main definitions:

* `RouteCondition.Balks` — a text on which the reader of conditions fails in another way than by saying
  that it is misspelled;
* `RouteCondition.Plain` — ASCII characters, few enough for a number.

Main results:

* `Text.toLower_of_sameLetter` — ASCII letters that are the same up to letter case;
* `RouteCondition.not_balks` — **no condition of few ASCII characters balks**.
-/
import Mathlib.Data.List.Forall2
import Mathlib.Order.Nat
import EventLayer.Route.Condition

set_option autoImplicit false
set_option relaxedAutoImplicit false

namespace EventLayer

/-- A fault that does not say that a line is misspelled. -/
def Fault.Foreign (e : Fault) : Prop := ∀ reason, e ≠ .invalidScript reason

/-- A condition text with which no route can be read: it fits a form, and still denotes nothing. -/
def RouteCondition.Balks (text : String) : Prop :=
  ∃ e : Fault, RouteCondition.parse (some text) = .error e ∧ e.Foreign

/-! ### Scanning -/

namespace Text

theorem suffix_of_after? {word cs rest : List Char} (h : after? word cs = some rest) :
    rest <:+ cs := by
  induction word generalizing cs with
  | nil =>
      cases h
      exact List.suffix_refl _
  | cons w ws ih =>
      cases cs with
      | nil => cases h
      | cons c cs =>
          rw [after?] at h
          split at h
          · exact (ih h).trans (List.suffix_cons c cs)
          · cases h

/-- What fits a word up to letter case stands before what follows it. -/
theorem afterCaseless?_append {word cs written rest : List Char}
    (h : afterCaseless? word cs = some (written, rest)) :
    written ++ rest = cs ∧ List.Forall₂ (fun w c => sameLetter w c = true) word written := by
  induction word generalizing cs written with
  | nil =>
      cases h
      exact ⟨rfl, .nil⟩
  | cons w ws ih =>
      cases cs with
      | nil => cases h
      | cons c cs =>
          rw [afterCaseless?] at h
          split at h
          · next hsame =>
              obtain ⟨⟨more, rest'⟩, hmore, heq⟩ := Option.map_eq_some_iff.1 h
              cases heq
              obtain ⟨happend, hall⟩ := ih hmore
              exact ⟨by rw [List.cons_append, happend], .cons hsame hall⟩
          · cases h

theorem suffix_skipOne (chars cs : List Char) : skipOne chars cs <:+ cs := by
  cases cs with
  | nil => exact List.suffix_refl _
  | cons c cs =>
      rw [skipOne]
      split
      · exact List.suffix_cons c cs
      · exact List.suffix_refl _

theorem suffix_trimStartChars (cs : List Char) : trimStartChars cs <:+ cs :=
  List.dropWhile_suffix _

theorem sublist_trimChars (cs : List Char) : (trimChars cs).Sublist cs := by
  have hend : (trimEndChars (trimStartChars cs)).Sublist (trimStartChars cs) := by
    have h := (List.dropWhile_suffix (l := (trimStartChars cs).reverse) isBlank).sublist.reverse
    rwa [List.reverse_reverse] at h
  exact hend.trans (suffix_trimStartChars cs).sublist

/-- Not too many digits write a number. -/
theorem exists_digitsValue {ds : List Char} (h : ds.length ≤ maxDigits) :
    ∃ n, digitsValue ds = .ok n := by
  have hlength : ¬maxDigits < (ds.filterMap digitValue?).length := by
    have := List.length_filterMap_le digitValue? ds
    omega
  rw [digitsValue, wholeOfDigits?, if_neg hlength]
  exact ⟨_, rfl⟩

theorem length_digits? {cs ds rest : List Char} (h : digits? cs = some (ds, rest)) :
    ds.length ≤ cs.length := by
  rw [digits?] at h
  split at h
  · cases h
  · cases h
    exact (List.takeWhile_sublist _).length_le

/-- The lower-case forms of the ASCII characters. -/
theorem lowerChar_ascii : ∀ n < 128, lowerChar (Char.ofNat n) = (Char.ofNat n).toLower ∧
    (Char.ofNat n).toLower.toNat < 128 := by
  decide +kernel

/-- No two ASCII letters are variants of one another. -/
theorem letterVariants_ascii : ∀ g ∈ letterVariants, ∀ a ∈ g, ∀ b ∈ g, a < 128 → b < 128 → a = b := by
  decide

/-- Two ASCII characters are the same up to letter case if their lower-case forms are. -/
theorem toLower_of_sameLetter {w c : Char} (hw : w.toNat < 128) (hc : c.toNat < 128)
    (h : sameLetter w c = true) : c.toLower = w.toLower := by
  obtain ⟨hlower, hlt⟩ := lowerChar_ascii w.toNat hw
  obtain ⟨hlower', hlt'⟩ := lowerChar_ascii c.toNat hc
  rw [Char.ofNat_toNat] at hlower hlt hlower' hlt'
  rw [sameLetter, hlower, hlower', sameLower, Bool.or_eq_true, beq_iff_eq, List.any_eq_true] at h
  rcases h with h | ⟨g, hg, h⟩
  · exact h.symm
  · rw [Bool.and_eq_true, List.contains_iff_mem, List.contains_iff_mem] at h
    have := letterVariants_ascii g hg _ h.1 _ h.2 hlt hlt'
    exact Char.toNat_inj.1 this.symm

end Text

/-! ### Conditions -/

namespace RouteCondition

open Text

/-- Characters of ASCII, few enough for a number. -/
structure Plain (cs : List Char) : Prop where
  ascii : ∀ c ∈ cs, c.toNat < 128
  few : cs.length ≤ maxDigits

theorem Plain.sublist {cs cs' : List Char} (h : Plain cs) (hs : cs'.Sublist cs) : Plain cs' :=
  ⟨fun c hc => h.ascii c (hs.subset hc), hs.length_le.trans h.few⟩

theorem Plain.suffix {cs cs' : List Char} (h : Plain cs) (hs : cs' <:+ cs) : Plain cs' :=
  h.sublist hs.sublist

theorem Plain.after {cs rest word : List Char} (h : Plain cs) (hr : after? word cs = some rest) :
    Plain rest := h.suffix (suffix_of_after? hr)

theorem Plain.trimStart {cs : List Char} (h : Plain cs) : Plain (trimStartChars cs) :=
  h.suffix (suffix_trimStartChars cs)

theorem Plain.polarity {cs : List Char} (h : Plain cs) : Plain (polarity cs).2 := by
  unfold RouteCondition.polarity
  split
  · exact (h.suffix (List.suffix_cons _ _)).trimStart
  · exact h.trimStart

variable {cs : List Char} {r : Except Fault RouteCondition}

theorem exists_bracketed {word : String} {closing : Char} {r : Except Fault Nat} (h : Plain cs)
    (hr : bracketed? word closing cs = some r) : ∃ n, r = .ok n := by
  obtain ⟨rest, hrest, hr⟩ := Option.bind_eq_some_iff.1 hr
  obtain ⟨⟨ds, rest'⟩, hds, hr⟩ := Option.bind_eq_some_iff.1 hr
  dsimp only at hr
  split at hr
  · cases hr
    exact exists_digitsValue ((length_digits? hds).trans (h.after hrest).trimStart.few)
  · cases hr

theorem exists_map_bracketed {word : String} {closing : Char} (h : Plain cs)
    {f : Nat → RouteCondition}
    (hr : ((bracketed? word closing cs).map fun found => found.map f) = some r) :
    ∃ c, r = .ok c := by
  obtain ⟨found, hfound, rfl⟩ := Option.map_eq_some_iff.1 hr
  obtain ⟨n, rfl⟩ := exists_bracketed h hfound
  exact ⟨f n, rfl⟩

theorem exists_comparison (h : Plain cs) (hr : comparison? cs = some r) : ∃ c, r = .ok c := by
  obtain ⟨rest, hrest, hr⟩ := Option.bind_eq_some_iff.1 hr
  obtain ⟨⟨ds, rest'⟩, hds, hr⟩ := Option.bind_eq_some_iff.1 hr
  obtain ⟨n, hn⟩ := exists_digitsValue ((length_digits? hds).trans (h.after hrest).trimStart.few)
  obtain ⟨rest₂, -, hr⟩ := Option.bind_eq_some_iff.1 hr
  obtain ⟨⟨relation, rest₃⟩, -, hr⟩ := Option.bind_eq_some_iff.1 hr
  obtain ⟨⟨operand, rest₄⟩, -, hr⟩ := Option.bind_eq_some_iff.1 hr
  dsimp only at hr
  split at hr
  · cases hr
    exact ⟨_, by rw [hn]; rfl⟩
  · cases hr

/-- An ASCII text that fits a word of ASCII letters has it as its lower-case form. -/
theorem map_toLower_of_fits {word written : List Char} (hw : ∀ w ∈ word, w.toNat < 128)
    (hc : ∀ c ∈ written, c.toNat < 128)
    (h : List.Forall₂ (fun w c => sameLetter w c = true) word written) :
    written.map Char.toLower = word.map Char.toLower := by
  induction h with
  | nil => rfl
  | cons hsame _ ih =>
      rw [List.map_cons, List.map_cons,
        toLower_of_sameLetter (hw _ (by simp)) (hc _ (by simp)) hsame,
        ih (fun w hm => hw w (by simp [hm])) fun c hm => hc c (by simp [hm])]

theorem ascii_of_all {cs : List Char} (h : (cs.all fun c => c.toNat < 128) = true) :
    ∀ c ∈ cs, c.toNat < 128 := fun c hc => of_decide_eq_true (List.all_eq_true.1 h c hc)

theorem names_ascii : ∀ name ∈ Direction.names, (name.1.toList.all fun c => c.toNat < 128) = true ∧
    name.1.toList.map Char.toLower = name.1.toList ∧
    Direction.names.lookup name.1 = some name.2 := by
  decide

theorem exists_facingNamed (h : Plain cs) (hr : facingNamed? cs = some r) : ∃ c, r = .ok c := by
  obtain ⟨written, hwritten, rfl⟩ := Option.map_eq_some_iff.1 hr
  obtain ⟨⟨_, rest⟩, hrest, hwritten⟩ := Option.bind_eq_some_iff.1 hwritten
  obtain ⟨name, hname, hwritten⟩ := List.exists_of_findSome?_eq_some hwritten
  obtain ⟨⟨letters, rest'⟩, hfits, hwritten⟩ := Option.bind_eq_some_iff.1 hwritten
  dsimp only at hwritten
  split at hwritten
  · cases hwritten
    obtain ⟨happend, hall⟩ := afterCaseless?_append hfits
    have hplain : Plain letters := by
      have hbehind : Plain rest := h.suffix ⟨_, (afterCaseless?_append hrest).1⟩
      have hskip := hbehind.trimStart.suffix (suffix_skipOne ['\'', '"'] _)
      exact hskip.sublist (happend ▸ List.sublist_append_left letters rest')
    obtain ⟨hascii, hlower, hlookup⟩ := names_ascii name hname
    have hword : lowerAscii (String.ofList letters) = name.1 := by
      rw [← String.toList_inj, lowerAscii, String.toList_map, String.toList_ofList,
        map_toLower_of_fits (ascii_of_all hascii) hplain.ascii hall, hlower]
    rw [hword, hlookup]
    exact ⟨_, rfl⟩
  · cases hwritten

/-- **No condition of few ASCII characters balks.** -/
theorem not_balks {text : String} (h : Plain text.toList) : ¬Balks text := by
  rintro ⟨e, he, hforeign⟩
  rw [parse, show (some text : Option String).getD "" = text from rfl] at he
  have hplain : Plain (trimChars text.toList) := h.sublist (sublist_trimChars _)
  generalize trimChars text.toList = cs at he hplain
  split at he
  · next r hr =>
      subst he
      obtain ⟨form, hform, hr⟩ := List.exists_of_findSome?_eq_some hr
      have hok : ∃ c, (.error e : Except Fault RouteCondition) = .ok c := by
        simp only [forms, List.mem_cons, List.not_mem_nil, or_false] at hform
        rcases hform with rfl | rfl | rfl | rfl | rfl | rfl | rfl | rfl | rfl
        · obtain ⟨c, -, hc⟩ := Option.map_eq_some_iff.1 hr
          exact ⟨c, hc.symm⟩
        · exact exists_map_bracketed hplain.polarity hr
        · obtain ⟨c, -, hc⟩ := Option.map_eq_some_iff.1 hr
          exact ⟨c, hc.symm⟩
        · exact exists_comparison hplain hr
        · exact exists_map_bracketed hplain hr
        · exact exists_map_bracketed hplain hr
        · obtain ⟨c, -, hc⟩ := Option.map_eq_some_iff.1 hr
          exact ⟨c, hc.symm⟩
        · obtain ⟨c, -, hc⟩ := Option.map_eq_some_iff.1 hr
          exact ⟨c, hc.symm⟩
        · exact exists_facingNamed hplain hr
      obtain ⟨c, hc⟩ := hok
      cases hc
  · cases he
    exact hforeign _ rfl

end RouteCondition

end EventLayer
