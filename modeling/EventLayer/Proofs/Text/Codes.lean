/-
**Codes in a text.**

A code begins with `<`, ends with `>`, and has neither between them.  So no two codes overlap, and what
is put in the place of one code leaves every other code of the text as it is.

Main definitions:

* `TextCode.Kind` — what codes stand for, with the words that they are written with;
* `TextCode.IsCode`, `TextCode.Begins` — a code, and a text that begins with one;
* `TextCode.places` — the number of places in a text where a code begins;
* `TextCode.Renders` — a text with the codes of some kinds replaced, all at once.

Main results:

* `TextCode.length?_eq_some_iff` — **the code at the start of a text**;
* `TextCode.IsCode.unique` — at most one code begins at a place;
* `TextCode.Renders.exists_unique` — **there is one rendering of a text**;
* `TextCode.renders_substitute` — a pass over a text renders the codes of one kind.
-/
import EventLayer.Proofs.Text.Letters
import EventLayer.Proofs.Text.Scanning
import EventLayer.Treasure

set_option autoImplicit false
set_option relaxedAutoImplicit false

namespace EventLayer.TextCode

open Text

/-! ### Codes -/

/-- What a code stands for. -/
inductive Kind where
  | name
  | icon
  | amount
deriving Repr, DecidableEq

namespace Kind

/-- The words with which the codes of a kind are written. -/
def words : Kind → List String
  | name => ["name"]
  | icon => ["icon"]
  | amount => ["amount", "quantity"]

/-- All the kinds. -/
def all : List Kind := [name, icon, amount]

theorem mem_all (k : Kind) : k ∈ all := by
  cases k <;> decide

/-- What there is of all the kinds together. -/
def total (count : Kind → Nat) : Nat := count name + count icon + count amount

/-- Where there is more of one kind only, there is as much more in all. -/
theorem total_of_eq_add {k : Kind} {n : Nat} {count count' : Kind → Nat} (hself : count k = n + count' k)
    (hother : ∀ j, j ≠ k → count j = count' j) : total count = n + total count' := by
  unfold total
  cases k with
  | name =>
      rw [hself, hother icon (by decide), hother amount (by decide)]
      omega
  | icon =>
      rw [hself, hother name (by decide), hother amount (by decide)]
      omega
  | amount =>
      rw [hself, hother name (by decide), hother icon (by decide)]
      omega

end Kind

/-- The end of a code that is written with a word. -/
def ending (w : String) : List Char := (w ++ ">").toList

/-- A code of a kind: two words in any letter case, with a blank, an underscore, a hyphen or nothing
between them. -/
def IsCode (k : Kind) (code : List Char) : Prop :=
  ∃ w ∈ k.words, ∃ head sep tail, Alike "<treasure".toList head ∧
    (sep = [] ∨ ∃ c ∈ [' ', '_', '-'], sep = [c]) ∧ Alike (ending w) tail ∧ code = head ++ (sep ++ tail)

/-- A text begins with a code of a kind. -/
def Begins (k : Kind) (cs : List Char) : Prop := ∃ code rest, IsCode k code ∧ cs = code ++ rest

variable {k k' : Kind} {code code' cs rest rest' v : List Char}

theorem ending_plain : ∀ k ∈ Kind.all, ∀ w ∈ k.words, (ending w).all IsPlain = true := by
  decide

/-- The ends of codes tell their kinds, and none is the beginning of another. -/
theorem ending_apart : ∀ k ∈ Kind.all, ∀ w ∈ k.words, ∀ k' ∈ Kind.all, ∀ w' ∈ k'.words,
    ending w <+: ending w' → k = k' ∧ ending w = ending w' := by
  decide

theorem ending_first : ∀ k ∈ Kind.all, ∀ w ∈ k.words,
    ending w = (ending w).headD ' ' :: (ending w).tail ∧ IsPlain ((ending w).headD ' ') = true ∧
      [' ', '_', '-'].contains ((ending w).headD ' ') = false := by
  decide

/-- What separates the words of a code is not the first character of the second. -/
theorem clearOf_ending {w : String} (hw : w ∈ k.words) (h : Alike (ending w) cs) (rest : List Char) :
    ClearOf (fun c => [' ', '_', '-'].contains c) (cs ++ rest) := by
  obtain ⟨heq, hplain, hclear⟩ := ending_first k k.mem_all w hw
  rw [heq] at h
  refine h.clearOf hplain (fun c hc => ?_) hclear rest
  have hc : c = ' ' ∨ c = '_' ∨ c = '-' := by simpa using hc
  rcases hc with rfl | rfl | rfl <;> decide

/-- Where the ends of two codes stand at one place, they are one. -/
theorem ending_unique {w w' : String} {tail tail' : List Char} (hw : w ∈ k.words) (hw' : w' ∈ k'.words)
    (h : Alike (ending w) tail) (h' : Alike (ending w') tail') (heq : tail ++ rest = tail' ++ rest') :
    k = k' ∧ tail = tail' := by
  have hapart := ending_apart k k.mem_all w hw k' k'.mem_all w' hw'
  have hapart' := ending_apart k' k'.mem_all w' hw' k k.mem_all w hw
  obtain ⟨hending, htail⟩ := h.unique h' (ending_plain k k.mem_all w hw) (ending_plain k' k'.mem_all w' hw')
    (fun hle => (hapart hle).2) (fun hle => (hapart' hle).2) heq
  exact ⟨(hapart (hending ▸ List.prefix_refl _)).1, htail⟩

/-- At most one code begins at a place. -/
theorem IsCode.unique (h : IsCode k code) (h' : IsCode k' code') (heq : code ++ rest = code' ++ rest') :
    k = k' ∧ code = code' := by
  obtain ⟨w, hw, head, sep, tail, hhead, hsep, htail, rfl⟩ := h
  obtain ⟨w', hw', head', sep', tail', hhead', hsep', htail', rfl⟩ := h'
  simp only [List.append_assoc] at heq
  obtain ⟨rfl, hrest⟩ := List.append_inj heq (hhead.length_eq.symm.trans hhead'.length_eq)
  have hskip := skipOne_append hsep (clearOf_ending hw htail rest)
  have hskip' := skipOne_append hsep' (clearOf_ending hw' htail' rest')
  rw [hrest, hskip'] at hskip
  obtain ⟨hkind, rfl⟩ := ending_unique hw hw' htail htail' hskip.symm
  obtain rfl := List.append_cancel_right (hskip ▸ hrest)
  exact ⟨hkind, rfl⟩

/-- **The code at the start of a text.** -/
theorem length?_eq_some_iff {n : Nat} :
    length? k.words cs = some n ↔ ∃ code rest, IsCode k code ∧ cs = code ++ rest ∧ code.length = n := by
  constructor
  · intro h
    obtain ⟨⟨head, behind⟩, hhead, hfound⟩ := Option.bind_eq_some_iff.1 h
    obtain ⟨⟨tail, rest⟩, htail, hlength⟩ := Option.bind_eq_some_iff.1 hfound
    obtain ⟨w, hw, hword⟩ := List.exists_of_findSome?_eq_some htail
    obtain ⟨hfirst, rfl⟩ := afterCaseless?_eq_some_iff.1 hhead
    obtain ⟨hsecond, hrest⟩ := afterCaseless?_eq_some_iff.1 hword
    obtain ⟨sep, hsep, heq⟩ := exists_skipped [' ', '_', '-'] behind
    have hcode : head ++ behind = (head ++ (sep ++ tail)) ++ rest := by
      conv_lhs => rw [heq, hrest]
      simp only [List.append_assoc]
    refine ⟨_, rest, ⟨w, hw, head, sep, tail, hfirst, hsep, hsecond, rfl⟩, hcode, ?_⟩
    have hsum : (head ++ behind).length = (head ++ (sep ++ tail)).length + rest.length := by
      rw [hcode, List.length_append]
    exact (Nat.sub_eq_of_eq_add hsum).symm.trans (Option.some.inj hlength)
  · rintro ⟨_, rest, ⟨w, hw, head, sep, tail, hhead, hsep, htail, rfl⟩, rfl, rfl⟩
    have hskip := skipOne_append hsep (clearOf_ending hw htail rest)
    -- of the words of one kind, only one ends the code
    have hsecond : (k.words.findSome? fun w => afterCaseless? (w ++ ">").toList (tail ++ rest)) =
        some (tail, rest) := by
      refine findSome?_eq_some_of_unique hw (afterCaseless?_eq_some_iff.2 ⟨htail, rfl⟩) ?_
      rintro w' hw' ⟨tail', rest'⟩ hfound
      obtain ⟨htail', heq⟩ := afterCaseless?_eq_some_iff.1 hfound
      obtain ⟨-, rfl⟩ := ending_unique hw hw' htail htail' heq
      rw [List.append_cancel_left heq]
    rw [length?, List.append_assoc, List.append_assoc, afterCaseless?_eq_some_iff.2 ⟨hhead, rfl⟩]
    simp only [Option.bind_eq_bind, Option.bind_some, hskip, hsecond, pure]
    simp only [List.length_append]
    congr 1
    omega

theorem isSome_length?_iff : (length? k.words cs).isSome ↔ Begins k cs := by
  rw [Option.isSome_iff_exists]
  constructor
  · rintro ⟨n, hn⟩
    obtain ⟨code, rest, hcode, rfl, -⟩ := length?_eq_some_iff.1 hn
    exact ⟨code, rest, hcode, rfl⟩
  · rintro ⟨code, rest, hcode, rfl⟩
    exact ⟨_, length?_eq_some_iff.2 ⟨code, rest, hcode, rfl, rfl⟩⟩

/-! ### The character that opens a code -/

theorem toLower_ascii : ∀ n < 128, (Char.ofNat n).toLower = '<' → n = '<'.toNat := by
  decide

theorem eq_of_plainLetter {c : Char} (h : plainLetter c = '<') : c = '<' := by
  rw [plainLetter] at h
  split at h
  · cases h
  · split at h
    · cases h
    · split at h
      · cases h
      · have hc : c.toNat < 128 := toNat_lt_of_toLower (h ▸ by decide)
        refine Char.toNat_inj.1 (toLower_ascii c.toNat hc ?_)
        rwa [Char.ofNat_toNat]

theorem ending_no_opening : ∀ k ∈ Kind.all, ∀ w ∈ k.words, '<' ∉ ending w := by
  decide

/-- What fits a word without `<` has none. -/
theorem no_opening_of_alike {word : List Char} (h : Alike word cs) (hplain : word.all IsPlain = true)
    (hword : '<' ∉ word) : '<' ∉ cs := by
  intro hin
  refine hword ((alike_iff hplain).1 h ▸ ?_)
  exact List.mem_map.2 ⟨'<', hin, by decide⟩

/-- **A code begins with `<`, and has no other.** -/
theorem IsCode.exists_body (h : IsCode k code) : ∃ body, code = '<' :: body ∧ '<' ∉ body := by
  obtain ⟨w, hw, head, sep, tail, hhead, hsep, htail, rfl⟩ := h
  cases hhead with
  | @cons _ c _ cs hsame hrest =>
      obtain rfl : c = '<' := eq_of_plainLetter ((sameLetter_iff (by decide)).1 hsame)
      refine ⟨cs ++ (sep ++ tail), rfl, ?_⟩
      simp only [List.mem_append, not_or]
      refine ⟨no_opening_of_alike hrest (by decide) (by decide), ?_,
        no_opening_of_alike htail (ending_plain k k.mem_all w hw) (ending_no_opening k k.mem_all w hw)⟩
      rcases hsep with rfl | ⟨c, hc, rfl⟩
      · exact nofun
      · have hne : ∀ c ∈ [' ', '_', '-'], '<' ∉ [c] := by decide
        exact hne c hc

theorem not_begins_of_ne {c : Char} (h : c ≠ '<') : ¬Begins k (c :: rest) := by
  rintro ⟨code, rest', hcode, heq⟩
  obtain ⟨body, rfl, -⟩ := hcode.exists_body
  exact h (List.cons.inj heq).1

/-! ### Places -/

/-- The number of places in a text where a code of a kind begins. -/
def places (k : Kind) : List Char → Nat
  | [] => 0
  | c :: cs => (if (length? k.words (c :: cs)).isSome then 1 else 0) + places k cs

theorem places_of_begins {c : Char} (h : Begins k (c :: cs)) : places k (c :: cs) = 1 + places k cs := by
  rw [places, if_pos (isSome_length?_iff.2 h)]

theorem places_of_not_begins {c : Char} (h : ¬Begins k (c :: cs)) : places k (c :: cs) = places k cs := by
  rw [places, if_neg (fun hsome => h (isSome_length?_iff.1 hsome)), Nat.zero_add]

theorem places_le_cons (k : Kind) (c : Char) (cs : List Char) : places k cs ≤ places k (c :: cs) := by
  rw [places]
  exact Nat.le_add_left _ _

theorem places_le_append (k : Kind) (v cs : List Char) : places k cs ≤ places k (v ++ cs) := by
  induction v with
  | nil => exact Nat.le_refl _
  | cons c v ih => exact ih.trans (places_le_cons k c (v ++ cs))

/-- No code begins where there is no `<`. -/
theorem places_append (h : '<' ∉ v) : places k (v ++ cs) = places k cs := by
  induction v with
  | nil => rfl
  | cons c v ih =>
      rw [List.mem_cons, not_or] at h
      rw [List.cons_append, places_of_not_begins (not_begins_of_ne (Ne.symm h.1)), ih h.2]

/-- A code is one place of its kind and none of another. -/
theorem places_code (h : IsCode k code) :
    places k' (code ++ rest) = (if k' = k then 1 else 0) + places k' rest := by
  obtain ⟨body, rfl, hbody⟩ := h.exists_body
  split
  · next heq =>
      subst heq
      have hbegins : Begins k' ('<' :: (body ++ rest)) := ⟨_, rest, h, rfl⟩
      rw [List.cons_append, places_of_begins hbegins, places_append hbody]
  · next hne =>
      have hnot : ¬Begins k' ('<' :: (body ++ rest)) := by
        rintro ⟨code', rest', hcode', heq⟩
        exact hne (hcode'.unique h heq.symm).1
      rw [List.cons_append, places_of_not_begins hnot, places_append hbody, Nat.zero_add]

/-! ### Renderings -/

/-- No code of a kind that is to be replaced begins here. -/
def Free (put : Kind → Option (List Char)) (cs : List Char) : Prop :=
  ∀ k v, put k = some v → ¬Begins k cs

/-- A text with the codes of the kinds that are to be replaced so replaced, all at once. -/
inductive Renders (put : Kind → Option (List Char)) : List Char → List Char → Prop
  | nil : Renders put [] []
  | code {k : Kind} {v code rest out : List Char} (hput : put k = some v) (hcode : IsCode k code)
      (hrest : Renders put rest out) : Renders put (code ++ rest) (v ++ out)
  | char {c : Char} {rest out : List Char} (hfree : Free put (c :: rest)) (hrest : Renders put rest out) :
      Renders put (c :: rest) (c :: out)

variable {put put' : Kind → Option (List Char)} {u out : List Char}

/-- The code at the start of a text is replaced. -/
theorem Renders.of_code (h : Renders put (code ++ rest) u) (hput : put k = some v) (hcode : IsCode k code) :
    ∃ out, u = v ++ out ∧ Renders put rest out := by
  generalize htext : code ++ rest = text at h
  cases h with
  | nil =>
      obtain ⟨body, rfl, -⟩ := hcode.exists_body
      cases htext
  | code hput' hcode' hrest =>
      obtain ⟨rfl, rfl⟩ := hcode.unique hcode' htext
      obtain rfl := Option.some.inj (hput.symm.trans hput')
      obtain rfl := List.append_cancel_left htext
      exact ⟨_, rfl, hrest⟩
  | char hfree _ => exact absurd ⟨code, rest, hcode, htext.symm⟩ (hfree k v hput)

/-- A character at which no code to be replaced begins is kept. -/
theorem Renders.of_char {c : Char} (h : Renders put (c :: rest) u) (hfree : Free put (c :: rest)) :
    ∃ out, u = c :: out ∧ Renders put rest out := by
  generalize htext : c :: rest = text at h
  cases h with
  | nil => cases htext
  | code hput hcode _ => exact absurd ⟨_, _, hcode, htext⟩ (hfree _ _ hput)
  | char _ hrest =>
      cases htext
      exact ⟨_, rfl, hrest⟩

/-- What has no `<` is kept. -/
theorem Renders.of_append (h : Renders put (v ++ rest) u) (hv : '<' ∉ v) :
    ∃ out, u = v ++ out ∧ Renders put rest out := by
  induction v generalizing u with
  | nil => exact ⟨u, rfl, h⟩
  | cons c v ih =>
      rw [List.mem_cons, not_or] at hv
      obtain ⟨out, rfl, hrest⟩ := h.of_char fun _ _ _ => not_begins_of_ne (Ne.symm hv.1)
      obtain ⟨out', rfl, hrest'⟩ := ih hrest hv.2
      exact ⟨out', rfl, hrest'⟩

/-- A code that is not to be replaced is kept. -/
theorem Renders.of_other_code (h : Renders put (code ++ rest) u) (hput : put k = none)
    (hcode : IsCode k code) : ∃ out, u = code ++ out ∧ Renders put rest out := by
  have hfree : Free put (code ++ rest) := by
    rintro k' v hput' ⟨code', rest', hcode', heq⟩
    obtain ⟨rfl, -⟩ := hcode'.unique hcode heq.symm
    rw [hput] at hput'
    cases hput'
  obtain ⟨body, rfl, hbody⟩ := hcode.exists_body
  obtain ⟨out, rfl, hrest⟩ := h.of_char hfree
  obtain ⟨out', rfl, hrest'⟩ := hrest.of_append hbody
  exact ⟨out', rfl, hrest'⟩

theorem Renders.unique (h : Renders put cs out) (h' : Renders put cs u) : u = out := by
  induction h generalizing u with
  | nil =>
      generalize htext : ([] : List Char) = text at h'
      cases h' with
      | nil => rfl
      | code _ hcode _ =>
          obtain ⟨body, rfl, -⟩ := hcode.exists_body
          cases htext
      | char _ _ => cases htext
  | code hput hcode _ ih =>
      obtain ⟨out', rfl, hrest⟩ := h'.of_code hput hcode
      rw [ih hrest]
  | char hfree _ ih =>
      obtain ⟨out', rfl, hrest⟩ := h'.of_char hfree
      rw [ih hrest]

/-- **There is one rendering of a text.** -/
theorem Renders.exists_unique (put : Kind → Option (List Char)) (cs : List Char) :
    ∃ out, Renders put cs out ∧ ∀ u, Renders put cs u → u = out := by
  suffices hsome : ∃ out, Renders put cs out by
    obtain ⟨out, h⟩ := hsome
    exact ⟨out, h, fun u hu => h.unique hu⟩
  -- what follows a code, or a character, is shorter
  induction hlength : cs.length using Nat.strong_induction_on generalizing cs with
  | _ n ih =>
      cases cs with
      | nil => exact ⟨[], .nil⟩
      | cons c cs =>
          by_cases hfree : Free put (c :: cs)
          · obtain ⟨out, h⟩ := ih cs.length (hlength ▸ Nat.lt_succ_self _) cs rfl
            exact ⟨_, .char hfree h⟩
          · simp only [Free, not_forall, not_not] at hfree
            obtain ⟨k, v, hput, code, rest, hcode, heq⟩ := hfree
            obtain ⟨body, rfl, -⟩ := hcode.exists_body
            have hshort : rest.length < n := by
              rw [← hlength, heq, List.length_append, List.length_cons]
              omega
            obtain ⟨out, h⟩ := ih rest.length hshort rest rfl
            rw [heq]
            exact ⟨_, .code hput hcode h⟩

/-! ### Passes -/

/-- The codes of one kind are to be replaced. -/
def only (k : Kind) (v : List Char) : Kind → Option (List Char) := fun k' => if k' = k then some v else none

@[simp] theorem only_self (k : Kind) (v : List Char) : only k v k = some v := if_pos rfl

theorem free_only : Free (only k v) cs ↔ ¬Begins k cs := by
  constructor
  · exact fun h => h k v (only_self k v)
  · intro h k' v' hput
    obtain rfl : k' = k := by
      by_contra hne
      rw [only, if_neg hne] at hput
      cases hput
    exact h

/-- What belongs to an occurrence that was replaced is passed over. -/
theorem substituteFrom_append (words : List String) (v skipped rest : List Char) :
    substituteFrom words v skipped.length (skipped ++ rest) = substituteFrom words v 0 rest := by
  induction skipped with
  | nil => rfl
  | cons c skipped ih => rw [List.length_cons, List.cons_append, substituteFrom, ih]

/-- **A pass over a text renders the codes of one kind.** -/
theorem renders_substituteFrom (k : Kind) (v cs : List Char) :
    Renders (only k v) cs (substituteFrom k.words v 0 cs) := by
  -- by the length of the text, for behind a code the pass goes on at its end
  induction hlength : cs.length using Nat.strong_induction_on generalizing cs with
  | _ n ih =>
      cases cs with
      | nil => exact .nil
      | cons c cs =>
          rw [substituteFrom]
          cases hfound : length? k.words (c :: cs) with
          | none =>
              have hnot : ¬Begins k (c :: cs) := fun hbegins => by
                rw [← isSome_length?_iff, hfound] at hbegins
                cases hbegins
              exact .char (free_only.2 hnot) (ih cs.length (hlength ▸ Nat.lt_succ_self _) cs rfl)
          | some long =>
              obtain ⟨code, rest, hcode, heq, rfl⟩ := length?_eq_some_iff.1 hfound
              obtain ⟨body, rfl, -⟩ := hcode.exists_body
              have hcs : c = '<' ∧ cs = body ++ rest := List.cons.inj heq
              obtain ⟨rfl, rfl⟩ := hcs
              have hshort : rest.length < n := by
                rw [← hlength, List.length_cons, List.length_append]
                omega
              dsimp only
              rw [List.length_cons, Nat.add_sub_cancel, substituteFrom_append]
              exact .code (only_self k v) hcode (ih rest.length hshort rest rfl)

/-- A text with the codes of one kind replaced. -/
theorem renders_substitute (k : Kind) (v s : String) :
    Renders (only k v.toList) s.toList (substitute k.words v s).toList := by
  rw [substitute, String.toList_ofList]
  exact renders_substituteFrom k v.toList s.toList

end EventLayer.TextCode
