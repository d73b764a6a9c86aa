/-
**One pass after another.**

The codes of a treasure are put in by three passes: names, then icons, then amounts.  A later pass
also reads what an earlier one has put in.  So the passes come to the text with all its codes replaced
at once exactly if no code is formed by what was put in, which shows in the number of codes that a
pass meets.

Main definitions:

* `Treasure.nameText?` — the name of a treasure as it is put in;
* `Treasure.values` — what is put in for the codes of each kind.

Main results:

* `TextCode.Renders.places_le` — no pass takes away a code of another kind;
* `TextCode.Renders.merge` — **two renderings one after the other are one**, where the first forms no
  codes for the second;
* `TextCode.Renders.count_opening` — the number of `<` in a rendering;
* `Treasure.converts_once_iff` — **which texts are converted as if all at once**.
-/
import EventLayer.Proofs.Results
import EventLayer.Proofs.Saving.Numeral
import EventLayer.Proofs.Text.Codes

set_option autoImplicit false
set_option relaxedAutoImplicit false

namespace EventLayer

namespace TextCode

open Text

variable {k : Kind} {put put' : Kind → Option (List Char)} {t u w v cs out : List Char}

/-! ### Codes that are kept -/

/-- **No rendering takes away a code of a kind that it does not replace.** -/
theorem Renders.places_le (h : Renders put t u) (hk : put k = none) : places k t ≤ places k u := by
  induction h with
  | nil => exact Nat.le_refl _
  | @code k' v code rest out hput hcode hrest ih =>
      have hne : k ≠ k' := by
        rintro rfl
        rw [hk] at hput
        cases hput
      rw [places_code hcode, if_neg hne, Nat.zero_add]
      exact ih.trans (places_le_append k v out)
  | @char c rest out hfree hrest ih =>
      by_cases hbegins : Begins k (c :: rest)
      · obtain ⟨code, rest', hcode, heq⟩ := hbegins
        have hall : Renders put (c :: rest) (c :: out) := .char hfree hrest
        obtain ⟨out', hout, -⟩ := (heq ▸ hall).of_other_code hk hcode
        have hkept : Begins k (c :: out) := ⟨code, out', hcode, hout⟩
        rw [places_of_begins ⟨code, rest', hcode, heq⟩, places_of_begins hkept]
        omega
      · rw [places_of_not_begins hbegins]
        exact ih.trans (places_le_cons k c out)

/-- Where a text has as many codes without its beginning, its beginning is kept. -/
theorem Renders.append (h : Renders (only k v) cs out) (hplaces : places k (w ++ cs) = places k cs) :
    Renders (only k v) (w ++ cs) (w ++ out) := by
  induction w with
  | nil => exact h
  | cons c w ih =>
      have hle := places_le_append k w cs
      have hle' := places_le_cons k c (w ++ cs)
      rw [List.cons_append] at hplaces ⊢
      have hnot : ¬Begins k (c :: (w ++ cs)) := by
        intro hbegins
        rw [places_of_begins hbegins] at hplaces
        omega
      exact .char (free_only.2 hnot) (ih (by omega))

/-- **Two renderings one after the other are one**, if the first forms no codes of the kind that the
second replaces. -/
theorem Renders.merge (hput' : put' = fun j => if j = k then some v else put j) (hk : put k = none)
    (hall : Renders put' t w) (h : Renders put t u) (hplaces : places k u = places k t) :
    Renders (only k v) u w := by
  have hself : put' k = some v := by
    rw [hput']
    exact if_pos rfl
  have hother : ∀ j, j ≠ k → put' j = put j := by
    intro j hj
    rw [hput']
    exact if_neg hj
  induction hall generalizing u with
  | nil =>
      obtain rfl := h.unique .nil
      exact .nil
  | @code j x code rest out hput hcode hrest ih =>
      rw [places_code hcode] at hplaces
      by_cases hj : j = k
      · -- a code of the second kind is kept by the first rendering
        subst hj
        obtain rfl := Option.some.inj (hself.symm.trans hput)
        obtain ⟨kept, rfl, hkept⟩ := h.of_other_code hk hcode
        rw [places_code hcode] at hplaces
        exact .code (only_self _ _) hcode (ih hkept (by omega))
      · -- a code of the first rendering is replaced, and nothing in its place is a code
        obtain ⟨kept, rfl, hkept⟩ := h.of_code ((hother j hj).symm.trans hput) hcode
        rw [if_neg (Ne.symm hj), Nat.zero_add] at hplaces
        have hle := hkept.places_le hk
        have hle' := places_le_append k x kept
        exact (ih hkept (by omega)).append (by omega)
  | @char c rest out hfree hrest ih =>
      have hfree' : Free put (c :: rest) := by
        intro j x hput
        refine hfree j x ?_
        rw [hother j ?_, hput]
        rintro rfl
        rw [hk] at hput
        cases hput
      obtain ⟨kept, rfl, hkept⟩ := h.of_char hfree'
      rw [places_of_not_begins (hfree k v hself)] at hplaces
      have hle := hkept.places_le hk
      have hle' := places_le_cons k c kept
      have hnot : ¬Begins k (c :: kept) := by
        intro hbegins
        rw [places_of_begins hbegins] at hplaces
        omega
      exact .char (free_only.2 hnot) (ih hkept (by omega))

/-! ### The characters that open codes -/

/-- The number of codes in a text that a rendering replaces. -/
def replaced (put : Kind → Option (List Char)) (t : List Char) : Nat :=
  Kind.total fun k => if (put k).isSome then places k t else 0

/-- The number of `<` that a rendering puts into a text. -/
def opened (put : Kind → Option (List Char)) (t : List Char) : Nat :=
  Kind.total fun k => places k t * ((put k).getD []).count '<'

theorem replaced_code (hput : put k = some v) (hcode : IsCode k cs) :
    replaced put (cs ++ t) = 1 + replaced put t := by
  refine Kind.total_of_eq_add (k := k) ?_ fun j hj => ?_
  · rw [hput, Option.isSome_some, if_pos rfl, if_pos rfl, places_code hcode, if_pos rfl]
  · rw [places_code hcode, if_neg hj, Nat.zero_add]

theorem opened_code (hput : put k = some v) (hcode : IsCode k cs) :
    opened put (cs ++ t) = v.count '<' + opened put t := by
  refine Kind.total_of_eq_add (k := k) ?_ fun j hj => ?_
  · rw [hput, Option.getD_some, places_code hcode, if_pos rfl, Nat.add_mul, Nat.one_mul]
  · rw [places_code hcode, if_neg hj, Nat.zero_add]

/-- **The number of `<` in a rendering**: each code replaced has one. -/
theorem Renders.count_opening (h : Renders put t u) :
    u.count '<' + replaced put t = t.count '<' + opened put t := by
  induction h with
  | nil => simp [replaced, opened, Kind.total, places]
  | @code k v code rest out hput hcode hrest ih =>
      have hone : code.count '<' = 1 := by
        obtain ⟨body, rfl, hbody⟩ := hcode.exists_body
        rw [List.count_cons_self, List.count_eq_zero.2 hbody]
      rw [List.count_append, List.count_append, replaced_code hput hcode, opened_code hput hcode, hone]
      omega
  | @char c rest out hfree hrest ih =>
      have hplaces : ∀ j x, put j = some x → places j (c :: rest) = places j rest :=
        fun j x hput => places_of_not_begins (hfree j x hput)
      have hreplaced : replaced put (c :: rest) = replaced put rest := by
        refine congrArg Kind.total (funext fun j => ?_)
        cases hput : put j with
        | none => rfl
        | some x => rw [hplaces j x hput]
      have hopened : opened put (c :: rest) = opened put rest := by
        refine congrArg Kind.total (funext fun j => ?_)
        cases hput : put j with
        | none => rfl
        | some x => rw [hplaces j x hput]
      rw [hreplaced, hopened, List.count_cons, List.count_cons]
      omega

theorem replaced_only (k : Kind) (v t : List Char) : replaced (only k v) t = places k t := by
  have hsum : replaced (only k v) t = places k t + Kind.total fun _ => 0 := by
    refine Kind.total_of_eq_add (k := k) ?_ fun j hj => ?_
    · rw [only_self, Option.isSome_some, if_pos rfl, Nat.add_zero]
    · rw [only, if_neg hj]
      rfl
  exact hsum

theorem opened_only (k : Kind) (v t : List Char) : opened (only k v) t = places k t * v.count '<' := by
  have hsum : opened (only k v) t = places k t * v.count '<' + Kind.total fun _ => 0 := by
    refine Kind.total_of_eq_add (k := k) ?_ fun j hj => ?_
    · rw [only_self, Option.getD_some, Nat.add_zero]
    · rw [only, if_neg hj]
      rfl
  exact hsum

/-- No place is the place of two codes. -/
theorem sum_places_le (t : List Char) :
    places .name t + places .icon t + places .amount t ≤ t.count '<' := by
  obtain ⟨u, h, -⟩ := Renders.exists_unique (fun _ => some []) t
  have hcount := h.count_opening
  have hreplaced : replaced (fun _ => some []) t =
      places .name t + places .icon t + places .amount t := rfl
  have hopened : opened (fun _ => some []) t = 0 := rfl
  omega

end TextCode

namespace Treasure

open TextCode

/-- The name of a treasure as it is put in: a text, or nothing if it is null. -/
def nameText? (t : Treasure) : Option String :=
  match t.name with
  | .str name => some name
  | .null => some ""
  | _ => none

/-- What is put in for the codes of each kind. -/
def values (t : Treasure) (name : String) : Kind → List Char
  | .name => name.toList
  | .icon => t.iconCode.toList
  | .amount => (toString t.amount).toList

theorem no_opening_toString (n : Int) : '<' ∉ (toString n).toList := by
  rw [Text.toList_toString, List.mem_append]
  rintro (hsign | hdigit)
  · split at hsign
    · simp at hsign
    · cases hsign
  · exact absurd (Text.isDigit_of_mem_digits hdigit) (by decide)

theorem no_opening_iconCode (t : Treasure) : '<' ∉ t.iconCode.toList := by
  rw [iconCode]
  split
  · exact nofun
  · simp only [String.toList_append, List.mem_append, not_or]
    exact ⟨⟨by decide, no_opening_toString t.icon⟩, by decide⟩

variable {t : Treasure} {name : String} {text named shown result : List Char}

theorem putName_of_some (h : t.nameText? = some name) (text : String) :
    t.putName text = .ok (substitute Kind.name.words name text) := by
  cases hkind : t.name with
  | str _ | null =>
      rw [nameText?, hkind] at h
      cases h
      rw [putName, hkind]
      rfl
  | _ =>
      rw [nameText?, hkind] at h
      cases h

theorem putName_of_none (h : t.nameText? = none) (text : String) :
    t.putName text = if occurs Kind.name.words text then .error .wrongType else .ok text := by
  cases hkind : t.name with
  | str _ | null =>
      rw [nameText?, hkind] at h
      cases h
  | _ =>
      rw [putName, hkind]
      rfl

/-- The three passes over a text. -/
structure Passes (t : Treasure) (name : String) (text named shown result : List Char) : Prop where
  name : Renders (only .name name.toList) text named
  icon : Renders (only .icon t.iconCode.toList) named shown
  amount : Renders (only .amount (toString t.amount).toList) shown result

/-- What the passes keep of the codes. -/
theorem Passes.places_le (h : Passes t name text named shown result) :
    places .icon text ≤ places .icon named ∧ places .amount text ≤ places .amount named ∧
      places .amount named ≤ places .amount shown :=
  ⟨h.name.places_le rfl, h.name.places_le rfl, h.icon.places_le rfl⟩

/-- What the first two passes do to the number of `<`. -/
theorem Passes.count_opening (h : Passes t name text named shown result) :
    named.count '<' + places .name text = text.count '<' + places .name text * name.toList.count '<' ∧
      shown.count '<' + places .icon named = named.count '<' ∧
      result.count '<' + places .amount shown = shown.count '<' := by
  have hname := h.name.count_opening
  have hicon := h.icon.count_opening
  have hamount := h.amount.count_opening
  rw [replaced_only, opened_only] at hname hicon hamount
  rw [List.count_eq_zero.2 t.no_opening_iconCode] at hicon
  rw [List.count_eq_zero.2 (no_opening_toString t.amount)] at hamount
  exact ⟨hname, hicon, hamount⟩

/-- What putting in all at once does to the number of `<`. -/
theorem count_opening_of_values (h : Renders (fun k => some (t.values name k)) text result) :
    result.count '<' + (places .name text + places .icon text + places .amount text) =
      text.count '<' + places .name text * name.toList.count '<' := by
  have hcount := h.count_opening
  have hicon : (t.values name .icon).count '<' = 0 := List.count_eq_zero.2 t.no_opening_iconCode
  have hamount : (t.values name .amount).count '<' = 0 := List.count_eq_zero.2 (no_opening_toString t.amount)
  simp only [replaced, opened, Kind.total, Option.isSome_some, if_true, Option.getD_some, hicon,
    hamount] at hcount
  have hname : t.values name .name = name.toList := rfl
  rw [hname] at hcount
  omega

/-- **The passes come to the text with all its codes replaced at once exactly if they form no
codes.** -/
theorem Passes.renders_iff (h : Passes t name text named shown result) :
    Renders (fun k => some (t.values name k)) text result ↔
      places .icon named = places .icon text ∧ places .amount shown = places .amount text := by
  obtain ⟨hicon, hamount, hamount'⟩ := h.places_le
  constructor
  · -- a code more for a later pass is a `<` less in the result
    intro hall
    have hcount := count_opening_of_values hall
    obtain ⟨hcount₁, hcount₂, hcount₃⟩ := h.count_opening
    omega
  · rintro ⟨hicons, hamounts⟩
    -- the icons join the names, then the amounts join both
    let both : Kind → Option (List Char) :=
      fun j => if j = .icon then some t.iconCode.toList else only .name name.toList j
    obtain ⟨shown', hboth, -⟩ := Renders.exists_unique both text
    obtain rfl : shown' = shown := h.icon.unique (hboth.merge rfl rfl h.name hicons)
    obtain ⟨once, hall, -⟩ := Renders.exists_unique (fun k => some (t.values name k)) text
    have hvalues : (fun k => some (t.values name k)) =
        fun j => if j = .amount then some (toString t.amount).toList else both j := by
      funext j
      cases j <;> rfl
    obtain rfl : once = result := h.amount.unique (hall.merge hvalues rfl hboth hamounts)
    exact hall

/-- A name without `<` forms no codes in a text in which each `<` begins one. -/
theorem Passes.renders_of_closed (h : Passes t name text named shown result) (hname : '<' ∉ name.toList)
    (htext : text.count '<' = places .name text + places .icon text + places .amount text) :
    Renders (fun k => some (t.values name k)) text result := by
  obtain ⟨hicon, hamount, hamount'⟩ := h.places_le
  obtain ⟨hcount₁, hcount₂, hcount₃⟩ := h.count_opening
  rw [List.count_eq_zero.2 hname] at hcount₁
  -- each pass takes away as many `<` as it replaces codes, and a text has at least one for each code
  have hnamed := sum_places_le named
  have hshown := sum_places_le shown
  rw [h.renders_iff]
  omega

theorem occursIn_iff {cs : List Char} : occursIn Kind.name.words cs = true ↔ 0 < places .name cs := by
  induction cs with
  | nil => exact iff_of_false nofun (Nat.lt_irrefl 0)
  | cons c cs ih =>
      rw [occursIn, places, Bool.or_eq_true, ih]
      split
      · next hsome => exact iff_of_true (.inl hsome) (by omega)
      · next hnone => rw [or_iff_right hnone, Nat.zero_add]

/-- **Which texts are converted as if all at once.**  Without a treasure a text stays as it is.  With
one whose name is a text or null, the text with all its codes replaced at once is one text; the
passes come to it exactly if neither the name forms an icon code nor the name and the icon form a code
of an amount, and so they do where the name has no `<` and each `<` of the text begins a code.  With
another name, a text is converted exactly if no code of a name is in it. -/
theorem converts_once_iff (t : Treasure) (text : String) :
    convert none text = .ok text ∧
      (∀ name : String, t.nameText? = some name →
        (∃ once, Renders (fun k => some (t.values name k)) text.toList once ∧
          ∀ out, Renders (fun k => some (t.values name k)) text.toList out → out = once) ∧
        ∃ named shown result, convert (some t) text = .ok result ∧
          Passes t name text.toList named shown result.toList ∧
          (Renders (fun k => some (t.values name k)) text.toList result.toList ↔
            places .icon named = places .icon text.toList ∧
              places .amount shown = places .amount text.toList) ∧
          ('<' ∉ name.toList →
            text.toList.count '<' = places .name text.toList + places .icon text.toList +
              places .amount text.toList →
            Renders (fun k => some (t.values name k)) text.toList result.toList)) ∧
      (t.nameText? = none →
        ((∃ result, convert (some t) text = .ok result) ↔ places .name text.toList = 0)) := by
  refine ⟨rfl, fun name hname => ⟨Renders.exists_unique _ _, ?_⟩, fun hname => ?_⟩
  · have hput := putName_of_some hname text
    have hpasses : Passes t name text.toList (substitute Kind.name.words name text).toList
        (substitute Kind.icon.words t.iconCode (substitute Kind.name.words name text)).toList
        (substitute Kind.amount.words (toString t.amount)
          (substitute Kind.icon.words t.iconCode (substitute Kind.name.words name text))).toList :=
      ⟨renders_substitute _ _ _, renders_substitute _ _ _, renders_substitute _ _ _⟩
    refine ⟨_, _, _, ?_, hpasses, hpasses.renders_iff, hpasses.renders_of_closed⟩
    rw [convert, hput]
    rfl
  · have hput := putName_of_none hname text
    rw [convert, hput, occurs]
    by_cases hoccurs : occursIn Kind.name.words text.toList = true
    · rw [if_pos hoccurs]
      have := occursIn_iff.1 hoccurs
      refine iff_of_false ?_ (by omega)
      rintro ⟨_, h⟩
      cases h
    · rw [if_neg hoccurs]
      exact iff_of_true ⟨_, rfl⟩ (Nat.eq_zero_of_not_pos fun hpos => hoccurs (occursIn_iff.2 hpos))

/-- Codes of each kind in several spellings; and a name that is a number, in a text without its code. -/
theorem converts_once_potion :
    let t : Treasure := ⟨"item", 7, .str "Potion", 3, true, 176, none⟩
    let text := "<Treasure Icon><treasure_name> x<TREASURE-QUANTITY> (<treasureamount>)"
    t.nameText? = some "Potion" ∧ '<' ∉ "Potion".toList ∧
      text.toList.count '<' = places .name text.toList + places .icon text.toList +
        places .amount text.toList ∧
      convert (some t) text = .ok "\\I[176]Potion x3 (3)" ∧
      Renders (fun k => some (t.values "Potion" k)) text.toList "\\I[176]Potion x3 (3)".toList ∧
      ∃ result, convert (some { t with name := .int 5 }) "x<treasure amount>" = .ok result := by
  intro t text
  obtain ⟨-, htexts, -⟩ := converts_once_iff t text
  obtain ⟨-, -, hother⟩ := converts_once_iff { t with name := .int 5 } "x<treasure amount>"
  have hname : t.nameText? = some "Potion" := rfl
  have hclear : '<' ∉ "Potion".toList := by decide
  have hcount : text.toList.count '<' = places .name text.toList + places .icon text.toList +
      places .amount text.toList := by
    decide +kernel
  have hconvert : convert (some t) text = .ok "\\I[176]Potion x3 (3)" := by decide +kernel
  obtain ⟨-, named, shown, result, hresult, -, -, hclosed⟩ := htexts "Potion" hname
  obtain rfl : "\\I[176]Potion x3 (3)" = result := Except.ok.inj (hconvert.symm.trans hresult)
  exact ⟨hname, hclear, hcount, hconvert, hclosed hclear hcount, (hother rfl).2 (by decide +kernel)⟩

/-- **Not every text is converted as if all at once**: a name that is a code itself is replaced. -/
theorem not_converted_once :
    ¬∀ (t : Treasure) (name text result : String), t.nameText? = some name →
      convert (some t) text = .ok result →
      Renders (fun k => some (t.values name k)) text.toList result.toList := by
  intro hevery
  have hresult : convert (some ⟨"item", 7, .str "<treasure icon>", 1, true, 5, none⟩) "<treasure name>" =
      .ok "\\I[5]" := by
    decide +kernel
  have hrenders := hevery _ "<treasure icon>" _ _ rfl hresult
  have hcode : IsCode .name "<treasure name>".toList :=
    ⟨"name", by decide, "<treasure".toList, [' '], "name>".toList, (Text.alike_iff (by decide)).2 (by decide),
      .inr ⟨' ', by decide, rfl⟩, (Text.alike_iff (by decide)).2 (by decide), rfl⟩
  have happend : "<treasure name>".toList = "<treasure name>".toList ++ [] := rfl
  rw [happend] at hrenders
  obtain ⟨out, hout, -⟩ := hrenders.of_code rfl hcode
  -- the name begins with `<`, the result does not
  cases hout

end Treasure

end EventLayer
