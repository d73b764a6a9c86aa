/-
**Names of sounds in quotes.**

A line that sets a sound names it in quotes, with a volume and a pitch behind it, or without.  A name
may have blanks, parentheses and semicolons in it.  A comma it may not: the arguments are cut at the
commas before the quotes are taken off, so that a comma in the name ends it.

Main definitions:

* `quoted` — a name between two quotes.

Main results:

* `RouteInstruction.parse_quoted_iff` — what becomes of a line that names a sound without commas;
* `RouteInstruction.not_named_of_comma` — a name with a comma is cut;
* `RouteInstruction.names_sound_iff` — **which names are read as they are quoted**.
-/
import EventLayer.Proofs.Results
import EventLayer.Proofs.Route.Calls
import EventLayer.Proofs.Text.Decimals

set_option autoImplicit false
set_option relaxedAutoImplicit false

namespace EventLayer

open Text

/-- A name between two quotes. -/
def quoted (q : Char) (s : String) : List Char := q :: (s.toList ++ [q])

variable {q : Char} {s : String}

theorem isQuote_iff : isQuote q = true ↔ q = '\'' ∨ q = '"' := by
  rw [isQuote, Bool.or_eq_true, beq_iff_eq, beq_iff_eq]

theorem not_blank_of_isQuote (hq : isQuote q = true) : isBlank q = false := by
  rcases isQuote_iff.1 hq with rfl | rfl <;> decide

namespace ScriptCall

theorem isArgument_quoted (hq : isQuote q = true) (hs : ',' ∉ s.toList) : IsArgument (quoted q s) := by
  have hblank := not_blank_of_isQuote hq
  refine ⟨nofun, ?_, clearOf_cons.2 hblank, ?_⟩
  · have hne : ',' ≠ q := by
      rcases isQuote_iff.1 hq with rfl | rfl <;> decide
    simp [quoted, hs, hne]
  · rw [quoted, List.reverse_cons, List.reverse_append]
    exact clearOf_cons.2 hblank

theorem isArgument_toString (n : Int) : IsArgument (toString n).toList := by
  have hdigits := digits_toDigits n.natAbs
  have hchars : ∀ c ∈ (toString n).toList, c = '-' ∨ isDecimalDigit c = true := by
    intro c hc
    rw [toList_toString, List.mem_append] at hc
    rcases hc with hc | hc
    · split at hc
      · exact .inl (List.mem_singleton.1 hc)
      · cases hc
    · exact .inr (hdigits.2 c hc)
  have hsolid : Solid (toString n).toList := by
    intro c hc
    rcases hchars c hc with rfl | hdigit
    · decide
    · exact isBlank_of_isDecimalDigit hdigit
  refine ⟨?_, ?_, clearOf_of_forall hsolid, clearOf_of_forall fun c hc => hsolid c (List.mem_reverse.1 hc)⟩
  · rw [toList_toString]
    exact fun hnil => hdigits.1 (List.append_eq_nil_iff.1 hnil).2
  · intro hin
    rcases hchars _ hin with heq | hdigit
    · exact absurd heq (by decide)
    · exact absurd hdigit (by decide)

end ScriptCall

namespace RouteInstruction

open ScriptCall

theorem unquote_quoted (hq : isQuote q = true) : unquote (String.ofList (quoted q s)) = s := by
  have hquote := isQuote_iff.1 hq
  simp [unquote, quoted, hquote]

/-- A quote that is not closed stays. -/
theorem unquote_of_not_mem {t : List Char} (h : q ∉ t) :
    unquote (String.ofList (q :: t)) = String.ofList (q :: t) := by
  rw [unquote, String.toList_ofList]
  dsimp only
  rw [if_neg]
  rintro ⟨-, hlast⟩
  exact h (List.mem_of_getLast? hlast)

/-- A number among the arguments is read if it is not too long. -/
theorem intArg_iff {call : ScriptName} {args : List String} {i : Nat} {d n : Int}
    (h : args[i]? = some (toString n)) :
    (intArg call args i d).mapError Fault.invalidScript = .ok n ↔ isWritable n = true := by
  rw [intArg, h]
  dsimp only
  cases hwritable : isWritable n with
  | true =>
      rw [readInt?_toString hwritable]
      exact iff_of_true rfl rfl
  | false =>
      rw [readInt?_toString_of_long hwritable]
      exact iff_of_false nofun nofun

theorem intArg_default {call : ScriptName} {args : List String} {i : Nat} {d : Int} (h : args[i]? = none) :
    (intArg call args i d).mapError Fault.invalidScript = .ok d := by
  rw [intArg, h]
  rfl

/-- What a call that sets a sound comes to. -/
theorem parse_setSound_iff {inner : List Char} {line name : String} {more : List String} {v p : Int}
    (hline : Writes .setSound inner line)
    (hargs : (ScriptCall.mk .setSound (String.ofList (trimChars inner))).arguments = name :: more) :
    parse (some line) = .ok (some (.setSound s v p)) ↔ unquote name = s ∧
      (intArg .setSound (name :: more) 1 90).mapError Fault.invalidScript = .ok v ∧
      (intArg .setSound (name :: more) 2 100).mapError Fault.invalidScript = .ok p := by
  rw [parse_of_writes hline, ofCall]
  dsimp only
  rw [hargs]
  dsimp only
  cases (intArg .setSound (name :: more) 1 90).mapError Fault.invalidScript with
  | error e => exact iff_of_false nofun (fun h => nomatch h.2.1)
  | ok v' =>
      cases (intArg .setSound (name :: more) 2 100).mapError Fault.invalidScript with
      | error e => exact iff_of_false nofun (fun h => nomatch h.2.2)
      | ok p' =>
          constructor
          · intro h
            cases h
            exact ⟨rfl, rfl, rfl⟩
          · rintro ⟨rfl, hv, hp⟩
            cases hv
            cases hp
            rfl

/-- What becomes of a line that names a sound without commas. -/
theorem parse_quoted_iff {inner : List Char} {line : String} {more : List (List Char)} {v p : Int}
    (hq : isQuote q = true) (hs : ',' ∉ s.toList) (hline : Writes .setSound inner line)
    (hinner : Lists (quoted q s :: more) inner) (hmore : ∀ a ∈ more, IsArgument a) :
    parse (some line) = .ok (some (.setSound s v p)) ↔
      (intArg .setSound ((quoted q s :: more).map String.ofList) 1 90).mapError Fault.invalidScript = .ok v ∧
      (intArg .setSound ((quoted q s :: more).map String.ofList) 2 100).mapError Fault.invalidScript = .ok p := by
  have hargs := arguments_of_lists .setSound hinner
    (List.forall_mem_cons.2 ⟨isArgument_quoted hq hs, hmore⟩)
  rw [parse_setSound_iff hline hargs, unquote_quoted hq]
  exact and_iff_right rfl

/-- What is left of a quote and what follows it without the blanks at the end. -/
theorem exists_trimChars_cons {cs : List Char} (hq : isBlank q = false) :
    ∃ t b, trimChars (q :: cs) = q :: t ∧ cs = t ++ b := by
  obtain ⟨b, b', hb, hb', heq⟩ := exists_surroundings (q :: cs)
  cases b with
  | cons c b =>
      rw [(List.cons.inj heq).1, hb c (by simp)] at hq
      cases hq
  | nil =>
      cases htrim : trimChars (q :: cs) with
      | nil =>
          rw [htrim] at heq
          cases heq
          rw [hb' q (by simp)] at hq
          cases hq
      | cons c t =>
          rw [htrim] at heq
          cases heq
          exact ⟨t, b', rfl, rfl⟩

/-- **A name with a comma is cut**: no line that begins with it names the sound. -/
theorem not_named_of_comma {inner : List Char} {line : String} {more : List (List Char)}
    (hq : isQuote q = true) (hs : ∀ c ∈ s.toList, isQuote c = false) (hcomma : ',' ∈ s.toList)
    (hline : Writes .setSound inner line) (hinner : Lists (quoted q s :: more) inner) (v p : Int) :
    parse (some line) ≠ .ok (some (.setSound s v p)) := by
  have hnotMem : q ∉ s.toList := fun hin => by
    rw [hs q hin] at hq
    cases hq
  obtain ⟨front, behind, hsplit, hfront⟩ := List.eq_append_cons_of_mem hcomma
  -- whatever arguments follow, the text begins with the quoted name
  obtain ⟨b, tail, hb, heq⟩ : ∃ b tail, Blanks b ∧ inner = b ++ (quoted q s ++ tail) := by
    cases more with
    | nil =>
        obtain ⟨b, b', hb, -, rfl⟩ := hinner
        exact ⟨b, b', hb, rfl⟩
    | cons next more =>
        obtain ⟨b, b', rest, hb, -, -, rfl⟩ := hinner
        exact ⟨b, _, hb, rfl⟩
  -- the first piece ends at the comma
  have hpieces : ∃ pieces, splitAt ',' inner = (b ++ q :: front) :: pieces := by
    have hcs : inner = (b ++ q :: front) ++ ',' :: (behind ++ q :: tail) := by
      rw [heq, quoted, hsplit]
      simp only [List.append_assoc, List.cons_append, List.nil_append]
    have hne : ',' ≠ q := by
      rcases isQuote_iff.1 hq with rfl | rfl <;> decide
    refine ⟨_, hcs ▸ splitAt_append ?_⟩
    simp only [List.mem_append, List.mem_cons, not_or]
    exact ⟨not_mem_of_blanks hb (by decide), hne, hfront⟩
  obtain ⟨pieces, hpieces⟩ := hpieces
  obtain ⟨t, b', htrim, ht⟩ : ∃ t b', trimChars (q :: front) = q :: t ∧ front = t ++ b' :=
    exists_trimChars_cons (not_blank_of_isQuote hq)
  -- the quote before the comma is not closed, and so it stays with the name
  have hqt : q ∉ t := fun hin => hnotMem (by simp [hsplit, ht, hin])
  have hargs : (ScriptCall.mk .setSound (String.ofList (trimChars inner))).arguments =
      String.ofList (q :: t) :: ((pieces.map trimChars).map String.ofList).filter (· != "") := by
    have hne : String.ofList (q :: t) ≠ "" := fun hnil => by
      have := congrArg String.toList hnil
      rw [String.toList_ofList] at this
      cases this
    have hkept : (String.ofList (q :: t) != "") = true := bne_iff_ne.2 hne
    rw [arguments_eq, hpieces, List.map_cons, List.map_cons, trimChars_append_left hb, htrim,
      List.filter_cons, if_pos hkept]
  rw [ne_eq, parse_setSound_iff hline hargs, unquote_of_not_mem hqt]
  rintro ⟨hname, -⟩
  refine hnotMem ?_
  rw [← hname, String.toList_ofList]
  exact List.mem_cons_self

/-- **Which names are read as they are quoted.**  A line that quotes a name, with a volume and a pitch
or without, is read as setting the sound of that name exactly if there is no comma in the name, and
the numbers are not too long; with a comma in it, it names another sound or none. -/
theorem names_sound_iff :
    ∀ (q : Char) (s : String), isQuote q = true → (∀ c ∈ s.toList, isQuote c = false) →
      ∀ (v p : Int) (inner : List Char) (line : String), Writes .setSound inner line →
        (Lists [quoted q s] inner →
          (parse (some line) = .ok (some (.setSound s 90 100)) ↔ ',' ∉ s.toList)) ∧
        (Lists [quoted q s, (toString v).toList] inner →
          (parse (some line) = .ok (some (.setSound s v 100)) ↔ ',' ∉ s.toList ∧ isWritable v = true)) ∧
        (Lists [quoted q s, (toString v).toList, (toString p).toList] inner →
          (parse (some line) = .ok (some (.setSound s v p)) ↔
            ',' ∉ s.toList ∧ isWritable v = true ∧ isWritable p = true)) ∧
        (',' ∈ s.toList → ∀ more, Lists (quoted q s :: more) inner →
          ∀ v' p', parse (some line) ≠ .ok (some (.setSound s v' p'))) := by
  intro q s hq hs v p inner line hline
  have hcomma : ',' ∈ s.toList → ∀ more, Lists (quoted q s :: more) inner →
      ∀ v' p', parse (some line) ≠ .ok (some (.setSound s v' p')) :=
    fun hin more hinner v' p' => not_named_of_comma hq hs hin hline hinner v' p'
  have hv := isArgument_toString v
  have hp := isArgument_toString p
  refine ⟨fun hinner => ?_, fun hinner => ?_, fun hinner => ?_, hcomma⟩
  · by_cases hin : ',' ∈ s.toList
    · exact iff_of_false (hcomma hin _ hinner _ _) (fun hnot => hnot hin)
    · rw [parse_quoted_iff hq hin hline hinner (by simp), intArg_default rfl, intArg_default rfl]
      simp [hin]
  · by_cases hin : ',' ∈ s.toList
    · exact iff_of_false (hcomma hin _ hinner _ _) (fun hnot => hnot.1 hin)
    · rw [parse_quoted_iff hq hin hline hinner (List.forall_mem_singleton.2 hv),
        intArg_iff (congrArg some String.ofList_toList), intArg_default rfl]
      simp [hin]
  · by_cases hin : ',' ∈ s.toList
    · exact iff_of_false (hcomma hin _ hinner _ _) (fun hnot => hnot.1 hin)
    · rw [parse_quoted_iff hq hin hline hinner
          (List.forall_mem_cons.2 ⟨hv, List.forall_mem_singleton.2 hp⟩),
        intArg_iff (congrArg some String.ofList_toList), intArg_iff (congrArg some String.ofList_toList)]
      simp [hin]

/-- A name with a blank, parentheses and a semicolon in it. -/
theorem names_sound_creak :
    let s := "Door (creak);"
    isQuote '\'' = true ∧ (∀ c ∈ s.toList, isQuote c = false) ∧ ',' ∉ s.toList ∧
      Writes .setSound "'Door (creak);', -5 ,110".toList "this.setSe('Door (creak);', -5 ,110) ;" ∧
      Lists [quoted '\'' s, (toString (-5 : Int)).toList, (toString (110 : Int)).toList]
        "'Door (creak);', -5 ,110".toList ∧
      parse (some "this.setSe('Door (creak);', -5 ,110) ;") = .ok (some (.setSound s (-5) 110)) := by
  intro s
  have hquotes : ∀ c ∈ s.toList, isQuote c = false := by decide
  have hcomma : ',' ∉ s.toList := by decide
  have hline : Writes .setSound "'Door (creak);', -5 ,110".toList "this.setSe('Door (creak);', -5 ,110) ;" :=
    ⟨[], "this.".toList, [], [' ', ';'], [], by decide, .inr rfl, by decide, .inr ⟨[' '], by decide, rfl⟩,
      by decide, rfl⟩
  have hinner : Lists [quoted '\'' s, (toString (-5 : Int)).toList, (toString (110 : Int)).toList]
      "'Door (creak);', -5 ,110".toList :=
    ⟨[], [], _, by decide, by decide, ⟨[' '], [' '], _, by decide, by decide,
      ⟨[], [], by decide, by decide, rfl⟩, rfl⟩, by decide +kernel⟩
  obtain ⟨-, -, hthree, -⟩ := names_sound_iff '\'' s rfl hquotes (-5) 110 _ _ hline
  exact ⟨rfl, hquotes, hcomma, hline, hinner,
    (hthree hinner).2 ⟨hcomma, by decide +kernel, by decide +kernel⟩⟩

/-- **Not every name is read as it is quoted**: one with a comma is cut there. -/
theorem not_named_cut :
    ¬∀ (q : Char) (s : String), isQuote q = true → (∀ c ∈ s.toList, isQuote c = false) →
      ∀ (v p : Int) (inner : List Char) (line : String), Writes .setSound inner line →
        Lists [quoted q s, (toString v).toList, (toString p).toList] inner →
        parse (some line) = .ok (some (.setSound s v p)) := by
  intro hevery
  have hline : Writes .setSound "\"a,b\", 90, 100".toList "setSe(\"a,b\", 90, 100)" :=
    ⟨[], [], [], [], [], by decide, .inl rfl, by decide, .inl rfl, by decide, rfl⟩
  have hinner : Lists [quoted '"' "a,b", (toString (90 : Int)).toList, (toString (100 : Int)).toList]
      "\"a,b\", 90, 100".toList :=
    ⟨[], [], _, by decide, by decide, ⟨[' '], [], _, by decide, by decide,
      ⟨[' '], [], by decide, by decide, rfl⟩, rfl⟩, rfl⟩
  have hparse : parse (some "setSe(\"a,b\", 90, 100)") =
      .error (.invalidScript (.argumentNotNumber "setSe" 2 "b\"")) := by
    decide +kernel
  have hsound := hevery '"' "a,b" rfl (by decide) 90 100 _ _ hline hinner
  rw [hparse] at hsound
  cases hsound

end RouteInstruction

end EventLayer
