/-
**How calls are written.**

A script line is the call of a name, with anything between its parentheses.  The owner of the call may
stand in front of it and a semicolon behind it, and blanks at its ends, before the opening parenthesis
and before the semicolon.

Main definitions:

* `ScriptCall.Writes` — a text that writes the call of a name;
* `ScriptCall.Lists` — a text that lists arguments.

Main results:

* `ScriptCall.parse?_of_writes` — **such a text is read as the call**, whatever stands between its
  parentheses;
* `ScriptCall.arguments_of_lists` — **its arguments are those listed**.
-/
import EventLayer.Proofs.Text.Scanning
import EventLayer.Route.Script

set_option autoImplicit false
set_option relaxedAutoImplicit false

namespace EventLayer

/-! ### Texts between separators -/

namespace Text

variable {sep : Char} {b cs rest : List Char}

/-- A piece ends at the first separator. -/
theorem splitAt_append (h : sep ∉ cs) : splitAt sep (cs ++ sep :: rest) = cs :: splitAt sep rest := by
  induction cs with
  | nil => rw [List.nil_append, splitAt, if_pos rfl]
  | cons c cs ih =>
      rw [List.mem_cons, not_or] at h
      rw [List.cons_append, splitAt, if_neg (Ne.symm h.1), ih h.2]

theorem not_mem_of_blanks (h : Blanks b) (hsep : isBlank sep = false) : sep ∉ b := by
  intro hin
  rw [h sep hin] at hsep
  cases hsep

theorem trimChars_append_left (h : Blanks b) : trimChars (b ++ cs) = trimChars cs := by
  rw [trimChars, trimStartChars_append h, trimChars]

theorem trimChars_append_right (h : Blanks b) : trimChars (cs ++ b) = trimChars cs := by
  obtain ⟨c, c', hc, hc', heq⟩ := exists_surroundings cs
  have hcs : cs ++ b = c ++ (trimChars cs ++ (c' ++ b)) := by
    conv_lhs => rw [heq]
    simp only [List.append_assoc]
  rw [hcs, trimChars_surrounded hc (hc'.append h) (clearOf_trimChars cs) (clearOf_reverse_trimChars cs)]

/-- Blanks at the start belong to the first piece. -/
theorem map_trim_splitAt_left (h : Blanks b) (hsep : isBlank sep = false) :
    (splitAt sep (b ++ cs)).map trimChars = (splitAt sep cs).map trimChars := by
  induction b with
  | nil => rfl
  | cons c b ih =>
      have hc : Blanks [c] := List.forall_mem_singleton.2 (h c (by simp))
      have hne : c ≠ sep := fun heq => not_mem_of_blanks hc hsep (by simp [heq])
      rw [← ih fun c hc => h c (by simp [hc]), List.cons_append, splitAt, if_neg hne]
      cases hpieces : splitAt sep (b ++ cs) with
      | nil => exact absurd hpieces (splitAt_ne_nil sep _)
      | cons piece pieces =>
          have hpiece : trimChars (c :: piece) = trimChars piece := trimChars_append_left hc
          rw [List.map_cons, List.map_cons, hpiece]

/-- What is put behind a text belongs to the last piece if it has no separator. -/
theorem splitAt_append_right (cs : List Char) (h : sep ∉ b) :
    ∃ front last, splitAt sep cs = front ++ [last] ∧ splitAt sep (cs ++ b) = front ++ [last ++ b] := by
  induction cs with
  | nil => exact ⟨[], [], rfl, splitAt_of_not_mem h⟩
  | cons c cs ih =>
      obtain ⟨front, last, heq, heq'⟩ := ih
      rw [List.cons_append, splitAt, splitAt, heq, heq']
      split
      · exact ⟨[] :: front, last, rfl, rfl⟩
      · cases front with
        | nil => exact ⟨[], c :: last, rfl, rfl⟩
        | cons piece front => exact ⟨(c :: piece) :: front, last, rfl, rfl⟩

/-- **Blanks at the ends of a text do not show in its pieces** without the blanks at theirs. -/
theorem map_trim_splitAt (cs : List Char) (hsep : isBlank sep = false) :
    (splitAt sep (trimChars cs)).map trimChars = (splitAt sep cs).map trimChars := by
  obtain ⟨b, b', hb, hb', heq⟩ := exists_surroundings cs
  obtain ⟨front, last, hpieces, hpieces'⟩ := splitAt_append_right (trimChars cs) (not_mem_of_blanks hb' hsep)
  conv_rhs => rw [heq, map_trim_splitAt_left hb hsep, hpieces']
  rw [hpieces, List.map_append, List.map_append, List.map_singleton, List.map_singleton,
    trimChars_append_right hb']

end Text

open Text

namespace ScriptCall

/-- What may stand behind the closing parenthesis: a semicolon, perhaps behind blanks. -/
def Tail (tail : List Char) : Prop := tail = [] ∨ ∃ b, Blanks b ∧ tail = b ++ [';']

/-- A text writes the call of a name, with a given text between the parentheses. -/
def Writes (name : ScriptName) (inner : List Char) (text : String) : Prop :=
  ∃ b owner b' tail b'', Blanks b ∧ (owner = [] ∨ owner = "this.".toList) ∧ Blanks b' ∧ Tail tail ∧
    Blanks b'' ∧ text.toList =
      b ++ ((owner ++ (name.word.toList ++ (b' ++ '(' :: (inner ++ ')' :: tail)))) ++ b'')

variable {name : ScriptName} {inner cs rest : List Char} {text : String}

/-- No name is the beginning of another. -/
theorem written_apart : ∀ w ∈ ScriptName.written, ∀ w' ∈ ScriptName.written,
    w.1.toList <+: w'.1.toList → w = w' := by
  decide

theorem mem_written (name : ScriptName) : (name.word, name) ∈ ScriptName.written := by
  cases name <;> decide

theorem after?_this (name : ScriptName) : after? "this.".toList (name.word.toList ++ rest) = none := by
  cases name <;> rfl

/-- The owner in front of a call is taken off. -/
theorem owner_taken {owner : List Char} (h : owner = [] ∨ owner = "this.".toList) :
    (after? "this.".toList (owner ++ (name.word.toList ++ rest))).getD
      (owner ++ (name.word.toList ++ rest)) = name.word.toList ++ rest := by
  rcases h with rfl | rfl
  · rw [List.nil_append, after?_this]
    rfl
  · rw [after?_append]
    rfl

theorem clearOf_word {p : Char → Bool} (name : ScriptName) (hp : ∀ c ∈ ['r', 's', 'u'], p c = false) :
    ClearOf p (name.word.toList ++ rest) := by
  cases name <;> exact clearOf_cons.2 (hp _ (by decide))

/-- The last closing parenthesis closes the call, whatever stands before it. -/
theorem beforeClosing?_tail {tail : List Char} (h : Tail tail) :
    beforeClosing? (inner ++ ')' :: tail) = some inner := by
  rcases h with rfl | ⟨b, hb, rfl⟩
  · simp [beforeClosing?]
  · have hrev : Blanks b.reverse := fun c hc => hb c (List.mem_reverse.1 hc)
    have hclear : ClearOf isBlank (')' :: inner.reverse) := clearOf_cons.2 (by decide)
    simp [beforeClosing?, trimStartChars_append hrev, trimStartChars_of_clear hclear]

theorem Tail.clearOf_reverse {tail : List Char} (h : Tail tail) :
    ClearOf isBlank (cs ++ ')' :: tail).reverse := by
  rcases h with rfl | ⟨b, -, rfl⟩
  · rw [List.reverse_append]
    exact clearOf_cons.2 (by decide)
  · rw [List.reverse_append, List.reverse_cons, List.reverse_append]
    exact clearOf_cons.2 (by decide)

/-- **A text that writes a call is read as that call**, whatever stands between its parentheses. -/
theorem parse?_of_writes (h : Writes name inner text) :
    parse? text = some ⟨name, String.ofList (trimChars inner)⟩ := by
  obtain ⟨b, owner, b', tail, b'', hb, howner, hb', htail, hb'', htext⟩ := h
  have hstart : ClearOf isBlank (owner ++ (name.word.toList ++ (b' ++ '(' :: (inner ++ ')' :: tail)))) := by
    rcases howner with rfl | rfl
    · exact clearOf_word name (by decide)
    · exact clearOf_cons.2 (by decide)
  have hend : ClearOf isBlank
      (owner ++ (name.word.toList ++ (b' ++ '(' :: (inner ++ ')' :: tail)))).reverse := by
    have hclosing : ClearOf isBlank
        ((owner ++ (name.word.toList ++ (b' ++ '(' :: inner))) ++ ')' :: tail).reverse := htail.clearOf_reverse
    simpa only [List.append_assoc, List.cons_append] using hclosing
  have hparen : ClearOf isBlank ('(' :: (inner ++ ')' :: tail)) := clearOf_cons.2 (by decide)
  rw [parse?, htext, trimChars_surrounded hb hb'' hstart hend]
  rw [owner_taken howner]
  refine findSome?_eq_some_of_unique (mem_written name) ?_ ?_
  · simp only [after?_append, Option.bind_eq_bind, Option.bind_some, trimStartChars_append hb',
      trimStartChars_of_clear hparen, beforeClosing?_tail htail]
    rfl
  · intro w hw call hcall
    obtain ⟨rest, hrest, hread⟩ := Option.bind_eq_some_iff.1 hcall
    -- both words stand at the start of one text
    have heq := after?_eq_some_iff.1 hrest
    have hprefix : w.1.toList <+: name.word.toList ++ (b' ++ '(' :: (inner ++ ')' :: tail)) :=
      heq ▸ List.prefix_append _ _
    have hsame : (name.word, name) = w := by
      rcases List.prefix_or_prefix_of_prefix hprefix (List.prefix_append _ _) with hle | hle
      · exact (written_apart w hw _ (mem_written name) hle).symm
      · exact written_apart _ (mem_written name) w hw hle
    subst hsame
    obtain rfl := List.append_cancel_left heq
    rw [trimStartChars_append hb', trimStartChars_of_clear hparen] at hread
    simp only [beforeClosing?_tail htail, Option.bind_eq_bind, Option.bind_some] at hread
    exact (Option.some.inj hread).symm

/-! ### Arguments -/

/-- A text lists arguments: there are commas between them, and perhaps blanks around each. -/
def Lists : List (List Char) → List Char → Prop
  | [], cs => Blanks cs
  | [arg], cs => ∃ b b', Blanks b ∧ Blanks b' ∧ cs = b ++ (arg ++ b')
  | arg :: next :: more, cs =>
    ∃ b b' rest, Blanks b ∧ Blanks b' ∧ Lists (next :: more) rest ∧ cs = b ++ (arg ++ (b' ++ ',' :: rest))

/-- A text that can be an argument: it is not empty, and has no blanks at its ends and no comma. -/
structure IsArgument (arg : List Char) : Prop where
  ne_nil : arg ≠ []
  comma : ',' ∉ arg
  start : ClearOf isBlank arg
  stop : ClearOf isBlank arg.reverse

theorem map_trim_of_lists {arg : List Char} {more : List (List Char)} (h : Lists (arg :: more) cs)
    (hargs : ∀ a ∈ arg :: more, IsArgument a) : (splitAt ',' cs).map trimChars = arg :: more := by
  induction more generalizing arg cs with
  | nil =>
      obtain ⟨b, b', hb, hb', rfl⟩ := h
      have harg := hargs arg (by simp)
      have hcomma : ',' ∉ b ++ (arg ++ b') := by
        simp only [List.mem_append, not_or]
        exact ⟨not_mem_of_blanks hb (by decide), harg.comma, not_mem_of_blanks hb' (by decide)⟩
      rw [splitAt_of_not_mem hcomma, List.map_singleton,
        trimChars_surrounded hb hb' harg.start harg.stop]
  | cons next more ih =>
      obtain ⟨b, b', rest, hb, hb', hrest, rfl⟩ := h
      have harg := hargs arg (by simp)
      have hcomma : ',' ∉ b ++ (arg ++ b') := by
        simp only [List.mem_append, not_or]
        exact ⟨not_mem_of_blanks hb (by decide), harg.comma, not_mem_of_blanks hb' (by decide)⟩
      have hcs : b ++ (arg ++ (b' ++ ',' :: rest)) = (b ++ (arg ++ b')) ++ ',' :: rest := by
        simp only [List.append_assoc]
      rw [hcs, splitAt_append hcomma, List.map_cons, trimChars_surrounded hb hb' harg.start harg.stop,
        ih hrest fun other hother => hargs other (List.mem_cons_of_mem _ hother)]

theorem arguments_eq (name : ScriptName) (inner : List Char) :
    (ScriptCall.mk name (String.ofList (trimChars inner))).arguments =
      (((splitAt ',' inner).map trimChars).map String.ofList).filter (· != "") := by
  have hpieces : ∀ l : List (List Char), (l.map String.ofList).map trim = (l.map trimChars).map String.ofList := by
    intro l
    rw [List.map_map, List.map_map]
    refine List.map_congr_left fun piece _ => ?_
    rw [Function.comp_apply, trim, String.toList_ofList, Function.comp_apply]
  rw [arguments, pieces, String.toList_ofList, hpieces, map_trim_splitAt inner (by decide)]

/-- **The arguments of a call are those listed** between its parentheses. -/
theorem arguments_of_lists {arg : List Char} {more : List (List Char)} (name : ScriptName)
    (h : Lists (arg :: more) inner) (hargs : ∀ a ∈ arg :: more, IsArgument a) :
    (ScriptCall.mk name (String.ofList (trimChars inner))).arguments = (arg :: more).map String.ofList := by
  rw [arguments_eq, map_trim_of_lists h hargs, List.filter_eq_self]
  intro text htext
  obtain ⟨arg, harg, rfl⟩ := List.mem_map.1 htext
  rw [bne_iff_ne]
  intro hnil
  have := congrArg String.toList hnil
  rw [String.toList_ofList] at this
  exact (hargs arg harg).ne_nil this

end ScriptCall

/-- What a line that writes a call is read as is decided by the call. -/
theorem RouteInstruction.parse_of_writes {name : ScriptName} {inner : List Char} {line : String}
    (h : ScriptCall.Writes name inner line) :
    RouteInstruction.parse (some line) =
      (RouteInstruction.ofCall ⟨name, String.ofList (trimChars inner)⟩).map some := by
  rw [RouteInstruction.parse, Option.getD_some, ScriptCall.parse?_of_writes h]
  dsimp only
  cases RouteInstruction.ofCall ⟨name, String.ofList (trimChars inner)⟩ <;> rfl

end EventLayer
