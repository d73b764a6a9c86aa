/-
**Plain commands and texts.**

A command that is passed over is looked at all the same: how far it is indented says whether it
belongs to the branch that is not taken, and whether it is a line of text says whether it belongs to
the text before it.  Both looks succeed on every command that the editor writes, since a command
whose parameters are wrong is still a command.

Main definitions:

* `Program.Proper` — a reading that fails on no command that is an object.

Main results:

* `Program.isPlain_instructionOf` — what plain commands are read to;
* `Program.Leaf.blind_run` — leaves do not look at where their list stands;
* `Program.passOver_append`, `Program.textLines_map` — how far a branch and a text reach;
* `Program.Block.commands_within` — a block stands at its indentation and beyond.
-/
import EventLayer.Proofs.Faults
import EventLayer.Proofs.Program.Blind
import EventLayer.Proofs.Program.Tree

set_option autoImplicit false
set_option relaxedAutoImplicit false

namespace EventLayer.Program

/-! ### Plain commands -/

section Proper

variable {α β : Type}

/-- A reading comes to something proper, or fails for another reason than that there is no object. -/
def Proper (P : α → Prop) : Except Fault α → Prop
  | .ok a => P a
  | .error e => e ≠ .notAnObject

theorem Proper.bind {P : α → Prop} {Q : β → Prop} {r : Except Fault α} {f : α → Except Fault β}
    (hr : Proper P r) (hf : ∀ a, P a → Proper Q (f a)) : Proper Q (r >>= f) := by
  cases r with
  | ok a => exact hf a hr
  | error e => exact hr

theorem proper_pure {P : α → Prop} {a : α} (h : P a) : Proper P (pure a) := h

theorem proper_of_failsOnData {r : Except Fault α} (h : FailsOnData r) : Proper (fun _ => True) r := by
  cases r with
  | ok a => trivial
  | error e => exact (h e rfl).2

end Proper

theorem proper_param (params : Json) (i : Nat) (d : Json) :
    Proper (fun _ => True) (param params i d) := by
  refine (proper_of_failsOnData params.failsOnData_count).bind fun n _ => ?_
  split
  · exact proper_of_failsOnData (params.failsOnData_item i)
  · exact proper_pure trivial

theorem proper_rangeBound (v : Json) : Proper (fun _ => True) (rangeBound v) := by
  cases v <;> simp [rangeBound, Proper]

theorem proper_slot (v : Json) : Proper (fun _ => True) (SlotRef.ofJson v) := by
  unfold SlotRef.ofJson Json.asKey
  split <;> simp [Proper, bind, Except.bind, pure, Except.pure]

theorem proper_operand (type value : Json) : Proper (fun _ => True) (Operand.read type value) := by
  unfold Operand.read
  split
  · exact proper_pure trivial
  · exact (proper_slot value).bind fun _ _ => proper_pure trivial

theorem proper_readVariables (params : Json) :
    Proper Instruction.IsPlain (Instruction.readVariables params) := by
  refine (proper_param ..).bind fun first _ => (proper_param ..).bind fun last _ =>
    (proper_param ..).bind fun op _ => (proper_param ..).bind fun type _ => ?_
  dsimp only
  split
  · exact (proper_param ..).bind fun _ _ => proper_pure trivial
  · exact (proper_param ..).bind fun _ _ => (proper_slot _).bind fun _ _ => proper_pure trivial
  · exact (proper_param ..).bind fun _ _ => (proper_param ..).bind fun _ _ => proper_pure trivial
  · exact proper_pure trivial

theorem proper_readItems (kind : ItemKind) (params : Json) :
    Proper Instruction.IsPlain (Instruction.readItems kind params) :=
  (proper_param ..).bind fun _ _ => (proper_param ..).bind fun _ _ =>
    (proper_operand ..).bind fun _ _ => (proper_param ..).bind fun _ _ =>
      (proper_param ..).bind fun _ _ => proper_pure trivial

theorem proper_read {code : Int} (h : code ∈ plainCodes) (params : Json) :
    Proper Instruction.IsPlain (Instruction.read (some code) params) := by
  simp only [plainCodes, List.mem_cons, List.not_mem_nil, or_false] at h
  rcases h with rfl | rfl | rfl | rfl | rfl | rfl | rfl | rfl | rfl
  · exact (proper_param ..).bind fun _ _ => (proper_rangeBound _).bind fun _ _ =>
      (proper_param ..).bind fun _ _ => (proper_rangeBound _).bind fun _ _ =>
        (proper_param ..).bind fun _ _ => proper_pure trivial
  · exact proper_readVariables params
  · exact proper_pure trivial
  · exact (proper_param ..).bind fun _ _ => (proper_param ..).bind fun _ _ =>
      (proper_operand ..).bind fun _ _ => (proper_param ..).bind fun _ _ => proper_pure trivial
  · exact proper_readItems .item params
  · exact proper_readItems .weapon params
  · exact proper_readItems .armor params
  · exact (proper_param ..).bind fun _ _ => (proper_of_failsOnData (Json.failsOnData_toInt _)).bind fun _ _ => proper_pure trivial
  · exact (proper_param ..).bind fun _ _ => proper_pure trivial

/-- What plain commands are read to. -/
theorem isPlain_instructionOf {code : Int} (h : code ∈ plainCodes) (params : Json) :
    (instructionOf code params).IsPlain := by
  have hread := proper_read h (given params)
  unfold instructionOf
  cases hr : Instruction.read (some code) (given params) with
  | ok i =>
      rw [hr] at hread
      exact hread
  | error e =>
      rw [hr] at hread
      exact hread

/-- Leaves do not look at where their list stands. -/
theorem Leaf.blind_run {g : Frame} (l : Leaf) : l.run.Blind g := by
  cases l with
  | plain code isPlain params =>
      have hplain := isPlain_instructionOf isPlain params
      rw [Leaf.run]
      by_cases hw : ∃ n, instructionOf code params = .wait n
      · obtain ⟨n, hn⟩ := hw
        rw [hn]
        exact Play.blind_pure ()
      · rw [not_exists] at hw
        rw [runPlain_of_ne_wait hw]
        exact Play.blind_carryOutPlain hplain hw
  | text params lines => exact (Play.blind_except _).bind fun _ => Play.blind_showText _

/-! ### Looking ahead -/

/-- A command that the editor writes at an indentation or beyond. -/
structure Within (d : Int) (c : EventCommand) : Prop where
  isCommand : c.indent? = .ok c.indent
  le : d ≤ c.indent

theorem Within.mono {d d' : Int} {c : EventCommand} (h : Within d c) (hd : d' ≤ d) : Within d' c :=
  ⟨h.isCommand, Int.le_trans hd h.le⟩

theorem indent?_plain {i : Instruction} (hi : i.IsPlain) (d : Int) (mark : WeightMark) :
    EventCommand.indent? { indent := d, instruction := i, mark } = .ok d := by
  unfold EventCommand.indent?
  split
  · rename_i hb
    rw [show i = .blank from hb] at hi
    exact hi.elim
  · rename_i hf
    rw [show i = .faulty .notAnObject from hf] at hi
    exact absurd rfl hi
  · rfl

theorem Leaf.commands_within (d : Int) (l : Leaf) : ∀ c ∈ l.commands d, Within d c := by
  cases l with
  | plain code isPlain params =>
      intro c hc
      rw [Leaf.commands, List.mem_singleton] at hc
      subst hc
      exact ⟨indent?_plain (isPlain_instructionOf isPlain params) d .plain, Int.le_refl d⟩
  | text params lines =>
      intro c hc
      rcases List.mem_cons.1 hc with rfl | hc
      · exact ⟨rfl, Int.le_refl d⟩
      · obtain ⟨l, -, rfl⟩ := List.mem_map.1 hc
        exact ⟨rfl, Int.le_refl d⟩

theorem within_cons {d : Int} {c : EventCommand} {l : List EventCommand} (hc : Within d c)
    (hl : ∀ c ∈ l, Within d c) : ∀ c' ∈ c :: l, Within d c' := by
  intro c' h
  rcases List.mem_cons.1 h with rfl | h
  · exact hc
  · exact hl c' h

theorem within_append {d : Int} {l l' : List EventCommand} (hl : ∀ c ∈ l, Within d c)
    (hl' : ∀ c ∈ l', Within d c) : ∀ c ∈ l ++ l', Within d c := by
  intro c h
  rcases List.mem_append.1 h with h | h
  · exact hl c h
  · exact hl' c h

theorem within_deeper {d : Int} {l : List EventCommand} (hl : ∀ c ∈ l, Within (d + 1) c) :
    ∀ c ∈ l, Within d c := fun c hc => (hl c hc).mono (by omega)

mutual

/-- A block stands at its indentation and beyond. -/
theorem Block.commands_within (d : Int) : {choices : Bool} → (b : Block choices) →
    ∀ c ∈ b.commands d, Within d c
  | _, .nil => by simp [Block.commands]
  | _, .leaf l rest => within_append (l.commands_within d) (rest.commands_within d)
  | _, .branch params yes no rest => by
    refine within_cons ⟨rfl, Int.le_refl d⟩ ?_
    refine within_append (within_deeper (yes.commands_within (d + 1))) ?_
    refine within_cons ⟨rfl, by simp only [idleAt]; omega⟩ ?_
    refine within_append (no.commands_within d) ?_
    exact within_cons ⟨rfl, Int.le_refl d⟩ (rest.commands_within d)
  | _, .choice weight body more rest => by
    refine within_cons ⟨rfl, Int.le_refl d⟩ (within_append (body.commands_within d) ?_)
    refine within_append (more.commands_within d) ?_
    exact within_cons ⟨rfl, Int.le_refl d⟩ (rest.commands_within d)

theorem Otherwise.commands_within (d : Int) : (o : Otherwise) → ∀ c ∈ o.commands d, Within d c
  | .absent => by simp [Otherwise.commands]
  | .present b => by
    refine within_cons ⟨rfl, Int.le_refl d⟩ ?_
    refine within_append (within_deeper (b.commands_within (d + 1))) ?_
    exact within_cons ⟨rfl, by simp only [idleAt]; omega⟩ (by simp)

theorem Arms.commands_within (d : Int) : (a : Arms) → ∀ c ∈ a.commands d, Within d c
  | .done => by simp [Arms.commands]
  | .arm weight body others =>
    within_cons ⟨rfl, Int.le_refl d⟩
      (within_append (body.commands_within d) (others.commands_within d))

end

/-- A branch reaches up to the next command that is indented no further. -/
theorem passOver_append {d : Int} {l : List EventCommand} (hl : ∀ c ∈ l, Within (d + 1) c)
    {c : EventCommand} (hc : c.indent? = .ok d) (rest : List EventCommand) :
    passOver d (l ++ c :: rest) = .ok l.length := by
  induction l with
  | nil =>
      rw [List.nil_append, passOver, hc]
      simp [bind, Except.bind, pure, Except.pure]
  | cons c' l ih =>
      have hc' := hl c' (by simp)
      have hlt : d < c'.indent := by
        have := hc'.le
        omega
      rw [List.cons_append, passOver, hc'.isCommand, ih fun c hc => hl c (List.mem_cons_of_mem _ hc)]
      simp [bind, Except.bind, pure, Except.pure, hlt]

/-- A text reaches up to the next command that is no line of it. -/
theorem textLines_map (d : Int) (lines : List Json) {rest : List EventCommand}
    (h : textLines rest = .ok []) :
    textLines (lines.map (fun l => { indent := d, instruction := .textLine (lineOf l) }) ++ rest) =
      linesOf lines := by
  induction lines with
  | nil => exact h
  | cons l lines ih =>
      rw [List.map_cons, List.cons_append, textLines, ih]
      rfl

theorem textLines_plain {i : Instruction} (hi : i.IsPlain) (d : Int) (rest : List EventCommand) :
    textLines ({ indent := d, instruction := i } :: rest) = .ok [] := by
  rw [textLines]
  split
  · rename_i hl
    rw [show i = .textLine _ from hl] at hi
    exact hi.elim
  · rename_i hb
    rw [show i = .blank from hb] at hi
    exact hi.elim
  · rename_i hf
    rw [show i = .faulty .notAnObject from hf] at hi
    exact absurd rfl hi
  · rfl

/-- No block begins with a line of a text before it. -/
theorem Block.textLines_commands (d : Int) {choices : Bool} (b : Block choices)
    {rest : List EventCommand} (h : textLines rest = .ok []) :
    textLines (b.commands d ++ rest) = .ok [] := by
  cases b with
  | nil => exact h
  | leaf l tail =>
      cases l with
      | plain code isPlain params => exact textLines_plain (isPlain_instructionOf isPlain params) d _
      | text params lines => rfl
  | branch params yes no tail => rfl
  | choice weight body more tail => rfl

end EventLayer.Program
