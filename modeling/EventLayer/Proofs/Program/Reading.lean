/-
**Reading event programs.**

What the editor writes for a tree is read to the commands of the tree, whatever the parameters of
its commands are: a command whose parameters are wrong is read as one that fails when it is carried
out, and a weight that is no number counts as zero.

Main definitions:

* `Program.Reads` — the commands that a list is read to.

Main results:

* `Program.read_weight`, `Program.read_end` — the commands of random choices;
* `Program.Block.readList_flatten` — **reading what the editor writes**.
-/
import EventLayer.Proofs.Program.Tree

set_option autoImplicit false
set_option relaxedAutoImplicit false

namespace EventLayer.Program

/-! ### Lists of commands -/

/-- The commands that reading a list comes to. -/
def Reads (items : List Json) (l : List EventCommand) : Prop :=
  (EventCommand.readItems items).result = .ok l

theorem Reads.nil : Reads [] [] := rfl

theorem Reads.cons {v : Json} {c : EventCommand} {items : List Json} {l : List EventCommand}
    (h : (EventCommand.read v).result = .ok c) (h' : Reads items l) :
    Reads (v :: items) (c :: l) := by
  rw [Reads, EventCommand.readItems, Reading.result_bind_ok h, Reading.result_bind_ok h']
  rfl

/-- What a list is read to that has a first command. -/
theorem Reads.cons_inv {v : Json} {items : List Json} {l : List EventCommand}
    (h : Reads (v :: items) l) :
    ∃ c rest, (EventCommand.read v).result = .ok c ∧ Reads items rest ∧ l = c :: rest := by
  rw [Reads, EventCommand.readItems] at h
  cases hc : (EventCommand.read v).result with
  | error e =>
      change (Reading.andThen _ _).result = _ at h
      rw [Reading.andThen, hc] at h
      cases h
  | ok c =>
      rw [Reading.result_bind_ok hc] at h
      cases hrest : (EventCommand.readItems items).result with
      | error e =>
          change (Reading.andThen _ _).result = _ at h
          rw [Reading.andThen, hrest] at h
          cases h
      | ok rest =>
          rw [Reading.result_bind_ok hrest] at h
          cases h
          exact ⟨c, rest, rfl, hrest, rfl⟩

theorem Reads.append {items items' : List Json} {l l' : List EventCommand} (h : Reads items l)
    (h' : Reads items' l') : Reads (items ++ items') (l ++ l') := by
  induction items generalizing l with
  | nil =>
      cases h
      exact h'
  | cons v items ih =>
      obtain ⟨c, rest, hc, hrest, rfl⟩ := h.cons_inv
      exact .cons hc (ih hrest)

/-! ### Commands -/

/-- A command that calls no plugin. -/
theorem read_commandAt (d code : Int) (params : Json) (h : code ≠ pluginCode) :
    (EventCommand.read (commandAt d code params)).result =
      .ok { indent := d, instruction := instructionOf code params } := by
  have hcall : PluginCall.ofCommand? layerName (commandAt d code params) = .ok none := by
    simp only [PluginCall.ofCommand?, commandAt, OrderedMap.find, beq_self_eq_true, if_true,
      Option.getD_some, Json.isInt_int, beq_eq_false_iff_ne.2 h, Bool.false_eq_true, if_false]
    rfl
  simp only [commandAt] at hcall ⊢
  rw [EventCommand.read, hcall]
  rfl

/-- The parameters of a call of this layer name it. -/
theorem pluginOf_layer (rest : List Json) :
    PluginCall.pluginOf (.arr (.str layerName :: rest)) = .ok layerName := by
  have hmap : (layerName.map fun c => if c = '\\' then '/' else c) = layerName := by
    apply String.toList_injective
    rw [String.toList_map]
    decide
  change Except.ok (dropScriptEnding (lastPart (layerName.map _))) = _
  rw [hmap]
  exact congrArg Except.ok (by decide)

section Call

variable (d : Int) (name : String) (fields : List (String × Json))

/-- A call of this layer. -/
theorem ofCommand?_layer :
    PluginCall.ofCommand? layerName
        (commandAt d 357 (.arr [.str layerName, .str name, .str "", .obj fields])) =
      .ok (some ⟨layerName, name, ⟨fields⟩⟩) := by
  change (do
    if (← PluginCall.pluginOf (.arr (.str layerName :: _))) = layerName then
      return some { plugin := layerName, command := ← Except.ok name, args := ← Except.ok ⟨fields⟩ }
    else return none : Except Fault (Option PluginCall)) = _
  rw [pluginOf_layer]
  rfl

/-- The instruction of a call of this layer. -/
theorem ofFields_layer :
    Instruction.ofFields [("code", .int 357), ("indent", .int d),
      ("parameters", .arr [.str layerName, .str name, .str "", .obj fields])] =
      .plugin ⟨layerName, name, ⟨fields⟩⟩ := by
  have hparams : PluginCall.ofParams (.arr [.str layerName, .str name, .str "", .obj fields]) =
      .ok ⟨layerName, name, ⟨fields⟩⟩ := by
    rw [PluginCall.ofParams, pluginOf_layer]
    rfl
  have hread : Instruction.read (some 357)
      (.arr [.str layerName, .str name, .str "", .obj fields]) =
      .ok (.plugin ⟨layerName, name, ⟨fields⟩⟩) := by
    change (do return .plugin (← PluginCall.ofParams _) : Except Fault Instruction) = _
    rw [hparams]
    rfl
  exact Instruction.ofFields_of_ok hread

end Call

/-- A command is read to its indentation, its instruction and its part in random branches. -/
theorem result_read {d code : Int} {params : Json} {call : Option PluginCall} {mark : WeightMark}
    (hcall : PluginCall.ofCommand? layerName (commandAt d code params) = .ok call)
    (hmark : (WeightMark.read call).result = .ok mark) :
    (EventCommand.read (commandAt d code params)).result = .ok
      { indent := d
        instruction := Instruction.ofFields
          [("code", .int code), ("indent", .int d), ("parameters", params)]
        mark := mark } := by
  rw [commandAt] at hcall ⊢
  rw [EventCommand.read, hcall]
  have hindent : (liftM ((OrderedMap.find "indent"
      [("code", .int code), ("indent", .int d), ("parameters", params)]).getD (.int 0)).toInt :
      Reading Int).result = .ok d := rfl
  have hlift : (liftM (Except.ok call : Except Fault (Option PluginCall)) :
      Reading (Option PluginCall)).result = .ok call := rfl
  rw [Reading.result_bind_ok hindent, Reading.result_bind_ok hlift, Reading.result_bind_ok hmark]
  rfl

/-- Reading a weight always comes to a number. -/
theorem weight_ne_error (args : Json) (e : Fault) : (Weight.read args).result ≠ .error e := by
  intro h
  rw [Weight.read] at h
  split at h
  · cases h
  · split at h <;> cases h

theorem read_weight (d : Int) (weight : Json) :
    (EventCommand.read (commandAt d 357 (weightParams weight))).result = .ok (weightAt d weight) := by
  have hvalue : (Weight.read (.obj [("weight", weight)])).result = .ok (weightOf weight) := by
    unfold weightOf
    cases h : (Weight.read (.obj [("weight", weight)])).result with
    | ok w => rfl
    | error e => exact absurd h (weight_ne_error _ e)
  have hmark : (WeightMark.read (some ⟨layerName, weightCommand, ⟨[("weight", weight)]⟩⟩)).result =
      .ok (.weight (weightOf weight)) := by
    rw [WeightMark.read, if_pos rfl, Reading.result_bind_ok hvalue]
    rfl
  have hread := result_read (ofCommand?_layer d weightCommand [("weight", weight)]) hmark
  rw [ofFields_layer] at hread
  exact hread

theorem read_end (d : Int) :
    (EventCommand.read (commandAt d 357 endParams)).result = .ok (endAt d) := by
  have hmark : (WeightMark.read (some ⟨layerName, endCommand, ⟨[]⟩⟩)).result = .ok .close := rfl
  have hread := result_read (ofCommand?_layer d endCommand []) hmark
  rw [ofFields_layer] at hread
  exact hread

/-! ### Trees -/

theorem read_lines (d : Int) (lines : List Json) :
    Reads (lines.map (commandAt d 401))
      (lines.map fun l => { indent := d, instruction := .textLine (lineOf l) }) := by
  induction lines with
  | nil => exact .nil
  | cons l rest ih => exact .cons (read_commandAt d 401 l (by decide)) ih

theorem Leaf.reads_flatten (d : Int) (l : Leaf) : Reads (l.flatten d) (l.commands d) := by
  cases l with
  | plain code isPlain params =>
      refine .cons (read_commandAt d code params ?_) .nil
      rintro rfl
      exact absurd isPlain (by decide)
  | text params lines => exact .cons (read_commandAt d 101 params (by decide)) (read_lines d lines)

theorem reads_idle (d code : Int) (h : code = 0 ∨ code = 412) :
    (EventCommand.read (commandAt d code (.arr []))).result = .ok (idleAt d) := by
  rcases h with rfl | rfl
  · exact read_commandAt d 0 _ (by decide)
  · exact read_commandAt d 412 _ (by decide)

mutual

/-- **Reading what the editor writes.** -/
theorem Block.reads_flatten (d : Int) : {choices : Bool} → (b : Block choices) →
    Reads (b.flatten d) (b.commands d)
  | _, .nil => .nil
  | _, .leaf l rest => .append (l.reads_flatten d) (rest.reads_flatten d)
  | _, .branch params yes no rest => by
    refine .cons (read_commandAt d 111 params (by decide)) (.append (yes.reads_flatten (d + 1)) ?_)
    refine .cons (reads_idle (d + 1) 0 (.inl rfl)) (.append (no.reads_flatten d) ?_)
    exact .cons (reads_idle d 412 (.inr rfl)) (rest.reads_flatten d)
  | _, .choice weight body more rest => by
    refine .cons (read_weight d weight) (.append (body.reads_flatten d) ?_)
    exact .append (more.reads_flatten d) (.cons (read_end d) (rest.reads_flatten d))

theorem Otherwise.reads_flatten (d : Int) : (o : Otherwise) → Reads (o.flatten d) (o.commands d)
  | .absent => .nil
  | .present b => by
    refine .cons (read_commandAt d 411 _ (by decide)) (.append (b.reads_flatten (d + 1)) ?_)
    exact .cons (reads_idle (d + 1) 0 (.inl rfl)) .nil

theorem Arms.reads_flatten (d : Int) : (a : Arms) → Reads (a.flatten d) (a.commands d)
  | .done => .nil
  | .arm weight body others =>
    .cons (read_weight d weight) (.append (body.reads_flatten d) (others.reads_flatten d))

end

/-- The list of a tree is read to the commands of the tree. -/
theorem Block.readList_flatten (d : Int) (b : Block true) :
    (EventCommand.readList (.arr (b.flatten d))).result = .ok (b.commands d) := by
  have hitems : ((Json.arr (b.flatten d)).orElse (.arr [])).elements = .ok (b.flatten d) := by
    cases b.flatten d <;> rfl
  rw [EventCommand.readList, hitems]
  exact b.reads_flatten d

end EventLayer.Program
