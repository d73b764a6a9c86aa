/-
**What the table of a list says.**

The table of a list can be described without the pass that makes it.  A weight command leads to the first
later command that is indented less, or that is a weight or closing command of its own indentation, and to
the end of the list where there is none.  Two weight commands belong to one set if they are indented alike
and nothing between them closes the set.  A set lists its branches with their weights, and ends at the
first closing command behind the last of them.

All this is said of the commands that a list is read to.  What the editor writes is read to commands that
mirror it, and it can be read as soon as its calls can be.

Main definitions:

* `EventCommand.LeadsTo` — where a branch ends, or the list;
* `WeightTable.Charts` — a table says of a list what can be said of it without the pass;
* `Mirrors` — a command as the editor writes it, and what it is read to.

Main results:

* `WeightTable.charts_build` — the table of a list without negative indentation charts it;
* `charts_read` — **so does the table of what the editor writes, which can be read if its calls can be**.
-/
import EventLayer.Proofs.Weights.Sets
import EventLayer.Proofs.Weights.Texts

set_option autoImplicit false
set_option relaxedAutoImplicit false

namespace EventLayer

/-- The position of the command that ends the branch at a position, or the length of the list where none
does. -/
def EventCommand.LeadsTo (l : List EventCommand) (d : Int) (i j : Nat) : Prop :=
  Stops l d i j ∨ (Unended l d i ∧ j = l.length)

/-- A branch leads to one position only. -/
theorem EventCommand.LeadsTo.unique {l : List EventCommand} {d : Int} {i j j' : Nat} (h : LeadsTo l d i j)
    (h' : LeadsTo l d i j') : j = j' := by
  rcases h with hstops | ⟨hunended, rfl⟩ <;> rcases h' with hstops' | ⟨hunended', rfl⟩
  · exact hstops.unique hstops'
  · exact absurd hunended' hstops.not_unended
  · exact absurd hunended hstops'.not_unended
  · rfl

namespace WeightTable

open EventCommand

variable {l : List EventCommand}

/-- A table says of a list what can be said of it without the pass. -/
structure Charts (l : List EventCommand) (t : WeightTable) : Prop where
  /-- A weight command has a marker, which leads to where its branch ends, or to the end of the list. -/
  leads : ∀ (i : Nat) (c : EventCommand), l[i]? = some c → c.IsWeight → ∃ m, t.marker? i = some m ∧
    m.index = i ∧ m.depth = c.indent ∧ m.isEnd = false ∧ ∀ j, m.nextStop = j ↔ LeadsTo l c.indent i j
  /-- Two weight commands belong to one set exactly if nothing between them closes it. -/
  together : ∀ (i j : Nat) (c c' : EventCommand) (m m' : Marker), i < j → l[i]? = some c → c.IsWeight →
    l[j]? = some c' → c'.IsWeight → t.marker? i = some m → t.marker? j = some m' →
      (m.set = m'.set ↔ c.indent = c'.indent ∧ Adjoins l c.indent i j)
  /-- A set lists the weight commands that belong to it, in increasing order and with their weights. -/
  lists : ∀ (k : Nat) (s : BranchSet), t.sets[k]? = some s → s.Of l ∧ ∀ i : Nat, i ∈ s.branches ↔
    ∃ c m, l[i]? = some c ∧ c.IsWeight ∧ c.indent = s.depth ∧ t.marker? i = some m ∧ m.set = some k
  /-- A set ends at the first closing command behind its last branch, unless the indentation falls below
  its own before. -/
  ends : ∀ s ∈ t.sets, ∃ last, s.branches.getLast? = some last ∧
    ∀ e, s.endIndex = some e ↔ EndsAt l s.depth last e

/-- **The table of a list without negative indentation charts it.** -/
theorem charts_build (hlevel : ∀ c ∈ l, 0 ≤ c.indent) : Charts l (build l) where
  leads i c hc hweight := by
    obtain ⟨m, -, hm, hmem, hindex, hdepth, hend, -⟩ := exists_marker_build hc hweight
    have hstop : LeadsTo l c.indent i m.nextStop := by
      rcases (marker_build hmem).2 with hleads | ⟨-, hunended, hstop⟩
      · rw [Marker.Leads, if_neg (by simp [hend]), hdepth, hindex] at hleads
        exact Or.inl hleads
      · have hnonneg := hlevel c (List.mem_of_getElem? hc)
        rw [hdepth, hindex] at hunended
        rw [hdepth, if_neg (by omega)] at hstop
        exact Or.inr ⟨hunended, hstop⟩
    exact ⟨m, hm, hindex, hdepth, hend, fun j => ⟨fun hj => hj ▸ hstop, hstop.unique⟩⟩
  together i j c c' m m' hlt hc hweight hc' hweight' hm hm' := sameSet_iff hlt hc hweight hc' hweight' hm hm'
  lists k s hs := by
    refine ⟨set_of_mem_build (List.mem_of_getElem? hs), fun i => ⟨fun hi => ?_, ?_⟩⟩
    · obtain ⟨c, hc, hindent, hweight⟩ := (set_build (List.mem_of_getElem? hs)).1.level i hi
      obtain ⟨m, -, hm, hmem, hindex, -, hend, -⟩ := exists_marker_build hc hweight
      exact ⟨c, m, hc, hweight, hindent, hm, (belongs_build hmem hend hs).2 (hindex.symm ▸ hi)⟩
    · rintro ⟨c, m, hc, hweight, -, hm, hset⟩
      obtain ⟨hmem, hindex, hend, -⟩ := marker?_of_isWeight hc hweight hm
      exact hindex ▸ (belongs_build hmem hend hs).1 hset
  ends s hs := by
    have hne := (set_of_mem_build hs).nonempty
    have hlast := List.getLast?_eq_some_getLast hne
    exact ⟨_, hlast, fun _ => BranchSet.endIndex_eq_some_iff (set_build hs).2 hlast⟩

end WeightTable

/-! ### Lists as the editor writes them -/

/-- The indentation that the editor gives a command; what is no object has none. -/
def indentOf (command : Json) : Json :=
  match command with
  | .obj fields => (OrderedMap.find "indent" fields).getD (.int 0)
  | _ => .int 0

/-- The editor's command closes a set of this layer. -/
def IsEndCall (command : Json) : Prop :=
  ∃ call, PluginCall.ofCommand? layerName command = .ok (some call) ∧ call.command = endCommand

/-- A command as the editor writes it, and what it is read to: the indentation is the one given, a call of
this layer's weight command gives what its text counts for, and a call of its closing command closes. -/
structure Mirrors (command : Json) (c : EventCommand) : Prop where
  indent : indentOf command = .int c.indent
  weight : ∀ w, c.mark = .weight w ↔ ∃ text, weightText? command = some text ∧ w = Weight.value text
  close : c.mark = .close ↔ IsEndCall command

section Written

variable {items : List Json} {commands : List EventCommand} {command : Json} {c : EventCommand}

theorem weightText?_of_call {call : PluginCall}
    (h : PluginCall.ofCommand? layerName command = .ok (some call)) :
    weightText? command = if call.command = weightCommand then some (.obj call.args.entries) else none := by
  unfold weightText?
  rw [h]

/-- What is read of a command that makes no call of this layer. -/
theorem mirrors_of_none (hcall : PluginCall.ofCommand? layerName command = .ok none)
    (hindent : indentOf command = .int c.indent) (hmark : c.mark = .plain) : Mirrors command c where
  indent := hindent
  weight w := by
    have htext : weightText? command = none := by
      unfold weightText?
      rw [hcall]
    rw [hmark, htext]
    refine iff_of_false nofun ?_
    rintro ⟨text, h, -⟩
    cases h
  close := by
    rw [hmark]
    refine iff_of_false nofun ?_
    rintro ⟨call, h, -⟩
    rw [hcall] at h
    cases h

/-- What is read of a command that calls this layer. -/
theorem mirrors_of_call {call : PluginCall}
    (hcall : PluginCall.ofCommand? layerName command = .ok (some call))
    (hindent : indentOf command = .int c.indent)
    (hmark : c.mark = if call.command = weightCommand then .weight (Weight.value (.obj call.args.entries))
      else if call.command = endCommand then .close else .plain) : Mirrors command c where
  indent := hindent
  weight w := by
    rw [hmark, weightText?_of_call hcall]
    by_cases hweight : call.command = weightCommand
    · rw [if_pos hweight, if_pos hweight]
      constructor
      · exact fun heq => ⟨_, rfl, (WeightMark.weight.inj heq).symm⟩
      · rintro ⟨text, htext, hw⟩
        rw [hw, Option.some.inj htext]
    · rw [if_neg hweight, if_neg hweight]
      refine iff_of_false ?_ ?_
      · intro heq
        split at heq <;> cases heq
      · rintro ⟨text, h, -⟩
        cases h
  close := by
    have hdistinct : weightCommand ≠ endCommand := by decide
    rw [hmark]
    constructor
    · intro heq
      refine ⟨call, hcall, ?_⟩
      split at heq
      · cases heq
      · split at heq
        · assumption
        · cases heq
    · rintro ⟨call', hcall', hend⟩
      rw [hcall] at hcall'
      cases hcall'
      rw [if_neg (by rw [hend]; exact hdistinct.symm), if_pos hend]

/-- What a call marks can be read whatever its arguments are. -/
theorem exists_markOf (call : Option PluginCall) : ∃ mark, (WeightMark.read call).result = .ok mark := by
  cases call with
  | none => exact ⟨.plain, rfl⟩
  | some call =>
      unfold WeightMark.read
      dsimp only
      split
      · exact ⟨_, by rw [Reading.result_bind_ok (Weight.result_read _), Reading.result_pure]⟩
      · split <;> exact ⟨_, rfl⟩

/-- **A command with an indentation can be read exactly if its call can be, and mirrors what was
written.** -/
theorem read_written {n : Int} (hindent : indentOf command = .int n) :
    ((∃ c, (EventCommand.read command).result = .ok c) ↔
      ∃ call, PluginCall.ofCommand? layerName command = .ok call) ∧
    ∀ c, (EventCommand.read command).result = .ok c → Mirrors command c := by
  cases command with
  | obj fields =>
      have hn : (liftM ((OrderedMap.find "indent" fields).getD (.int 0)).toInt :
          Reading Int).result = .ok n := by
        rw [show (OrderedMap.find "indent" fields).getD (.int 0) = .int n from hindent]
        rfl
      cases hcall : PluginCall.ofCommand? layerName (.obj fields) with
      | error e =>
          have hfails : (EventCommand.read (.obj fields)).result = .error e := by
            rw [EventCommand.read, Reading.result_bind_ok hn, hcall]
            rfl
          rw [hfails]
          refine ⟨iff_of_false ?_ ?_, fun c hc => ?_⟩
          · rintro ⟨c, hc⟩
            cases hc
          · rintro ⟨call, hok⟩
            cases hok
          · cases hc
      | ok call =>
          have hlift : (liftM (Except.ok call : Except Fault (Option PluginCall)) :
              Reading (Option PluginCall)).result = .ok call := rfl
          have hread : ∀ {mark}, (WeightMark.read call).result = .ok mark →
              (EventCommand.read (.obj fields)).result =
                .ok { indent := n, instruction := Instruction.ofFields fields, mark } := by
            intro mark hmark
            rw [EventCommand.read, Reading.result_bind_ok hn, hcall, Reading.result_bind_ok hlift,
              Reading.result_bind_ok hmark]
            rfl
          obtain ⟨mark, hmark⟩ := exists_markOf call
          refine ⟨iff_of_true ⟨_, hread hmark⟩ ⟨_, rfl⟩, fun c hc => ?_⟩
          rw [hread hmark] at hc
          cases hc
          cases call with
          | none => exact mirrors_of_none hcall hindent (Except.ok.inj hmark).symm
          | some call => exact mirrors_of_call hcall hindent (mark_of_call hmark)
  | null | bool | int | float | str | arr =>
      refine ⟨iff_of_true ⟨_, rfl⟩ ⟨none, rfl⟩, fun c hc => ?_⟩
      cases hc
      exact mirrors_of_none rfl rfl rfl

/-- A list with indentations can be read exactly if the calls of its commands can be, and mirrors what was
written. -/
theorem reads_written (hindent : ∀ command ∈ items, ∃ n : Nat, indentOf command = .int n) :
    ((∃ commands, Program.Reads items commands) ↔
      ∀ command ∈ items, ∃ call, PluginCall.ofCommand? layerName command = .ok call) ∧
    ∀ commands, Program.Reads items commands →
      List.Forall₂ Mirrors items commands ∧ ∀ c ∈ commands, 0 ≤ c.indent := by
  induction items with
  | nil =>
      refine ⟨iff_of_true ⟨[], .nil⟩ nofun, fun commands hread => ?_⟩
      cases hread
      exact ⟨.nil, List.forall_mem_nil _⟩
  | cons command rest ih =>
      obtain ⟨n, hn⟩ := hindent command List.mem_cons_self
      obtain ⟨hcan, hmirrors⟩ := read_written hn
      obtain ⟨hcan', hmirrors'⟩ := ih fun v hv => hindent v (List.mem_cons_of_mem _ hv)
      constructor
      · rw [List.forall_mem_cons, ← hcan, ← hcan']
        constructor
        · rintro ⟨commands, hread⟩
          obtain ⟨c, commands', hc, hrest, -⟩ := hread.cons_inv
          exact ⟨⟨c, hc⟩, commands', hrest⟩
        · rintro ⟨⟨c, hc⟩, commands', hrest⟩
          exact ⟨c :: commands', .cons hc hrest⟩
      · intro commands hread
        obtain ⟨c, commands', hc, hrest, rfl⟩ := hread.cons_inv
        have hmirror := hmirrors c hc
        obtain ⟨hforall, hlevel⟩ := hmirrors' commands' hrest
        refine ⟨.cons hmirror hforall, List.forall_mem_cons.2 ⟨?_, hlevel⟩⟩
        have hsame := hmirror.indent
        rw [hn] at hsame
        rw [← Json.int.inj hsame]
        exact Int.natCast_nonneg n

/-- **A list can be read exactly if the calls of its commands can be, and the table of what it is read to
charts it.** -/
theorem charts_read (hindent : ∀ command ∈ items, ∃ n : Nat, indentOf command = .int n) :
    ((∃ commands, Program.Reads items commands) ↔
      ∀ command ∈ items, ∃ call, PluginCall.ofCommand? layerName command = .ok call) ∧
    ∀ commands, Program.Reads items commands →
      List.Forall₂ Mirrors items commands ∧ WeightTable.Charts commands (WeightTable.build commands) := by
  obtain ⟨hcan, hmirrors⟩ := reads_written hindent
  refine ⟨hcan, fun commands hread => ?_⟩
  obtain ⟨hforall, hlevel⟩ := hmirrors commands hread
  exact ⟨hforall, WeightTable.charts_build hlevel⟩

/-- Two sets inside each other, of which the inner one is left open and the outer one is closed by a command
that is indented like it. -/
def nestedSets : List Json :=
  [Program.commandAt 0 357 (Program.weightParams (.str "1")),
    Program.commandAt 1 357 (Program.weightParams (.str "2")),
    Program.commandAt 1 230 (.arr [.int 1]),
    Program.commandAt 0 357 (Program.weightParams (.str "3")),
    Program.commandAt 0 357 Program.endParams]

/-- They can be read, and the table of what they are read to charts it. -/
theorem charts_read_nestedSets : ∃ commands, Program.Reads nestedSets commands ∧
    List.Forall₂ Mirrors nestedSets commands ∧
      WeightTable.Charts commands (WeightTable.build commands) := by
  have hindent : ∀ command ∈ nestedSets, ∃ n : Nat, indentOf command = .int n := by
    unfold nestedSets
    simp only [List.forall_mem_cons]
    exact ⟨⟨0, rfl⟩, ⟨1, rfl⟩, ⟨1, rfl⟩, ⟨0, rfl⟩, ⟨0, rfl⟩, List.forall_mem_nil _⟩
  have hreads : Program.Reads nestedSets _ :=
    .cons (Program.read_weight 0 (.str "1")) (.cons (Program.read_weight 1 (.str "2"))
      (.cons (Program.read_commandAt 1 230 (.arr [.int 1]) (by decide))
        (.cons (Program.read_weight 0 (.str "3")) (.cons (Program.read_end 0) .nil))))
  exact ⟨_, hreads, (charts_read hindent).2 _ hreads⟩

end Written

end EventLayer
