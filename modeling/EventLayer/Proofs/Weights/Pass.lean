/-
**What the pass over a command list finds.**

The table of a list is made in one pass: a weight command joins the open set at its indentation or opens
one, and the marker of the branch before it is told only then where to go on.  What comes out can be said
without the pass.  A branch lasts until the first later command of less indentation, or the first weight
or closing command of the same one; its marker goes on there, or at the end of the list.  Only a branch
at a negative indentation that no command ends is forgotten: its marker goes on at the start of the list.

The sets hold the weight commands of the list, each with the weight that it gives, in order.

Main definitions:

* `EventCommand.EndsBranch` — commands that end a branch;
* `EventCommand.Stops`, `EventCommand.Unended` — where a branch ends, and that it never does;
* `EventCommand.LeftOpen` — a branch below indentation zero that never ends;
* `Marker.Of`, `BranchSet.Of` — a marker and a set describe commands of a list;
* `WeightTable.Follows` — markers and open sets that go by a list up to a bound.

Main results:

* `WeightTable.Pass.follows_foldl` — the pass goes by the list;
* `WeightTable.marker_build` — **a marker leads to the command that ends its branch**;
* `WeightTable.marker_jumps` — a marker leads forward, unless its branch is left open;
* `WeightTable.set_of_mem_build` — the sets hold the weights of the list;
* `WeightTable.exists_marker_build` — every weight command has a marker and a set.
-/
import EventLayer.WeightTable
import Mathlib.Data.List.Forall2

set_option autoImplicit false
set_option relaxedAutoImplicit false

namespace EventLayer

/-! ### Where branches end -/

namespace EventCommand

/-- A command ends the branch before it at an indentation: it is indented less, or it is a weight or
closing command of the same indentation. -/
def EndsBranch (d : Int) (c : EventCommand) : Prop := c.indent < d ∨ (c.indent = d ∧ c.mark ≠ .plain)

instance (d : Int) : DecidablePred (EndsBranch d) := fun c =>
  inferInstanceAs (Decidable (c.indent < d ∨ (c.indent = d ∧ c.mark ≠ .plain)))

/-- A command gives a branch its weight. -/
def IsWeight (c : EventCommand) : Prop := ∃ w, c.mark = .weight w

/-- No command strictly between two positions ends a branch at an indentation. -/
def Undisturbed (l : List EventCommand) (d : Int) (i j : Nat) : Prop :=
  ∀ k c, i < k → k < j → l[k]? = some c → ¬EndsBranch d c

/-- The branch that begins at a position ends at a later one, and not before. -/
structure Stops (l : List EventCommand) (d : Int) (i j : Nat) : Prop where
  lt : i < j
  ends : ∃ c, l[j]? = some c ∧ EndsBranch d c
  first : Undisturbed l d i j

/-- No command ends the branch that begins at a position. -/
def Unended (l : List EventCommand) (d : Int) (i : Nat) : Prop := Undisturbed l d i l.length

/-- A branch is left open: it is indented below zero, and no command ends it. -/
def LeftOpen (l : List EventCommand) (i : Nat) : Prop :=
  ∃ c, l[i]? = some c ∧ c.IsWeight ∧ c.indent < 0 ∧ Unended l c.indent i

variable {l : List EventCommand} {d : Int} {i j : Nat}

theorem Undisturbed.succ {c : EventCommand} (h : Undisturbed l d i j) (hc : l[j]? = some c)
    (hends : ¬EndsBranch d c) : Undisturbed l d i (j + 1) := by
  intro k c' hik hkj hk
  rcases Nat.lt_succ_iff_lt_or_eq.1 hkj with hlt | rfl
  · exact h k c' hik hlt hk
  · rw [hc] at hk
    cases hk
    exact hends

theorem undisturbed_self : Undisturbed l d i (i + 1) := by
  intro k _ hik hkj
  omega

theorem Stops.not_unended (h : Stops l d i j) : ¬Unended l d i := by
  intro hunended
  obtain ⟨c, hc, hends⟩ := h.ends
  exact hunended j c h.lt (List.getElem?_eq_some_iff.1 hc).1 hc hends

/-- A list that is not indented below zero leaves no branch open. -/
theorem not_leftOpen (h : ∀ c ∈ l, 0 ≤ c.indent) : ¬LeftOpen l i := by
  rintro ⟨c, hc, -, hneg, -⟩
  have hindent := h c (List.mem_of_getElem? hc)
  omega

end EventCommand

/-- A marker describes the command at its position. -/
def Marker.Of (l : List EventCommand) (m : Marker) : Prop :=
  ∃ c, l[m.index]? = some c ∧ c.indent = m.depth ∧ (if m.isEnd then c.mark = .close else c.IsWeight)

/-- A marker leads where it is to lead: that of a branch to the end of the branch, and a closing command
to what comes behind it. -/
def Marker.Leads (l : List EventCommand) (m : Marker) : Prop :=
  if m.isEnd then m.nextStop = m.index + 1 else EventCommand.Stops l m.depth m.index m.nextStop

/-- A set holds weight commands of a list, in order, each with the weight that it gives. -/
structure BranchSet.Of (l : List EventCommand) (s : BranchSet) : Prop where
  nonempty : s.branches ≠ []
  increasing : s.branches.Pairwise (· < ·)
  weights : List.Forall₂ (fun b w => ∃ c, l[b]? = some c ∧ c.mark = .weight w) s.branches s.weights

namespace WeightTable

open EventCommand

/-! ### Markers whose place to go on at is found later -/

/-- The markers of some sets go on at a stop. -/
def release (closed : List OpenSet) (stop : Nat) (m : Marker) : Marker :=
  if closed.any (·.latest == m.index) then { m with nextStop := stop } else m

section Release

variable {closed : List OpenSet} {stop : Nat} {m : Marker}

@[simp] theorem release_index : (release closed stop m).index = m.index := by
  unfold release
  split <;> rfl

@[simp] theorem release_depth : (release closed stop m).depth = m.depth := by
  unfold release
  split <;> rfl

@[simp] theorem release_isEnd : (release closed stop m).isEnd = m.isEnd := by
  unfold release
  split <;> rfl

@[simp] theorem release_set : (release closed stop m).set = m.set := by
  unfold release
  split <;> rfl

theorem release_nil (stop : Nat) : release [] stop = id := rfl

theorem release_of_mem {o : OpenSet} (ho : o ∈ closed) (hm : o.latest = m.index) :
    release closed stop m = { m with nextStop := stop } :=
  if_pos (List.any_eq_true.2 ⟨o, ho, by simpa using hm⟩)

theorem release_of_forall (h : ∀ o ∈ closed, o.latest ≠ m.index) : release closed stop m = m := by
  refine if_neg ?_
  simpa using h

theorem markers_setStop (o : OpenSet) (t : WeightTable) :
    (t.setStop o.latest stop).markers = t.markers.map (release [o] stop) := by
  refine List.map_congr_left fun m _ => ?_
  by_cases hm : m.index = o.latest
  · rw [if_pos hm, release_of_mem (List.mem_singleton.2 rfl) hm.symm]
  · rw [if_neg hm, release_of_forall (by simpa using fun h => hm h.symm)]

theorem foldl_setStop (closed : List OpenSet) (stop : Nat) (t : WeightTable) :
    (closed.foldl (fun t o => t.setStop o.latest stop) t).markers = t.markers.map (release closed stop) ∧
      (closed.foldl (fun t o => t.setStop o.latest stop) t).sets = t.sets := by
  induction closed generalizing t with
  | nil => exact ⟨by rw [release_nil, List.map_id]; rfl, rfl⟩
  | cons o rest ih =>
      obtain ⟨hmarkers, hsets⟩ := ih (t.setStop o.latest stop)
      refine ⟨?_, hsets⟩
      rw [List.foldl_cons, hmarkers, markers_setStop, List.map_map]
      refine List.map_congr_left fun m _ => ?_
      rw [Function.comp_apply]
      by_cases hm : o.latest = m.index
      · have hall : release (o :: rest) stop m = { m with nextStop := stop } :=
          release_of_mem List.mem_cons_self hm
        rw [hall, release_of_mem (List.mem_singleton.2 rfl) hm]
        unfold release
        split <;> rfl
      · have hone : release [o] stop m = m := release_of_forall (by simpa using hm)
        rw [hone]
        simp only [release, List.any_cons, beq_eq_false_iff_ne.2 hm, Bool.false_or]

end Release

/-- Open sets and markers that go by a list up to a bound: the latest branch of an open set has not ended,
and every marker leads to the end of its branch or waits for it. -/
structure Follows (l : List EventCommand) (bound : Nat) (sets : List OpenSet) (markers : List Marker) :
    Prop where
  unique : ∀ o ∈ sets, ∀ o' ∈ sets, o.depth = o'.depth → o = o'
  opened : ∀ o ∈ sets, ∃ c, l[o.latest]? = some c ∧ c.indent = o.depth ∧ c.IsWeight
  lt : ∀ o ∈ sets, o.latest < bound
  quiet : ∀ o ∈ sets, Undisturbed l o.depth o.latest bound
  marks : ∀ m ∈ markers, m.Of l ∧ m.index < bound
  leads : ∀ m ∈ markers,
    m.Leads l ∨ (m.isEnd = false ∧ m.nextStop = 0 ∧ ∃ o ∈ sets, o.latest = m.index)

variable {l : List EventCommand} {bound : Nat} {sets sets' closed : List OpenSet} {markers : List Marker}

theorem follows_start : Follows l 0 [] [] where
  unique := nofun
  opened := nofun
  lt := nofun
  quiet := nofun
  marks := nofun
  leads := nofun

/-- The marker of the latest branch of an open set is that of a weight command at its indentation. -/
theorem Follows.own (h : Follows l bound sets markers) {o : OpenSet} (ho : o ∈ sets) {m : Marker}
    (hm : m ∈ markers) (hindex : o.latest = m.index) : m.isEnd = false ∧ m.depth = o.depth := by
  obtain ⟨c, hc, hindent, w, hw⟩ := h.opened o ho
  obtain ⟨⟨c', hc', hindent', hmark⟩, -⟩ := h.marks m hm
  rw [← hindex, hc] at hc'
  cases hc'
  refine ⟨?_, hindent'.symm.trans hindent⟩
  cases hend : m.isEnd with
  | false => rfl
  | true =>
      rw [if_pos hend, hw] at hmark
      cases hmark

/-- Sets are closed by the command at the bound: the markers of their latest branches lead to it. -/
theorem Follows.release {c : EventCommand} (h : Follows l bound sets markers) (hc : l[bound]? = some c)
    (hkept : ∀ o ∈ sets', o ∈ sets) (hsplit : ∀ o ∈ sets, o ∈ sets' ∨ o ∈ closed)
    (hclosed : ∀ o ∈ closed, o ∈ sets ∧ EndsBranch o.depth c) :
    Follows l bound sets' (markers.map (WeightTable.release closed bound)) where
  unique o ho o' ho' := h.unique o (hkept o ho) o' (hkept o' ho')
  opened o ho := h.opened o (hkept o ho)
  lt o ho := h.lt o (hkept o ho)
  quiet o ho := h.quiet o (hkept o ho)
  marks := by
    intro m hm
    obtain ⟨m', hm', rfl⟩ := List.mem_map.1 hm
    simpa only [Marker.Of, release_index, release_depth, release_isEnd] using h.marks m' hm'
  leads := by
    intro m hm
    obtain ⟨m', hm', rfl⟩ := List.mem_map.1 hm
    by_cases hlatest : ∃ o ∈ closed, o.latest = m'.index
    · obtain ⟨o, ho, hindex⟩ := hlatest
      obtain ⟨hopen, hends⟩ := hclosed o ho
      obtain ⟨hend, hdepth⟩ := h.own hopen hm' hindex
      refine Or.inl ?_
      rw [release_of_mem ho hindex, Marker.Leads, if_neg (by simp [hend])]
      refine ⟨hindex ▸ h.lt o hopen, ⟨c, hc, hdepth ▸ hends⟩, ?_⟩
      exact hindex ▸ hdepth ▸ h.quiet o hopen
    · have hother : ∀ o ∈ closed, o.latest ≠ m'.index := fun o ho hindex => hlatest ⟨o, ho, hindex⟩
      rw [release_of_forall hother]
      rcases h.leads m' hm' with hleads | ⟨hend, hstop, o, ho, hindex⟩
      · exact Or.inl hleads
      · refine Or.inr ⟨hend, hstop, o, ?_, hindex⟩
        exact (hsplit o ho).resolve_right fun hmem => hother o hmem hindex

/-- The command at the bound ends no open set and adds no marker. -/
theorem Follows.pass {c : EventCommand} (h : Follows l bound sets markers) (hc : l[bound]? = some c)
    (hopen : ∀ o ∈ sets, ¬EndsBranch o.depth c) : Follows l (bound + 1) sets markers where
  unique := h.unique
  opened := h.opened
  lt o ho := Nat.lt_succ_of_lt (h.lt o ho)
  quiet o ho := (h.quiet o ho).succ hc (hopen o ho)
  marks m hm := ⟨(h.marks m hm).1, Nat.lt_succ_of_lt (h.marks m hm).2⟩
  leads := h.leads

/-- A marker is added at the bound: that of a closing command, or of the latest branch of a set. -/
theorem Follows.push {c : EventCommand} {m : Marker} (h : Follows l bound sets markers)
    (hc : l[bound]? = some c) (hopen : ∀ o ∈ sets, ¬EndsBranch o.depth c) (hm : m.Of l)
    (hindex : m.index = bound) (hleads : m.Leads l) : Follows l (bound + 1) sets (markers ++ [m]) := by
  have hpass := h.pass hc hopen
  refine { hpass with marks := ?_, leads := ?_ }
  · intro m' hm'
    rcases List.mem_append.1 hm' with hm' | hm'
    · exact hpass.marks m' hm'
    · cases List.mem_singleton.1 hm'
      exact ⟨hm, by omega⟩
  · intro m' hm'
    rcases List.mem_append.1 hm' with hm' | hm'
    · exact hpass.leads m' hm'
    · cases List.mem_singleton.1 hm'
      exact Or.inl hleads

/-- A weight command at the bound opens a branch. -/
theorem Follows.pushOpen {c : EventCommand} {o : OpenSet} {set : Option Nat}
    (h : Follows l bound sets markers) (hc : l[bound]? = some c) (hweight : c.IsWeight)
    (hopen : ∀ o ∈ sets, ¬EndsBranch o.depth c) (ho : o.depth = c.indent) (hlatest : o.latest = bound)
    (hsets : ∀ q, q ∈ sets' ↔ q ∈ sets ∨ q = o) :
    Follows l (bound + 1) sets' (markers ++ [⟨bound, c.indent, false, set, 0⟩]) where
  unique := by
    intro q hq q' hq' hsame
    -- an open set at the indentation of a weight command would have been ended by it
    have hnew : ∀ q ∈ sets, q.depth ≠ c.indent := by
      intro q hq hdepth
      refine hopen q hq (Or.inr ⟨hdepth.symm, ?_⟩)
      obtain ⟨w, hw⟩ := hweight
      rw [hw]
      exact nofun
    rcases (hsets q).1 hq with hq | rfl
    · rcases (hsets q').1 hq' with hq' | rfl
      · exact h.unique q hq q' hq' hsame
      · exact absurd (hsame.trans ho) (hnew q hq)
    · rcases (hsets q').1 hq' with hq' | rfl
      · exact absurd (hsame.symm.trans ho) (hnew q' hq')
      · rfl
  opened := by
    intro q hq
    rcases (hsets q).1 hq with hq | rfl
    · exact h.opened q hq
    · exact ⟨c, by rw [hlatest, hc], ho.symm, hweight⟩
  lt := by
    intro q hq
    rcases (hsets q).1 hq with hq | rfl
    · exact Nat.lt_succ_of_lt (h.lt q hq)
    · omega
  quiet := by
    intro q hq
    rcases (hsets q).1 hq with hq | rfl
    · exact (h.quiet q hq).succ hc (hopen q hq)
    · exact hlatest ▸ undisturbed_self
  marks := by
    intro m hm
    rcases List.mem_append.1 hm with hm | hm
    · exact ⟨(h.marks m hm).1, Nat.lt_succ_of_lt (h.marks m hm).2⟩
    · cases List.mem_singleton.1 hm
      exact ⟨⟨c, hc, rfl, hweight⟩, Nat.lt_succ_self _⟩
  leads := by
    intro m hm
    rcases List.mem_append.1 hm with hm | hm
    · rcases h.leads m hm with hleads | ⟨hend, hstop, q, hq, hindex⟩
      · exact Or.inl hleads
      · exact Or.inr ⟨hend, hstop, q, (hsets q).2 (Or.inl hq), hindex⟩
    · cases List.mem_singleton.1 hm
      exact Or.inr ⟨rfl, rfl, o, (hsets o).2 (Or.inr rfl), hlatest⟩

/-! ### The pass -/

namespace Pass

variable {p : Pass} {depth : Int} {c : EventCommand}

/-- A pass goes by a list. -/
def Follows (l : List EventCommand) (p : Pass) : Prop :=
  WeightTable.Follows l p.index p.pending p.table.markers

theorem closeDeeper_markers (depth : Int) (stop : Nat) (p : Pass) :
    (p.closeDeeper depth stop).table.markers =
      p.table.markers.map (release (p.pending.filter fun o => depth < o.depth) stop) :=
  (foldl_setStop _ _ _).1

theorem openAt?_eq_some {o : OpenSet} (ho : p.openAt? depth = some o) :
    o ∈ p.pending ∧ o.depth = depth := by
  refine ⟨List.mem_of_find?_eq_some ho, ?_⟩
  simpa using List.find?_some ho

theorem openAt?_eq_none (ho : p.openAt? depth = none) : ∀ o ∈ p.pending, o.depth ≠ depth := by
  intro o hmem
  simpa using List.find?_eq_none.1 ho o hmem

/-- What is less indented than an open set ends it. -/
theorem Follows.closeDeeper (h : p.Follows l) (hc : l[p.index]? = some c) :
    (p.closeDeeper c.indent p.index).Follows l := by
  rw [Follows, closeDeeper_markers]
  refine h.release hc (fun o ho => (List.mem_filter.1 ho).1) ?_ ?_
  · intro o ho
    by_cases hdeep : c.indent < o.depth
    · exact Or.inr (List.mem_filter.2 ⟨ho, by simpa using hdeep⟩)
    · exact Or.inl (List.mem_filter.2 ⟨ho, by simpa using hdeep⟩)
  · intro o ho
    obtain ⟨hmem, hdeep⟩ := List.mem_filter.1 ho
    exact ⟨hmem, Or.inl (by simpa using hdeep)⟩

theorem shallow_closeDeeper (depth : Int) (stop : Nat) (p : Pass) :
    ∀ o ∈ (p.closeDeeper depth stop).pending, o.depth ≤ depth := by
  intro o ho
  simpa using (List.mem_filter.1 ho).2

/-- The set at the indentation of a weight or closing command ends there, and so no set that stays open is
ended by the command. -/
theorem Follows.closeAt (h : p.Follows l) (hshallow : ∀ o ∈ p.pending, o.depth ≤ c.indent)
    (hc : l[p.index]? = some c) (hmark : c.mark ≠ .plain) {o : OpenSet}
    (ho : p.openAt? c.indent = some o) :
    WeightTable.Follows l p.index (p.pending.filter fun o => o.depth != c.indent)
        (p.table.setStop o.latest p.index).markers ∧
      ∀ q ∈ p.pending.filter fun o => o.depth != c.indent, ¬EndsBranch q.depth c := by
  obtain ⟨hmem, hdepth⟩ := openAt?_eq_some ho
  constructor
  · rw [markers_setStop]
    refine WeightTable.Follows.release h hc (fun q hq => (List.mem_filter.1 hq).1) ?_ ?_
    · intro q hq
      by_cases hat : q.depth = c.indent
      · exact Or.inr (List.mem_singleton.2 (h.unique q hq o hmem (hat.trans hdepth.symm)))
      · exact Or.inl (List.mem_filter.2 ⟨hq, by simpa using hat⟩)
    · intro q hq
      cases List.mem_singleton.1 hq
      exact ⟨hmem, Or.inr ⟨hdepth.symm, hmark⟩⟩
  · intro q hq hends
    obtain ⟨hq, hother⟩ := List.mem_filter.1 hq
    have hother : q.depth ≠ c.indent := by simpa using hother
    have hle := hshallow q hq
    rcases hends with hless | ⟨hsame, -⟩
    · omega
    · exact hother hsame.symm

/-- Where no set is open at the indentation of a command, and none deeper, the command ends none. -/
theorem not_endsBranch_of_openAt?_eq_none (hshallow : ∀ o ∈ p.pending, o.depth ≤ c.indent)
    (ho : p.openAt? c.indent = none) : ∀ q ∈ p.pending, ¬EndsBranch q.depth c := by
  intro q hq hends
  have hother := openAt?_eq_none ho q hq
  have hle := hshallow q hq
  rcases hends with hless | ⟨hsame, -⟩
  · omega
  · exact hother hsame.symm

theorem Follows.addBranch (h : p.Follows l) (hshallow : ∀ o ∈ p.pending, o.depth ≤ c.indent)
    (hc : l[p.index]? = some c) {w : Double} (hw : c.mark = .weight w) :
    WeightTable.Follows l (p.index + 1) (p.addBranch c.indent w).pending
      (p.addBranch c.indent w).table.markers := by
  unfold Pass.addBranch
  split
  · next o ho =>
      obtain ⟨hmem, hdepth⟩ := openAt?_eq_some ho
      obtain ⟨hclosed, hopen⟩ := h.closeAt hshallow hc (by simp [hw]) ho
      refine hclosed.pushOpen (o := { o with latest := p.index }) hc ⟨w, hw⟩ hopen hdepth rfl ?_
      intro q
      simp only [List.mem_map, List.mem_filter, bne_iff_ne]
      constructor
      · rintro ⟨r, hr, rfl⟩
        by_cases hat : r.depth = c.indent
        · rw [if_pos hat, h.unique r hr o hmem (hat.trans hdepth.symm)]
          exact Or.inr rfl
        · rw [if_neg hat]
          exact Or.inl ⟨hr, hat⟩
      · rintro (⟨hq, hat⟩ | rfl)
        · exact ⟨q, hq, if_neg hat⟩
        · exact ⟨o, hmem, if_pos hdepth⟩
  · next ho =>
      refine WeightTable.Follows.pushOpen (o := ⟨c.indent, p.table.sets.length, p.index⟩) h hc ⟨w, hw⟩
        (not_endsBranch_of_openAt?_eq_none hshallow ho) rfl rfl ?_
      simp

theorem Follows.close (h : p.Follows l) (hshallow : ∀ o ∈ p.pending, o.depth ≤ c.indent)
    (hc : l[p.index]? = some c) (hclose : c.mark = .close) :
    WeightTable.Follows l (p.index + 1) (p.close c.indent).pending (p.close c.indent).table.markers := by
  have hmarker : ∀ set : Option Nat, (⟨p.index, c.indent, true, set, p.index + 1⟩ : Marker).Of l :=
    fun set => ⟨c, hc, rfl, hclose⟩
  unfold Pass.close
  cases ho : p.openAt? c.indent with
  | some o =>
      obtain ⟨hclosed, hopen⟩ := h.closeAt hshallow hc (by simp [hclose]) ho
      exact hclosed.push hc hopen (hmarker _) rfl rfl
  | none =>
      have hall : (p.pending.filter fun o => o.depth != c.indent) = p.pending :=
        List.filter_eq_self.2 fun o hmem => by simpa using openAt?_eq_none ho o hmem
      rw [hall]
      exact WeightTable.Follows.push h hc (not_endsBranch_of_openAt?_eq_none hshallow ho) (hmarker _) rfl rfl

theorem index_step (p : Pass) (c : EventCommand) : (p.step c).index = p.index + 1 := by
  unfold Pass.step
  cases c.mark with
  | weight w =>
      simp only [Pass.addBranch]
      split <;> rfl
  | close => rfl
  | plain => rfl

/-- **A command of the list leaves the pass going by it.** -/
theorem Follows.step (h : p.Follows l) (hc : l[p.index]? = some c) : (p.step c).Follows l := by
  have hclosed : (p.closeDeeper c.indent p.index).Follows l := h.closeDeeper hc
  have hshallow := shallow_closeDeeper c.indent p.index p
  rw [Follows, index_step]
  unfold Pass.step
  cases hmark : c.mark with
  | weight w => exact hclosed.addBranch hshallow hc hmark
  | close => exact hclosed.close hshallow hc hmark
  | plain =>
      refine WeightTable.Follows.pass hclosed hc ?_
      rintro o ho (hless | ⟨-, hother⟩)
      · exact absurd hless (Int.not_lt.2 (hshallow o ho))
      · exact hother hmark

/-- What every command of a list preserves holds after the list. -/
theorem holds_foldl {P : Pass → Prop} (hstep : ∀ p c, P p → l[p.index]? = some c → P (p.step c))
    (hstart : P {}) : P (l.foldl Pass.step {}) := by
  have hrest : ∀ (rest : List EventCommand) (p : Pass), l.drop p.index = rest → P p →
      P (rest.foldl Pass.step p) := by
    intro rest
    induction rest with
    | nil => exact fun _ _ h => h
    | cons c rest ih =>
        intro p hdrop h
        have hc : l[p.index]? = some c := by rw [← List.head?_drop, hdrop, List.head?_cons]
        refine ih (p.step c) ?_ (hstep p c h hc)
        rw [index_step, ← List.tail_drop, hdrop, List.tail_cons]
  exact hrest l {} rfl hstart

/-- **The pass goes by the list.** -/
theorem follows_foldl (l : List EventCommand) : (l.foldl Pass.step {}).Follows l :=
  holds_foldl (fun _ _ h => h.step) follows_start

theorem index_foldl (l : List EventCommand) (p : Pass) :
    (l.foldl Pass.step p).index = p.index + l.length := by
  induction l generalizing p with
  | nil => rfl
  | cons c rest ih =>
      rw [List.foldl_cons, ih, index_step, List.length_cons]
      omega

end Pass

/-- **A marker describes the command at its position.  A closing command leads behind itself, and a branch
to the command that ends it.  Where none does, it leads to the end of the list, unless it is indented
below zero: then it leads to the start of the list.** -/
theorem marker_build {m : Marker} (hm : m ∈ (build l).markers) :
    m.Of l ∧ (m.Leads l ∨ (m.isEnd = false ∧ Unended l m.depth m.index ∧
      m.nextStop = if m.depth < 0 then 0 else l.length)) := by
  have hpass := Pass.follows_foldl l
  have hbound : (l.foldl Pass.step {}).index = l.length := by
    simpa using Pass.index_foldl l {}
  rw [build, Pass.closeDeeper_markers] at hm
  obtain ⟨m', hm', rfl⟩ := List.mem_map.1 hm
  have hof := (hpass.marks m' hm').1
  refine ⟨by simpa only [Marker.Of, release_index, release_depth, release_isEnd] using hof, ?_⟩
  by_cases hlatest : ∃ o ∈ (l.foldl Pass.step {}).pending, o.latest = m'.index
  · obtain ⟨o, ho, hindex⟩ := hlatest
    obtain ⟨hend, hdepth⟩ := hpass.own ho hm' hindex
    have hunended : Unended l m'.depth m'.index := by
      rw [Unended, ← hbound, hdepth, ← hindex]
      exact hpass.quiet o ho
    refine Or.inr ⟨by rw [release_isEnd, hend], by rwa [release_depth, release_index], ?_⟩
    rw [release_depth]
    by_cases hneg : m'.depth < 0
    · -- no set below zero is closed at the end of the list
      rw [if_pos hneg, release_of_forall]
      · rcases hpass.leads m' hm' with hleads | ⟨-, hstop, -⟩
        · rw [Marker.Leads, if_neg (by simp [hend])] at hleads
          exact absurd hunended hleads.not_unended
        · exact hstop
      · intro q hq hq'
        obtain ⟨hmem, hdeep⟩ := List.mem_filter.1 hq
        have hsame := (hpass.own hmem hm' hq').2
        simp only [decide_eq_true_eq] at hdeep
        omega
    · rw [if_neg hneg, release_of_mem (List.mem_filter.2 ⟨ho, by simp only [decide_eq_true_eq]; omega⟩) hindex]
  · rw [release_of_forall fun o ho hindex => hlatest ⟨o, (List.mem_filter.1 ho).1, hindex⟩]
    refine Or.inl ((hpass.leads m' hm').resolve_right ?_)
    rintro ⟨-, -, hopen⟩
    exact hlatest hopen

/-- **A marker leads to a later position, unless its branch is left open: then it leads to the start of the
list.** -/
theorem marker_jumps {m : Marker} (hm : m ∈ (build l).markers) :
    LeftOpen l m.index ∧ m.nextStop = 0 ∨ ¬LeftOpen l m.index ∧ m.index < m.nextStop := by
  obtain ⟨⟨c, hc, hindent, hmark⟩, hleads⟩ := marker_build hm
  have hopen : LeftOpen l m.index → c.IsWeight ∧ c.indent < 0 ∧ Unended l c.indent m.index := by
    rintro ⟨c', hc', hopen⟩
    rw [hc] at hc'
    cases hc'
    exact hopen
  rcases hleads with hleads | ⟨hend, hunended, hstop⟩
  · refine Or.inr ?_
    unfold Marker.Leads at hleads
    cases hend : m.isEnd with
    | true =>
        rw [if_pos hend] at hleads hmark
        refine ⟨fun h => ?_, by omega⟩
        obtain ⟨⟨w, hw⟩, -⟩ := hopen h
        rw [hmark] at hw
        cases hw
    | false =>
        rw [if_neg (by simp [hend])] at hleads
        exact ⟨fun h => hleads.not_unended (hindent ▸ (hopen h).2.2), hleads.lt⟩
  · rw [if_neg (by simp [hend])] at hmark
    by_cases hneg : m.depth < 0
    · rw [if_pos hneg] at hstop
      exact Or.inl ⟨⟨c, hc, hmark, hindent ▸ hneg, hindent ▸ hunended⟩, hstop⟩
    · rw [if_neg hneg] at hstop
      refine Or.inr ⟨fun h => hneg (hindent ▸ (hopen h).2.1), ?_⟩
      rw [hstop]
      exact (List.getElem?_eq_some_iff.1 hc).1

/-! ### The sets -/

/-- One member of a list is changed: every member is one of before, or the changed one. -/
theorem mem_or_of_mem_modify {α : Type} {xs : List α} {f : α → α} {n : Nat} {a : α}
    (h : a ∈ xs.modify n f) : a ∈ xs ∨ ∃ b ∈ xs, a = f b := by
  obtain ⟨k, hk⟩ := List.mem_iff_getElem?.1 h
  rw [List.getElem?_modify] at hk
  obtain ⟨b, hb, rfl⟩ := Option.map_eq_some_iff.1 hk
  split
  · exact Or.inr ⟨b, List.mem_of_getElem? hb, rfl⟩
  · exact Or.inl (List.mem_of_getElem? hb)

/-- Sets that hold weight commands before a bound, each of which has a marker that names a set. -/
structure Counts (l : List EventCommand) (bound : Nat) (pending : List OpenSet) (found : List BranchSet)
    (markers : List Marker) : Prop where
  sets : ∀ s ∈ found, s.Of l ∧ ∀ b ∈ s.branches, b < bound
  numbered : ∀ o ∈ pending, o.set < found.length
  named : ∀ m ∈ markers, m.isEnd = false → ∃ k < found.length, m.set = some k
  covers : ∀ i c, i < bound → l[i]? = some c → c.IsWeight → ∃ m ∈ markers, m.index = i

section Counts

variable {pending pending' : List OpenSet} {found found' : List BranchSet}

theorem counts_start : Counts l 0 [] [] [] where
  sets _ hs := absurd hs List.not_mem_nil
  numbered _ ho := absurd ho List.not_mem_nil
  named _ hm := absurd hm List.not_mem_nil
  covers i _ hi := absurd hi (Nat.not_lt_zero i)

theorem Counts.release {stop : Nat} (h : Counts l bound pending found markers)
    (hkept : ∀ o ∈ pending', o ∈ pending) :
    Counts l bound pending' found (markers.map (WeightTable.release closed stop)) where
  sets := h.sets
  numbered o ho := h.numbered o (hkept o ho)
  named := by
    intro m hm hend
    obtain ⟨m', hm', rfl⟩ := List.mem_map.1 hm
    rw [release_isEnd] at hend
    rw [release_set]
    exact h.named m' hm' hend
  covers := by
    intro i c hi hc hweight
    obtain ⟨m, hm, hindex⟩ := h.covers i c hi hc hweight
    exact ⟨_, List.mem_map_of_mem hm, by rw [release_index, hindex]⟩

theorem Counts.sets_succ (h : Counts l bound pending found markers) {s : BranchSet} (hs : s ∈ found) :
    s.Of l ∧ ∀ b ∈ s.branches, b < bound + 1 :=
  ⟨(h.sets s hs).1, fun b hb => Nat.lt_succ_of_lt ((h.sets s hs).2 b hb)⟩

/-- The command at the bound gives no weight. -/
theorem Counts.pass {c : EventCommand} (h : Counts l bound pending found markers)
    (hc : l[bound]? = some c) (hplain : ¬c.IsWeight) : Counts l (bound + 1) pending found markers where
  sets _ hs := h.sets_succ hs
  numbered := h.numbered
  named := h.named
  covers := by
    intro i c' hi hc' hweight
    rcases Nat.lt_succ_iff_lt_or_eq.1 hi with hlt | rfl
    · exact h.covers i c' hlt hc' hweight
    · rw [hc] at hc'
      cases hc'
      exact absurd hweight hplain

/-- A marker is added at the bound, and the sets grow with it. -/
theorem Counts.push {m : Marker} (h : Counts l bound pending found markers) (hindex : m.index = bound)
    (hsets : ∀ s ∈ found', s.Of l ∧ ∀ b ∈ s.branches, b < bound + 1)
    (hlength : found.length ≤ found'.length) (hnumbered : ∀ o ∈ pending', o.set < found'.length)
    (hname : m.isEnd = false → ∃ k < found'.length, m.set = some k) :
    Counts l (bound + 1) pending' found' (markers ++ [m]) where
  sets := hsets
  numbered := hnumbered
  named := by
    intro m' hm' hend
    rcases List.mem_append.1 hm' with hm' | hm'
    · obtain ⟨k, hk, hset⟩ := h.named m' hm' hend
      exact ⟨k, Nat.lt_of_lt_of_le hk hlength, hset⟩
    · cases List.mem_singleton.1 hm'
      exact hname hend
  covers := by
    intro i c hi hc hweight
    rcases Nat.lt_succ_iff_lt_or_eq.1 hi with hlt | rfl
    · obtain ⟨m', hm', hindex'⟩ := h.covers i c hlt hc hweight
      exact ⟨m', List.mem_append_left _ hm', hindex'⟩
    · exact ⟨m, List.mem_append_right _ (List.mem_singleton.2 rfl), hindex⟩

/-- A weight command at the bound goes behind the branches of a set. -/
theorem Counts.grow {c : EventCommand} {w : Double} (h : Counts l bound pending found markers)
    (hc : l[bound]? = some c) (hw : c.mark = .weight w) {s : BranchSet} (hs : s ∈ found) :
    ({ s with branches := s.branches ++ [bound], weights := s.weights ++ [w] } : BranchSet).Of l ∧
      ∀ b ∈ s.branches ++ [bound], b < bound + 1 := by
  obtain ⟨hof, hbefore⟩ := h.sets s hs
  refine ⟨⟨by simp, ?_, ?_⟩, ?_⟩
  · refine List.pairwise_append.2 ⟨hof.increasing, List.pairwise_singleton _ _, ?_⟩
    intro b hb b' hb'
    cases List.mem_singleton.1 hb'
    exact hbefore b hb
  · exact List.rel_append hof.weights (.cons ⟨c, hc, hw⟩ .nil)
  · intro b hb
    rcases List.mem_append.1 hb with hb | hb
    · exact Nat.lt_succ_of_lt (hbefore b hb)
    · cases List.mem_singleton.1 hb
      exact Nat.lt_succ_self _

end Counts

namespace Pass

variable {p : Pass} {c : EventCommand}

/-- What a pass has found counts the weight commands before its position. -/
def Counts (l : List EventCommand) (p : Pass) : Prop :=
  WeightTable.Counts l p.index p.pending p.table.sets p.table.markers

theorem Counts.closeDeeper (h : p.Counts l) (depth : Int) (stop : Nat) :
    (p.closeDeeper depth stop).Counts l := by
  have hsets : (p.closeDeeper depth stop).table.sets = p.table.sets := (foldl_setStop _ _ _).2
  rw [Counts, hsets, closeDeeper_markers]
  exact h.release fun o ho => (List.mem_filter.1 ho).1

theorem Counts.addBranch (h : p.Counts l) (hc : l[p.index]? = some c) {w : Double}
    (hw : c.mark = .weight w) :
    WeightTable.Counts l (p.index + 1) (p.addBranch c.indent w).pending
      (p.addBranch c.indent w).table.sets (p.addBranch c.indent w).table.markers := by
  unfold Pass.addBranch
  split
  · next o ho =>
      obtain ⟨hmem, -⟩ := openAt?_eq_some ho
      have hreleased : WeightTable.Counts l p.index p.pending p.table.sets
          (p.table.setStop o.latest p.index).markers := by
        rw [markers_setStop]
        exact h.release fun _ => id
      refine hreleased.push rfl ?_ (by simp [setStop]) ?_ ?_
      · intro s hs
        rcases mem_or_of_mem_modify hs with hs | ⟨s', hs', rfl⟩
        · exact h.sets_succ hs
        · exact h.grow hc hw hs'
      · intro q hq
        obtain ⟨r, hr, rfl⟩ := List.mem_map.1 hq
        rw [List.length_modify]
        split <;> exact h.numbered r hr
      · intro _
        rw [List.length_modify]
        exact ⟨o.set, h.numbered o hmem, rfl⟩
  · refine WeightTable.Counts.push h rfl ?_ (by simp) ?_ ?_
    · intro s hs
      rcases List.mem_append.1 hs with hs | hs
      · exact h.sets_succ hs
      · cases List.mem_singleton.1 hs
        refine ⟨⟨by simp, List.pairwise_singleton _ _, .cons ⟨c, hc, hw⟩ .nil⟩, ?_⟩
        simp
    · intro q hq
      rw [List.length_append, List.length_singleton]
      rcases List.mem_append.1 hq with hq | hq
      · exact Nat.lt_succ_of_lt (h.numbered q hq)
      · cases List.mem_singleton.1 hq
        exact Nat.lt_succ_self _
    · intro _
      rw [List.length_append, List.length_singleton]
      exact ⟨_, Nat.lt_succ_self _, rfl⟩

theorem Counts.close (h : p.Counts l) :
    WeightTable.Counts l (p.index + 1) (p.close c.indent).pending (p.close c.indent).table.sets
      (p.close c.indent).table.markers := by
  unfold Pass.close
  cases ho : p.openAt? c.indent with
  | some o =>
      have hreleased : WeightTable.Counts l p.index (p.pending.filter fun o => o.depth != c.indent)
          p.table.sets (p.table.setStop o.latest p.index).markers := by
        rw [markers_setStop]
        exact h.release fun q hq => (List.mem_filter.1 hq).1
      refine hreleased.push rfl ?_ (by simp [setStop]) ?_ nofun
      · intro s hs
        rcases mem_or_of_mem_modify hs with hs | ⟨s', hs', rfl⟩
        · exact h.sets_succ hs
        · -- the position of the closing command is no branch
          obtain ⟨hof, hbefore⟩ := h.sets_succ hs'
          exact ⟨⟨hof.nonempty, hof.increasing, hof.weights⟩, hbefore⟩
      · intro q hq
        rw [List.length_modify]
        exact hreleased.numbered q hq
  | none =>
      exact WeightTable.Counts.push h rfl (fun s hs => h.sets_succ hs) (Nat.le_refl _)
        (fun q hq => h.numbered q (List.mem_filter.1 hq).1) nofun

theorem Counts.step (h : p.Counts l) (hc : l[p.index]? = some c) : (p.step c).Counts l := by
  have hclosed : (p.closeDeeper c.indent p.index).Counts l := h.closeDeeper _ _
  rw [Counts, index_step]
  unfold Pass.step
  cases hmark : c.mark with
  | weight w => exact hclosed.addBranch hc hmark
  | close => exact hclosed.close
  | plain =>
      refine WeightTable.Counts.pass hclosed hc ?_
      rintro ⟨w, hw⟩
      rw [hmark] at hw
      cases hw

/-- **The pass counts the weight commands of the list.** -/
theorem counts_foldl (l : List EventCommand) : (l.foldl Pass.step {}).Counts l :=
  holds_foldl (fun _ _ h => h.step) counts_start

end Pass

theorem counts_build (l : List EventCommand) :
    ∃ pending, Counts l l.length pending (build l).sets (build l).markers := by
  have hclosed := (Pass.counts_foldl l).closeDeeper (-1) l.length
  have hbound : ((l.foldl Pass.step {}).closeDeeper (-1) l.length).index = l.length :=
    (Pass.index_foldl l {}).trans (Nat.zero_add _)
  rw [Pass.Counts, hbound] at hclosed
  exact ⟨_, hclosed⟩

/-- **The sets of a table hold weight commands of the list, in order, with the weights that they give.** -/
theorem set_of_mem_build {s : BranchSet} (hs : s ∈ (build l).sets) : s.Of l := by
  obtain ⟨_, h⟩ := counts_build l
  exact (h.sets s hs).1

theorem marker?_eq_some {t : WeightTable} {m : Marker} {i : Int} (h : t.marker? i = some m) :
    m ∈ t.markers ∧ (m.index : Int) = i := by
  unfold marker? at h
  exact ⟨List.mem_of_find?_eq_some h, by simpa using List.find?_some h⟩

/-- **A weight command of the list has a marker, which names a set.** -/
theorem exists_marker_build {i : Nat} {c : EventCommand} (hc : l[i]? = some c) (hweight : c.IsWeight) :
    ∃ m s, (build l).marker? i = some m ∧ m ∈ (build l).markers ∧ m.index = i ∧ m.depth = c.indent ∧
      m.isEnd = false ∧ m.set.bind (fun k => (build l).sets[k]?) = some s := by
  obtain ⟨_, h⟩ := counts_build l
  have hi : i < l.length := (List.getElem?_eq_some_iff.1 hc).1
  obtain ⟨m₀, hm₀, hindex₀⟩ := h.covers i c hi hc hweight
  obtain ⟨m, hm⟩ : ∃ m, (build l).marker? i = some m :=
    Option.isSome_iff_exists.1 (List.find?_isSome.2 ⟨m₀, hm₀, by simp [hindex₀]⟩)
  obtain ⟨hmem, hat⟩ := marker?_eq_some hm
  have hindex : m.index = i := Int.ofNat_inj.1 hat
  obtain ⟨⟨c', hc', hindent, hmark⟩, -⟩ := marker_build hmem
  rw [hindex, hc] at hc'
  cases hc'
  have hend : m.isEnd = false := by
    cases hend : m.isEnd with
    | false => rfl
    | true =>
        obtain ⟨w, hw⟩ := hweight
        rw [if_pos hend, hw] at hmark
        cases hmark
  obtain ⟨k, hk, hset⟩ := h.named m hmem hend
  exact ⟨m, (build l).sets[k], hm, hmem, hindex, hindent.symm, hend, by
    rw [hset, Option.bind_some, List.getElem?_eq_getElem hk]⟩

end WeightTable

end EventLayer
