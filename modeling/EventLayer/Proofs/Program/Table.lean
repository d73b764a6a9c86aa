/-
**The jump table of a tree.**

A pass over the command list of a tree finds the random choices that the tree holds, and for each
body the position at which the next one begins or the choice ends.  The pass has no tree: it knows
the choices that stand open at each indentation.  Over the commands of a block it adds the choices
of the block and leaves those open as it found them, since the choices that stand open lie at no
greater indentation than the block, and at a smaller one where the block holds choices itself.

Main definitions:

* `Program.Arms.positions` — where the weight commands of further bodies stand;
* `Program.Block.sets`, `Program.Block.markers` — the choices of a block and their markers;
* `Program.Midst` — the pass in the midst of a choice.

Main results:

* `Program.foldl_choice`, `Program.Block.foldl_step` — the pass over a choice and over a block;
* `Program.Block.build_commands` — **the jump table of a tree**;
* `Program.marker?_of_mem` — the marker at a position.
-/
import EventLayer.Proofs.Program.Tree

set_option autoImplicit false
set_option relaxedAutoImplicit false

namespace EventLayer.Program

open WeightTable

/-! ### The choices of a tree -/

/-- The positions of the weight commands of further bodies. -/
def Arms.positions : Arms → Nat → List Nat
  | .done, _ => []
  | .arm _ body others, i => i :: others.positions (i + 1 + body.size)

/-- The set of a choice that stands at a position. -/
def choiceSet (d : Int) (i : Nat) (weight : Json) (body : Block false) (more : Arms) :
    BranchSet where
  depth := d
  branches := i :: more.positions (i + 1 + body.size)
  weights := weightOf weight :: more.weights
  endIndex := some (i + 1 + body.size + more.size)

mutual

/-- The sets of a block that stands at a position, in the order in which they open. -/
def Block.sets (d : Int) : {choices : Bool} → Block choices → Nat → List BranchSet
  | _, .nil, _ => []
  | _, .leaf l rest, i => rest.sets d (i + l.size)
  | _, .branch _ yes no rest, i =>
    yes.sets (d + 1) (i + 1) ++ (no.sets d (i + 1 + yes.size + 1) ++
      rest.sets d (i + 1 + yes.size + 1 + no.size + 1))
  | _, .choice weight body more rest, i =>
    choiceSet d i weight body more :: (body.sets d (i + 1) ++ (more.sets d (i + 1 + body.size) ++
      rest.sets d (i + 1 + body.size + more.size + 1)))

/-- The sets of an alternative. -/
def Otherwise.sets (d : Int) : Otherwise → Nat → List BranchSet
  | .absent, _ => []
  | .present b, i => b.sets (d + 1) (i + 1)

/-- The sets inside further bodies. -/
def Arms.sets (d : Int) : Arms → Nat → List BranchSet
  | .done, _ => []
  | .arm _ body others, i => body.sets d (i + 1) ++ others.sets d (i + 1 + body.size)

end

mutual

/-- The markers of a block that stands at a position `i`, where `n` sets have opened before. -/
def Block.markers (d : Int) : {choices : Bool} → Block choices → Nat → Nat → List Marker
  | _, .nil, _, _ => []
  | _, .leaf l rest, i, n => rest.markers d (i + l.size) n
  | _, .branch _ yes no rest, i, n =>
    let inYes := n + (yes.sets (d + 1) (i + 1)).length
    let inNo := inYes + (no.sets d (i + 1 + yes.size + 1)).length
    yes.markers (d + 1) (i + 1) n ++ (no.markers d (i + 1 + yes.size + 1) inYes ++
      rest.markers d (i + 1 + yes.size + 1 + no.size + 1) inNo)
  | _, .choice _ body more rest, i, n =>
    let inBody := n + 1 + (body.sets d (i + 1)).length
    let inMore := inBody + (more.sets d (i + 1 + body.size)).length
    let stop := i + 1 + body.size + more.size
    ⟨i, d, false, some n, i + 1 + body.size⟩ :: (body.markers d (i + 1) (n + 1) ++
      (more.markers d n (i + 1 + body.size) inBody ++
        ⟨stop, d, true, some n, stop + 1⟩ :: rest.markers d (stop + 1) inMore))

/-- The markers of an alternative. -/
def Otherwise.markers (d : Int) : Otherwise → Nat → Nat → List Marker
  | .absent, _, _ => []
  | .present b, i, n => b.markers (d + 1) (i + 1) n

/-- The markers of further bodies of the set with the number `own`. -/
def Arms.markers (d : Int) (own : Nat) : Arms → Nat → Nat → List Marker
  | .done, _, _ => []
  | .arm _ body others, i, n =>
    ⟨i, d, false, some own, i + 1 + body.size⟩ :: (body.markers d (i + 1) n ++
      others.markers d own (i + 1 + body.size) (n + (body.sets d (i + 1)).length))

end

/-! ### Where the markers stand -/

/-- Markers that stand one after the other from a position to another. -/
def Ordered (i j : Nat) (markers : List Marker) : Prop :=
  markers.Pairwise (fun m m' => m.index < m'.index) ∧ ∀ m ∈ markers, i ≤ m.index ∧ m.index < j

theorem Ordered.nil (i j : Nat) : Ordered i j [] := ⟨.nil, by simp⟩

theorem Ordered.append {i j k : Nat} {l l' : List Marker} (h : Ordered i j l) (h' : Ordered j k l')
    (hij : i ≤ j) (hjk : j ≤ k) : Ordered i k (l ++ l') := by
  constructor
  · refine List.pairwise_append.2 ⟨h.1, h'.1, ?_⟩
    intro m hm m' hm'
    have hlt := (h.2 m hm).2
    have hle := (h'.2 m' hm').1
    omega
  · intro m hm
    rcases List.mem_append.1 hm with hm | hm
    · have := h.2 m hm
      omega
    · have := h'.2 m hm
      omega

theorem Ordered.cons {i j k : Nat} {m : Marker} {l : List Marker} (h : Ordered j k l)
    (hi : i ≤ m.index) (hj : m.index < j) (hjk : j ≤ k) : Ordered i k (m :: l) := by
  have hm : Ordered i j [m] := by
    refine ⟨List.pairwise_singleton _ _, ?_⟩
    intro m' hm'
    rw [List.mem_singleton.1 hm']
    exact ⟨hi, hj⟩
  exact hm.append h (by omega) hjk

theorem Ordered.widen {i i' j j' : Nat} {l : List Marker} (h : Ordered i j l) (hi : i' ≤ i)
    (hj : j ≤ j') : Ordered i' j' l := by
  refine ⟨h.1, fun m hm => ?_⟩
  have := h.2 m hm
  omega

mutual

theorem Block.markers_ordered (d : Int) : {choices : Bool} → (b : Block choices) → (i n : Nat) →
    Ordered i (i + b.size) (b.markers d i n)
  | _, .nil, i, n => .nil i _
  | _, .leaf l rest, i, n => by
    have hr := rest.markers_ordered d (i + l.size) n
    rw [Block.markers, Block.size, ← Nat.add_assoc]
    exact hr.widen (by omega) (by omega)
  | _, .branch params yes no rest, i, n => by
    have hy := yes.markers_ordered (d + 1) (i + 1) n
    have hn := no.markers_ordered d (i + 1 + yes.size + 1) (n + (yes.sets (d + 1) (i + 1)).length)
    have hr := rest.markers_ordered d (i + 1 + yes.size + 1 + no.size + 1)
      (n + (yes.sets (d + 1) (i + 1)).length + (no.sets d (i + 1 + yes.size + 1)).length)
    have hsize : i + (Block.branch params yes no rest).size =
        i + 1 + yes.size + 1 + no.size + 1 + rest.size := by
      simp only [Block.size]
      omega
    rw [Block.markers, hsize]
    have hnr := hn.append (hr.widen (by omega) (Nat.le_refl _)) (by omega) (by omega)
    have hynr := hy.append (hnr.widen (by omega) (Nat.le_refl _)) (by omega) (by omega)
    exact hynr.widen (by omega) (Nat.le_refl _)
  | _, .choice weight body more rest, i, n => by
    have hb := body.markers_ordered d (i + 1) (n + 1)
    have hm := more.markers_ordered d n (i + 1 + body.size)
      (n + 1 + (body.sets d (i + 1)).length)
    have hr := rest.markers_ordered d (i + 1 + body.size + more.size + 1)
      (n + 1 + (body.sets d (i + 1)).length + (more.sets d (i + 1 + body.size)).length)
    have hsize : i + (Block.choice weight body more rest).size =
        i + 1 + body.size + more.size + 1 + rest.size := by
      simp only [Block.size]
      omega
    rw [Block.markers, hsize]
    have hend := hr.cons (i := i + 1 + body.size + more.size)
      (m := ⟨i + 1 + body.size + more.size, d, true, some n, i + 1 + body.size + more.size + 1⟩)
      (Nat.le_refl _) (by simp) (by omega)
    have hmore := hm.append hend (by omega) (by omega)
    have hbody := hb.append hmore (by omega) (by omega)
    exact hbody.cons (Nat.le_refl _) (by simp) (by omega)

theorem Otherwise.markers_ordered (d : Int) : (o : Otherwise) → (i n : Nat) →
    Ordered i (i + o.size) (o.markers d i n)
  | .absent, i, n => .nil i _
  | .present b, i, n => by
    have hb := b.markers_ordered (d + 1) (i + 1) n
    rw [Otherwise.size]
    exact hb.widen (by omega) (by omega)

theorem Arms.markers_ordered (d : Int) (own : Nat) : (a : Arms) → (i n : Nat) →
    Ordered i (i + a.size) (a.markers d own i n)
  | .done, i, n => .nil i _
  | .arm weight body others, i, n => by
    have hb := body.markers_ordered d (i + 1) n
    have ho := others.markers_ordered d own (i + 1 + body.size)
      (n + (body.sets d (i + 1)).length)
    have hsize : i + (Arms.arm weight body others).size = i + 1 + body.size + others.size := by
      simp only [Arms.size]
      omega
    rw [Arms.markers, hsize]
    exact (hb.append ho (by omega) (by omega)).cons (Nat.le_refl _) (by simp) (by omega)

end

/-! ### The pass over a tree -/

/-- The pass after some commands that hold sets and markers of their own and leave no set open. -/
def extend (p : Pass) (size : Nat) (sets : List BranchSet) (markers : List Marker) : Pass where
  index := p.index + size
  table := { sets := p.table.sets ++ sets, markers := p.table.markers ++ markers }
  pending := p.pending

theorem extend_extend (p : Pass) (size size' : Nat) (sets sets' : List BranchSet)
    (markers markers' : List Marker) :
    extend (extend p size sets markers) size' sets' markers' =
      extend p (size + size') (sets ++ sets') (markers ++ markers') := by
  simp only [extend, Nat.add_assoc, List.append_assoc]

/-- A pass can go on with a block at an indentation: no set stands open further in, nor at the
indentation itself where the block holds choices. -/
structure Fits (choices : Bool) (d : Int) (p : Pass) : Prop where
  within : ∀ o ∈ p.pending, o.depth ≤ d
  below : choices = true → ∀ o ∈ p.pending, o.depth < d
  before : ∀ m ∈ p.table.markers, m.index < p.index

/-- No set ends where none lies deeper. -/
theorem closeDeeper_eq {p : Pass} {d : Int} (h : ∀ o ∈ p.pending, o.depth ≤ d) (stop : Nat) :
    p.closeDeeper d stop = p := by
  have hnone : (p.pending.filter fun o => d < o.depth) = [] := by
    rw [List.filter_eq_nil_iff]
    intro o ho
    have := h o ho
    simpa using this
  have hall : (p.pending.filter fun o => ¬d < o.depth) = p.pending := by
    rw [List.filter_eq_self]
    intro o ho
    have := h o ho
    simpa using this
  rw [Pass.closeDeeper, hnone, hall]
  rfl

/-- A weight command at no smaller indentation than the open sets. -/
theorem step_weightAt {p : Pass} {d : Int} (h : ∀ o ∈ p.pending, o.depth ≤ d) (weight : Json) :
    p.step (weightAt d weight) =
      { p.addBranch d (weightOf weight) with
        index := (p.addBranch d (weightOf weight)).index + 1 } := by
  simp only [Pass.step, weightAt, closeDeeper_eq h]

/-- A closing command at no smaller indentation than the open sets. -/
theorem step_endAt {p : Pass} {d : Int} (h : ∀ o ∈ p.pending, o.depth ≤ d) :
    p.step (endAt d) = { p.close d with index := (p.close d).index + 1 } := by
  simp only [Pass.step, endAt, closeDeeper_eq h]

theorem step_plain {p : Pass} {c : EventCommand} (h : ∀ o ∈ p.pending, o.depth ≤ c.indent)
    (hc : c.mark = .plain) : p.step c = extend p 1 [] [] := by
  simp only [Pass.step, closeDeeper_eq h, hc, extend, List.append_nil]

/-- Commands without a part in random branches only move the pass on. -/
theorem foldl_plain {d : Int} {cs : List EventCommand}
    (hcs : ∀ c ∈ cs, c.indent = d ∧ c.mark = .plain) {p : Pass}
    (h : ∀ o ∈ p.pending, o.depth ≤ d) : cs.foldl Pass.step p = extend p cs.length [] [] := by
  induction cs generalizing p with
  | nil => simp [extend]
  | cons c cs ih =>
      have hc := hcs c (by simp)
      have hrest := ih (fun c' hc' => hcs c' (List.mem_cons_of_mem _ hc')) (p := extend p 1 [] []) h
      rw [List.foldl_cons, step_plain (by rwa [hc.1]) hc.2, hrest, extend_extend, List.length_cons,
        Nat.add_comm 1]
      rfl

theorem Leaf.plain_commands (d : Int) (l : Leaf) :
    ∀ c ∈ l.commands d, c.indent = d ∧ c.mark = .plain := by
  cases l with
  | plain code isPlain params => simp [Leaf.commands]
  | text params lines =>
      intro c hc
      rcases List.mem_cons.1 hc with rfl | hc
      · exact ⟨rfl, rfl⟩
      · obtain ⟨l, -, rfl⟩ := List.mem_map.1 hc
        exact ⟨rfl, rfl⟩

/-- A stop is set for the one marker at its position. -/
theorem setStop_append (sets : List BranchSet) {before later : List Marker} {m : Marker}
    (hb : ∀ m' ∈ before, m'.index ≠ m.index) (hl : ∀ m' ∈ later, m'.index ≠ m.index) (stop : Nat) :
    setStop m.index stop ⟨sets, before ++ m :: later⟩ =
      ⟨sets, before ++ { m with nextStop := stop } :: later⟩ := by
  have hid : ∀ l : List Marker, (∀ m' ∈ l, m'.index ≠ m.index) →
      (l.map fun m' => if m'.index = m.index then { m' with nextStop := stop } else m') = l := by
    intro l hl
    have hsame := List.map_congr_left (l := l) (g := id)
      (f := fun m' => if m'.index = m.index then { m' with nextStop := stop } else m')
      fun m' hm' => if_neg (hl m' hm')
    rw [hsame, List.map_id]
  simp only [setStop, List.map_append, List.map_cons, hid before hb, hid later hl, if_pos]

theorem modify_append {α : Type} (f : α → α) (before later : List α) (a : α) :
    (before ++ a :: later).modify before.length f = before ++ f a :: later := by
  rw [List.modify_eq_take_cons_drop (by simp)]
  simp

/-! ### Open choices -/

/-- A pass in the midst of a choice: `cur` is its set, with `before` and `later` around it, and its
latest marker stands at `latest`, with `passed` and `inner` around it. -/
def midst (d : Int) (index : Nat) (before : List BranchSet) (cur : BranchSet)
    (later : List BranchSet) (passed : List Marker) (latest : Nat) (inner : List Marker)
    (outer : List OpenSet) : Pass where
  index := index
  table :=
    { sets := before ++ cur :: later
      markers := passed ++ ⟨latest, d, false, some before.length, 0⟩ :: inner }
  pending := outer ++ [⟨d, before.length, latest⟩]

/-- In the midst of a choice the sets that stand open besides are further out, and the markers stand
one behind the other, before the position of the pass. -/
structure Midst (d : Int) (index : Nat) (passed : List Marker) (latest : Nat) (inner : List Marker)
    (outer : List OpenSet) : Prop where
  outer : ∀ o ∈ outer, o.depth < d
  passed : ∀ m ∈ passed, m.index < latest
  inner : Ordered (latest + 1) index inner
  latest : latest < index

section Midst

variable {d : Int} {index : Nat} {before later : List BranchSet} {cur : BranchSet}
  {passed inner : List Marker} {latest : Nat} {outer : List OpenSet}

/-- The open set at the indentation of a choice is its own. -/
theorem openAt?_midst (ho : ∀ o ∈ outer, o.depth < d) :
    (midst d index before cur later passed latest inner outer).openAt? d =
      some ⟨d, before.length, latest⟩ := by
  have hnone : outer.find? (fun o => o.depth == d) = none := by
    rw [List.find?_eq_none]
    intro o h
    have := ho o h
    simp
    omega
  simp only [Pass.openAt?, midst, List.find?_append, hnone, Option.none_or]
  rw [List.find?_cons_of_pos (by simp)]

theorem depth_le_midst (ho : ∀ o ∈ outer, o.depth < d) :
    ∀ o ∈ (midst d index before cur later passed latest inner outer).pending, o.depth ≤ d := by
  intro o h
  rcases List.mem_append.1 h with h | h
  · have := ho o h
    omega
  · obtain rfl := List.mem_singleton.1 h
    exact Int.le_refl d

/-- What has been found inside since the latest weight command. -/
theorem Midst.grow (h : Midst d index passed latest inner outer) {index' : Nat}
    {markers : List Marker} (hm : Ordered index index' markers) (hle : index ≤ index') :
    Midst d index' passed latest (inner ++ markers) outer :=
  ⟨h.outer, h.passed, h.inner.append hm h.latest hle, Nat.lt_of_lt_of_le h.latest hle⟩

/-- Every marker stands before the position of the pass. -/
theorem Midst.markers_lt (h : Midst d index passed latest inner outer) (own : Option Nat) (stop : Nat) :
    ∀ m ∈ passed ++ (⟨latest, d, false, own, stop⟩ : Marker) :: inner, m.index < index := by
  intro m hm
  rcases List.mem_append.1 hm with hm | hm
  · exact Nat.lt_trans (h.passed m hm) h.latest
  · rcases List.mem_cons.1 hm with rfl | hm
    · exact h.latest
    · exact (h.inner.2 m hm).2

/-- Behind the next weight command. -/
theorem Midst.next (h : Midst d index passed latest inner outer) (own : Option Nat) (stop : Nat) :
    Midst d (index + 1) (passed ++ ⟨latest, d, false, own, stop⟩ :: inner) index [] outer :=
  ⟨h.outer, h.markers_lt own stop, .nil _ _, Nat.lt_succ_self _⟩

/-- The latest weight command gets the position that follows its body. -/
theorem Midst.setStop (h : Midst d index passed latest inner outer) (sets : List BranchSet)
    (own : Option Nat) (stop : Nat) :
    WeightTable.setStop latest stop ⟨sets, passed ++ ⟨latest, d, false, own, 0⟩ :: inner⟩ =
      ⟨sets, passed ++ ⟨latest, d, false, own, stop⟩ :: inner⟩ := by
  refine setStop_append sets (m := ⟨latest, d, false, own, 0⟩) (fun m hm => ?_) (fun m hm => ?_) stop
  · exact Nat.ne_of_lt (h.passed m hm)
  · exact Nat.ne_of_gt (h.inner.2 m hm).1

/-- A further weight command of a choice. -/
theorem step_weight_midst (h : Midst d index passed latest inner outer) (weight : Json) :
    (midst d index before cur later passed latest inner outer).step (weightAt d weight) =
      midst d (index + 1) before
        { cur with
          branches := cur.branches ++ [index], weights := cur.weights ++ [weightOf weight] }
        later (passed ++ ⟨latest, d, false, some before.length, index⟩ :: inner) index [] outer := by
  have hpending : (outer ++ [(⟨d, before.length, latest⟩ : OpenSet)]).map
      (fun q => if q.depth = d then { q with latest := index } else q) =
      outer ++ [⟨d, before.length, index⟩] := by
    have hsame := List.map_congr_left (l := outer)
      (f := fun q => if q.depth = d then { q with latest := index } else q) (g := id)
      fun q hq => if_neg (by have := h.outer q hq; omega)
    rw [List.map_append, hsame, List.map_id]
    simp
  rw [step_weightAt (depth_le_midst h.outer)]
  simp only [Pass.addBranch, openAt?_midst h.outer]
  simp only [midst, h.setStop, hpending, modify_append]

/-- The closing command of a choice. -/
theorem step_end_midst (h : Midst d index passed latest inner outer) :
    (midst d index before cur later passed latest inner outer).step (endAt d) =
      { index := index + 1
        table :=
          { sets := before ++ { cur with endIndex := some index } :: later
            markers := passed ++ ⟨latest, d, false, some before.length, index⟩ :: inner ++
              [⟨index, d, true, some before.length, index + 1⟩] }
        pending := outer } := by
  have hpending : (outer ++ [(⟨d, before.length, latest⟩ : OpenSet)]).filter
      (fun o => o.depth != d) = outer := by
    have hall : outer.filter (fun o => o.depth != d) = outer := by
      rw [List.filter_eq_self]
      intro o ho
      have := h.outer o ho
      simp
      omega
    rw [List.filter_append, hall]
    simp
  rw [step_endAt (depth_le_midst h.outer)]
  simp only [Pass.close, openAt?_midst h.outer]
  simp only [midst, h.setStop, hpending, modify_append, Option.map_some]

/-- A body of a choice can follow its weight command. -/
theorem Midst.fits (h : Midst d index passed latest inner outer) :
    Fits false d (midst d index before cur later passed latest inner outer) :=
  ⟨depth_le_midst h.outer, nofun, h.markers_lt _ _⟩

end Midst

/-! ### The pass over a block -/

/-- The first weight command of a choice opens it. -/
theorem step_first {d : Int} {p : Pass} (ho : ∀ o ∈ p.pending, o.depth < d) (weight : Json) :
    p.step (weightAt d weight) =
      midst d (p.index + 1) p.table.sets
        { depth := d, branches := [p.index], weights := [weightOf weight] } [] p.table.markers
        p.index [] p.pending := by
  have hnone : p.openAt? d = none := by
    rw [Pass.openAt?, List.find?_eq_none]
    intro o h
    have := ho o h
    simp
    omega
  have hle : ∀ o ∈ p.pending, o.depth ≤ d := fun o h => Int.le_of_lt (ho o h)
  rw [step_weightAt hle]
  simp only [Pass.addBranch, hnone]
  rfl

/-- Commands inside a body of a choice add to what has been found since its weight command. -/
theorem extend_midst (d : Int) (index size : Nat) (before later sets : List BranchSet)
    (cur : BranchSet) (passed inner markers : List Marker) (latest : Nat) (outer : List OpenSet) :
    extend (midst d index before cur later passed latest inner outer) size sets markers =
      midst d (index + size) before cur (later ++ sets) passed latest (inner ++ markers) outer := by
  simp only [extend, midst, List.append_assoc, List.cons_append]

theorem Fits.extend {choices : Bool} {d : Int} {p : Pass} (h : Fits choices d p) (size : Nat)
    (sets : List BranchSet) {markers : List Marker}
    (hm : Ordered p.index (p.index + size) markers) :
    Fits choices d (Program.extend p size sets markers) := by
  refine ⟨h.within, h.below, fun m hmem => ?_⟩
  rcases List.mem_append.1 hmem with hmem | hmem
  · have := h.before m hmem
    simp only [Program.extend]
    omega
  · exact (hm.2 m hmem).2

/-- The pass over a block between the command that opens it and the one that ends it. -/
theorem foldl_inner {d : Int} {p : Pass} (h : Fits false d p) (first : EventCommand)
    (hd : first.indent = d) (hplain : first.mark = .plain) {b : Block true}
    (hb : ∀ q, Fits true (d + 1) q → (b.commands (d + 1)).foldl Pass.step q =
      extend q b.size (b.sets (d + 1) q.index) (b.markers (d + 1) q.index q.table.sets.length)) :
    (first :: (b.commands (d + 1) ++ [idleAt (d + 1)])).foldl Pass.step p =
      extend p (1 + b.size + 1) (b.sets (d + 1) (p.index + 1))
        (b.markers (d + 1) (p.index + 1) p.table.sets.length) := by
  have hlt : ∀ o ∈ p.pending, o.depth < d + 1 := fun o ho => by
    have := h.within o ho
    omega
  have hle : ∀ o ∈ p.pending, o.depth ≤ d + 1 := fun o ho => Int.le_of_lt (hlt o ho)
  have hfits : Fits true (d + 1) (extend p 1 [] []) :=
    ⟨hle, fun _ => hlt, (h.extend 1 [] (.nil _ _)).before⟩
  have hidle : ∀ q : Pass, q.pending = p.pending → q.step (idleAt (d + 1)) = extend q 1 [] [] := by
    intro q hq
    exact step_plain (by rwa [hq]) rfl
  rw [List.foldl_cons, step_plain (by rw [hd]; exact h.within) hplain, List.foldl_append,
    hb _ hfits, List.foldl_cons, List.foldl_nil, hidle, extend_extend, extend_extend]
  · simp only [extend, List.append_nil, List.nil_append, Nat.add_assoc]
  · rfl

/-- The pass behind the closing command of a choice, in the midst of which the further bodies `a` were
still to come. -/
def closed (d : Int) (index : Nat) (before : List BranchSet) (cur : BranchSet)
    (later : List BranchSet) (passed : List Marker) (latest : Nat) (inner : List Marker)
    (outer : List OpenSet) (a : Arms) : Pass where
  index := index + a.size + 1
  table :=
    { sets := before ++
        { cur with
          branches := cur.branches ++ a.positions index
          weights := cur.weights ++ a.weights
          endIndex := some (index + a.size) } :: (later ++ a.sets d index)
      markers := passed ++ ⟨latest, d, false, some before.length, index⟩ :: (inner ++
        (a.markers d before.length index (before.length + 1 + later.length) ++
          [⟨index + a.size, d, true, some before.length, index + a.size + 1⟩])) }
  pending := outer

/-- The pass over a choice, as a block of its own. -/
theorem foldl_choice {d : Int} {p : Pass} (h : Fits true d p) (weight : Json) {body : Block false}
    {more : Arms}
    (hbody : ∀ q, Fits false d q → (body.commands d).foldl Pass.step q =
      extend q body.size (body.sets d q.index) (body.markers d q.index q.table.sets.length))
    (hmore : ∀ index before cur later passed latest inner outer,
      Midst d index passed latest inner outer → (more.commands d ++ [endAt d]).foldl Pass.step
        (midst d index before cur later passed latest inner outer) =
      closed d index before cur later passed latest inner outer more) :
    (weightAt d weight :: (body.commands d ++ (more.commands d ++ [endAt d]))).foldl Pass.step p =
      extend p (Block.choice weight body more .nil).size
        ((Block.choice weight body more .nil).sets d p.index)
        ((Block.choice weight body more .nil).markers d p.index p.table.sets.length) := by
  have hmidst : Midst d (p.index + 1) p.table.markers p.index [] p.pending :=
    ⟨h.below rfl, h.before, .nil _ _, Nat.lt_succ_self _⟩
  have hgrown := hmidst.grow (body.markers_ordered d (p.index + 1) (p.table.sets.length + 1))
    (Nat.le_add_right _ _)
  have hcount : (midst d (p.index + 1) p.table.sets
      { depth := d, branches := [p.index], weights := [weightOf weight] } [] p.table.markers
      p.index [] p.pending).table.sets.length = p.table.sets.length + 1 := by
    simp [midst]
  rw [List.foldl_cons, step_first (h.below rfl), List.foldl_append, hbody _ hmidst.fits, hcount,
    extend_midst]
  refine (hmore _ _ _ _ _ _ _ _ hgrown).trans ?_
  simp only [closed, midst, extend, choiceSet, Block.size, Block.sets, Block.markers, List.append_nil,
    List.cons_append, List.nil_append, Nat.add_assoc, Nat.add_zero]

mutual

/-- **The pass over a block** adds its choices and leaves those open as it found them. -/
theorem Block.foldl_step (d : Int) : {choices : Bool} → (b : Block choices) → (p : Pass) →
    Fits choices d p → (b.commands d).foldl Pass.step p =
      extend p b.size (b.sets d p.index) (b.markers d p.index p.table.sets.length)
  | _, .nil, p, _ => by simp [Block.commands, Block.size, Block.sets, Block.markers, extend]
  | _, .leaf l rest, p, h => by
    have hl := foldl_plain (l.plain_commands d) h.within
    rw [Leaf.length_commands] at hl
    have hr := rest.foldl_step d (extend p l.size [] []) (h.extend l.size [] (.nil _ _))
    rw [Block.commands, List.foldl_append, hl, hr, extend_extend]
    simp only [Block.size, Block.sets, Block.markers, extend, List.append_nil, List.nil_append]
  | choices, .branch params yes no rest, p, h => by
    have hy := foldl_inner ⟨h.within, nofun, h.before⟩ (branchAt d params) rfl rfl
      fun q hq => yes.foldl_step (d + 1) q hq
    have hym := yes.markers_ordered (d + 1) (p.index + 1) p.table.sets.length
    have hywide : Ordered p.index (p.index + (1 + yes.size + 1))
        (yes.markers (d + 1) (p.index + 1) p.table.sets.length) := hym.widen (by omega) (by omega)
    have hyfits := h.extend (1 + yes.size + 1) (yes.sets (d + 1) (p.index + 1)) hywide
    obtain ⟨q, hq⟩ : ∃ q, q = extend p (1 + yes.size + 1) (yes.sets (d + 1) (p.index + 1))
      (yes.markers (d + 1) (p.index + 1) p.table.sets.length) := ⟨_, rfl⟩
    rw [← hq] at hy hyfits
    have hn := no.foldl_step d q ⟨hyfits.within, nofun, hyfits.before⟩
    have hnm := no.markers_ordered d q.index q.table.sets.length
    have hnfits := hyfits.extend no.size (no.sets d q.index) hnm
    have hr := rest.foldl_step d _ (hnfits.extend 1 [] (.nil _ _))
    have hsplit : (Block.branch params yes no rest : Block choices).commands d =
        (branchAt d params :: (yes.commands (d + 1) ++ [idleAt (d + 1)])) ++
          (no.commands d ++ (idleAt d :: rest.commands d)) := by
      simp [Block.commands]
    rw [hsplit, List.foldl_append, hy, List.foldl_append, hn, List.foldl_cons,
      step_plain (c := idleAt d) hnfits.within rfl, hr, extend_extend, extend_extend, hq,
      extend_extend]
    simp only [extend, Block.size, Block.sets, Block.markers, List.append_nil, List.nil_append,
      List.length_append, List.append_assoc, Nat.add_assoc]
  | _, .choice weight body more rest, p, h => by
    have hchoice := foldl_choice h weight (fun q hq => body.foldl_step d q hq)
      fun index before cur later passed latest inner outer hm =>
        more.foldl_step d index before cur later passed latest inner outer hm
    have hfits := h.extend _ ((Block.choice weight body more .nil).sets d p.index)
      ((Block.choice weight body more .nil).markers_ordered d p.index p.table.sets.length)
    have hr := rest.foldl_step d _ hfits
    have hsplit : (Block.choice weight body more rest).commands d =
        (weightAt d weight :: (body.commands d ++ (more.commands d ++ [endAt d]))) ++
          rest.commands d := by
      simp [Block.commands]
    have hcount : (body.sets d (p.index + 1)).length +
        ((more.sets d (p.index + (1 + body.size))).length + 1) =
        1 + ((body.sets d (p.index + 1)).length +
          (more.sets d (p.index + (1 + body.size))).length) := by
      omega
    rw [hsplit, List.foldl_append, hchoice, hr, extend_extend]
    simp only [extend, choiceSet, Block.size, Block.sets, Block.markers, List.append_nil,
      List.nil_append, List.cons_append, List.append_assoc, List.length_cons, List.length_append,
      Nat.add_assoc, Nat.add_zero, hcount]

theorem Otherwise.foldl_step (d : Int) : (o : Otherwise) → (p : Pass) → Fits false d p →
    (o.commands d).foldl Pass.step p =
      extend p o.size (o.sets d p.index) (o.markers d p.index p.table.sets.length)
  | .absent, p, _ => by
    simp [Otherwise.commands, Otherwise.size, Otherwise.sets, Otherwise.markers, extend]
  | .present b, p, h => by
    exact foldl_inner h (otherwiseAt d) rfl rfl fun q hq => b.foldl_step (d + 1) q hq

theorem Arms.foldl_step (d : Int) : (a : Arms) → (index : Nat) → (before : List BranchSet) →
    (cur : BranchSet) → (later : List BranchSet) → (passed : List Marker) → (latest : Nat) →
    (inner : List Marker) → (outer : List OpenSet) → Midst d index passed latest inner outer →
    (a.commands d ++ [endAt d]).foldl Pass.step
        (midst d index before cur later passed latest inner outer) =
      closed d index before cur later passed latest inner outer a
  | .done, index, before, cur, later, passed, latest, inner, outer, h => by
    rw [Arms.commands, List.nil_append, List.foldl_cons, List.foldl_nil, step_end_midst h]
    simp [closed, Arms.positions, Arms.weights, Arms.size, Arms.sets, Arms.markers]
  | .arm weight body others, index, before, cur, later, passed, latest, inner, outer, h => by
    have hnext := h.next (some before.length) index
    have hbody := body.foldl_step d
      (midst d (index + 1) before
        { cur with
          branches := cur.branches ++ [index], weights := cur.weights ++ [weightOf weight] }
        later (passed ++ ⟨latest, d, false, some before.length, index⟩ :: inner) index [] outer)
      hnext.fits
    have hothers := others.foldl_step d (index + 1 + body.size) before
      { cur with
        branches := cur.branches ++ [index], weights := cur.weights ++ [weightOf weight] }
      (later ++ body.sets d (index + 1))
      (passed ++ ⟨latest, d, false, some before.length, index⟩ :: inner) index
      (body.markers d (index + 1) (before.length + 1 + later.length)) outer
      (hnext.grow (body.markers_ordered d _ _) (Nat.le_add_right _ _))
    have hcount : (midst d (index + 1) before { cur with
        branches := cur.branches ++ [index], weights := cur.weights ++ [weightOf weight] } later
        (passed ++ ⟨latest, d, false, some before.length, index⟩ :: inner) index []
        outer).table.sets.length = before.length + 1 + later.length := by
      simp [midst]
      omega
    rw [Arms.commands, List.cons_append, List.foldl_cons, step_weight_midst h,
      List.append_assoc, List.foldl_append, hbody, extend_midst, hcount]
    simp only [midst, List.nil_append] at hothers ⊢
    rw [hothers]
    simp only [closed, Arms.positions, Arms.weights, Arms.size, Arms.sets, Arms.markers,
      List.append_assoc, List.cons_append, List.nil_append, List.length_append, Nat.add_assoc]

end

/-! ### The table of a tree -/

/-- **The jump table of a tree** holds its choices and their markers. -/
theorem Block.build_commands (d : Int) (b : Block true) :
    build (b.commands d) = { sets := b.sets d 0, markers := b.markers d 0 0 } := by
  have hfold := b.foldl_step d {} ⟨by simp, by simp, by simp⟩
  rw [build, hfold, closeDeeper_eq (by simp [extend])]
  simp [extend]

/-- The markers of a table stand one after the other. -/
def InOrder (t : WeightTable) : Prop := t.markers.Pairwise fun m m' => m.index < m'.index

theorem Block.inOrder_build (d : Int) (b : Block true) : InOrder (build (b.commands d)) := by
  rw [b.build_commands]
  exact (b.markers_ordered d 0 0).1

/-- The marker at a position is the one that stands there. -/
theorem marker?_of_mem {t : WeightTable} {m : Marker} (ht : InOrder t) (hm : m ∈ t.markers) :
    t.marker? m.index = some m := by
  obtain ⟨before, later, hl⟩ := List.append_of_mem hm
  rw [marker?, hl, List.find?_append]
  rw [InOrder, hl, List.pairwise_append] at ht
  have hbefore : before.find? (fun m' => (m'.index : Int) == m.index) = none := by
    rw [List.find?_eq_none]
    intro m' hm'
    have := ht.2.2 m' hm' m (by simp)
    simp
    omega
  rw [hbefore, List.find?_cons_of_pos (by simp)]
  rfl

end EventLayer.Program
