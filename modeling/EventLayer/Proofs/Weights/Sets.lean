/-
**The sets of a list, said without the pass.**

The weight commands of a list fall into sets.  Two of them belong to one set if they stand at the same
indentation, and nothing between them closes the set: no command of less indentation, and no closing
command of their own.  Within a set the branches follow each other, each ending where the next begins, and
what ends the last of them closes the set, unless the list ends first.

The pass makes just these sets.  It keeps the open ones by indentation, and it closes several at once where
the indentation drops.  What carries the proof is that the branches of every set found so far form a chain,
and that a set which is no longer open has been closed by what ended its last branch.

Main definitions:

* `EventCommand.ClosesSet`, `EventCommand.Adjoins` — what closes a set, and that nothing does in between;
* `EventCommand.EndsAt` — the first closing command behind a position;
* `BranchSet.Runs` — a chain of branches, each of which ends where the next begins;
* `BranchSet.Ended`, `BranchSet.LeftUnended` — sets that have been closed, and sets that nothing closes;
* `WeightTable.Gathers` — sets that go by a list as far as it has been passed.

Main results:

* `BranchSet.endIndex_eq_some_iff` — **a set ends at the first closing command behind its last branch**;
* `WeightTable.Pass.gathers_foldl` — the pass gathers the sets of the list;
* `WeightTable.set_build` — a set of a list has been closed, or nothing closes it;
* `WeightTable.sameSet_iff` — **two weight commands belong to the same set exactly if nothing between them
  closes it**.
-/
import EventLayer.Proofs.Weights.Pass
import Mathlib.Data.List.Chain

set_option autoImplicit false
set_option relaxedAutoImplicit false

namespace EventLayer

/-! ### What closes a set -/

namespace EventCommand

/-- A command closes the set that is open at an indentation: it is indented less, or it is a closing
command of the same indentation. -/
def ClosesSet (d : Int) (c : EventCommand) : Prop := c.indent < d ∨ (c.indent = d ∧ c.mark = .close)

/-- No command strictly between two positions closes a set at an indentation. -/
def Adjoins (l : List EventCommand) (d : Int) (i j : Nat) : Prop :=
  ∀ k c, i < k → k < j → l[k]? = some c → ¬ClosesSet d c

/-- The first closing command at an indentation behind a position; no command before it is indented less. -/
structure EndsAt (l : List EventCommand) (d : Int) (i j : Nat) : Prop where
  lt : i < j
  closes : ∃ c, l[j]? = some c ∧ c.indent = d ∧ c.mark = .close
  first : Adjoins l d i j

variable {l : List EventCommand} {d : Int} {c : EventCommand} {i j : Nat}

theorem ClosesSet.endsBranch (h : ClosesSet d c) : EndsBranch d c := by
  rcases h with hless | ⟨hsame, hclose⟩
  · exact Or.inl hless
  · exact Or.inr ⟨hsame, by rw [hclose]; exact nofun⟩

theorem IsWeight.endsBranch (h : c.IsWeight) (hindent : c.indent = d) : EndsBranch d c := by
  obtain ⟨w, hw⟩ := h
  exact Or.inr ⟨hindent, by rw [hw]; exact nofun⟩

theorem IsWeight.not_closesSet (h : c.IsWeight) (hindent : c.indent = d) : ¬ClosesSet d c := by
  obtain ⟨w, hw⟩ := h
  rintro (hless | ⟨-, hclose⟩)
  · omega
  · rw [hw] at hclose
    cases hclose

theorem Undisturbed.adjoins (h : Undisturbed l d i j) : Adjoins l d i j :=
  fun k c hik hkj hk hcloses => h k c hik hkj hk hcloses.endsBranch

/-- A branch ends at one position only. -/
theorem Stops.unique {j' : Nat} (h : Stops l d i j) (h' : Stops l d i j') : j = j' := by
  obtain ⟨c, hc, hends⟩ := h.ends
  obtain ⟨c', hc', hends'⟩ := h'.ends
  rcases Nat.lt_trichotomy j j' with hlt | rfl | hlt
  · exact absurd hends (h'.first j c h.lt hlt hc)
  · rfl
  · exact absurd hends' (h.first j' c' h'.lt hlt hc')

end EventCommand

namespace BranchSet

open EventCommand

/-- The branches of a set stand at its indentation, and each ends where the next begins. -/
structure Runs (l : List EventCommand) (s : BranchSet) : Prop where
  chain : s.branches.IsChain (Stops l s.depth)
  level : ∀ b ∈ s.branches, ∃ c, l[b]? = some c ∧ c.indent = s.depth ∧ c.IsWeight

/-- A set has been closed by the command that ends its last branch; it ends there if that is a closing
command of its own. -/
def Ended (l : List EventCommand) (s : BranchSet) : Prop :=
  ∃ last e c, s.branches.getLast? = some last ∧ Stops l s.depth last e ∧ l[e]? = some c ∧
    ClosesSet s.depth c ∧ s.endIndex = if c.indent < s.depth then none else some e

/-- No command closes a set. -/
def LeftUnended (l : List EventCommand) (s : BranchSet) : Prop :=
  s.endIndex = none ∧ ∃ last, s.branches.getLast? = some last ∧ Unended l s.depth last

variable {l : List EventCommand} {s : BranchSet} {c : EventCommand} {w : Double} {i j last : Nat}

/-- A set with a single branch. -/
theorem runs_single {n : Nat} (hc : l[n]? = some c) (hw : c.mark = .weight w) :
    ({ depth := c.indent, branches := [n], weights := [w] } : BranchSet).Runs l where
  chain := .singleton n
  level b hb := by
    cases List.mem_singleton.1 hb
    exact ⟨c, hc, rfl, w, hw⟩

/-- A weight command that ends the last branch of a set is its next branch. -/
theorem Runs.grow {n : Nat} (h : s.Runs l) (hlast : s.branches.getLast? = some last)
    (hstops : Stops l s.depth last n) (hc : l[n]? = some c) (hindent : c.indent = s.depth)
    (hw : c.mark = .weight w) :
    ({ s with branches := s.branches ++ [n], weights := s.weights ++ [w] } : BranchSet).Runs l where
  chain := by
    refine h.chain.append (.singleton n) ?_
    intro b hb b' hb'
    rw [hlast] at hb
    cases hb
    cases hb'
    exact hstops
  level b hb := by
    rcases List.mem_append.1 hb with hb | hb
    · exact h.level b hb
    · cases List.mem_singleton.1 hb
      exact ⟨c, hc, hindent, w, hw⟩

/-! ### Between the branches of a set -/

/-- A later weight command, which nothing in between separates from an earlier position. -/
def Linked (l : List EventCommand) (d : Int) (i j : Nat) : Prop :=
  i < j ∧ Adjoins l d i j ∧ ∃ c, l[j]? = some c ∧ c.indent = d ∧ c.IsWeight

theorem Linked.trans {d : Int} {k : Nat} (h : Linked l d i j) (h' : Linked l d j k) : Linked l d i k := by
  obtain ⟨hij, hadjoins, c, hc, hindent, hweight⟩ := h
  obtain ⟨hjk, hadjoins', hlast⟩ := h'
  refine ⟨hij.trans hjk, ?_, hlast⟩
  intro n c' hin hnk hn
  rcases Nat.lt_trichotomy n j with hlt | rfl | hlt
  · exact hadjoins n c' hin hlt hn
  · rw [hc] at hn
    cases hn
    exact hweight.not_closesSet hindent
  · exact hadjoins' n c' hlt hnk hn

instance (l : List EventCommand) (d : Int) : Trans (Linked l d) (Linked l d) (Linked l d) :=
  ⟨Linked.trans⟩

/-- **Nothing between two branches of a set closes it.** -/
theorem Runs.adjoins (h : s.Runs l) (hi : i ∈ s.branches) (hj : j ∈ s.branches) (hlt : i < j) :
    Adjoins l s.depth i j := by
  have hlinked : s.branches.Pairwise (Linked l s.depth) := by
    refine List.IsChain.pairwise ?_
    have hchain := h.chain
    have hlevel := h.level
    generalize s.branches = branches at hchain hlevel
    induction hchain with
    | nil => exact .nil
    | singleton b => exact .singleton b
    | cons_cons hstops _ ih =>
        refine .cons_cons ⟨hstops.lt, hstops.first.adjoins, ?_⟩ ?_
        · exact hlevel _ (by simp)
        · exact ih fun b hb => hlevel b (List.mem_cons_of_mem _ hb)
  obtain ⟨n, hn, rfl⟩ := List.mem_iff_getElem.1 hi
  obtain ⟨m, hm, rfl⟩ := List.mem_iff_getElem.1 hj
  rw [List.pairwise_iff_getElem] at hlinked
  rcases Nat.lt_trichotomy n m with hnm | rfl | hmn
  · exact (hlinked n m hn hm hnm).2.1
  · exact absurd hlt (Nat.lt_irrefl _)
  · exact absurd (hlinked m n hm hn hmn).1 (Nat.lt_asymm hlt)

/-- Behind the last branch of a set something that closes it comes before the next weight command of the
same indentation. -/
theorem not_adjoins_last (hclosed : s.Ended l ∨ s.LeftUnended l) (hlast : s.branches.getLast? = some last)
    (hlt : last < j) (hc : l[j]? = some c) (hindent : c.indent = s.depth) (hweight : c.IsWeight) :
    ¬Adjoins l s.depth last j := by
  have hends : EndsBranch s.depth c := hweight.endsBranch hindent
  intro hadjoins
  rcases hclosed with ⟨last', e, c', hlast', hstops, he, hcloses, -⟩ | ⟨-, last', hlast', hunended⟩
  · rw [hlast] at hlast'
    cases hlast'
    rcases Nat.lt_trichotomy j e with hje | rfl | hej
    · exact hstops.first j c hlt hje hc hends
    · rw [hc] at he
      cases he
      exact hweight.not_closesSet hindent hcloses
    · exact hadjoins e c' hstops.lt hej he hcloses
  · rw [hlast] at hlast'
    cases hlast'
    exact hunended j c hlt (List.getElem?_eq_some_iff.1 hc).1 hc hends

/-- **A weight command behind a branch of a set, with nothing in between that closes the set, is a branch
of it.**  The branches are followed one by one: each ends where the next begins, and a weight command of
the same indentation cannot be passed over. -/
theorem Runs.mem_of_adjoins (h : s.Runs l) (hclosed : s.Ended l ∨ s.LeftUnended l) (hi : i ∈ s.branches)
    (hlt : i < j) (hc : l[j]? = some c) (hindent : c.indent = s.depth) (hweight : c.IsWeight)
    (hadjoins : Adjoins l s.depth i j) : j ∈ s.branches := by
  have hbehind : ∀ last, s.branches.getLast? = some last → last < j → ¬Adjoins l s.depth last j :=
    fun last hlast hbefore => not_adjoins_last hclosed hlast hbefore hc hindent hweight
  have hchain := h.chain
  generalize s.branches = branches at hchain hi hbehind
  induction hchain generalizing i with
  | nil => cases hi
  | singleton b =>
      cases List.mem_singleton.1 hi
      exact absurd hadjoins (hbehind b rfl hlt)
  | @cons_cons a b rest hstops _ ih =>
      rw [List.getLast?_cons_cons] at hbehind
      rcases List.mem_cons.1 hi with rfl | hi
      · rcases Nat.lt_trichotomy j b with hjb | rfl | hbj
        · exact absurd (hweight.endsBranch hindent) (hstops.first j c hlt hjb hc)
        · simp
        · refine List.mem_cons_of_mem _ (ih hbj ?_ List.mem_cons_self hbehind)
          exact fun k c' hk => hadjoins k c' (hstops.lt.trans hk)
      · exact List.mem_cons_of_mem _ (ih hlt hadjoins hi hbehind)

/-- **A set ends at the first closing command behind its last branch**, unless a command of less
indentation comes before. -/
theorem endIndex_eq_some_iff (hclosed : s.Ended l ∨ s.LeftUnended l)
    (hlast : s.branches.getLast? = some last) {e : Nat} :
    s.endIndex = some e ↔ EndsAt l s.depth last e := by
  rcases hclosed with ⟨last', e', c, hlast', hstops, he, hcloses, hend⟩ | ⟨hend, last', hlast', hunended⟩
  · rw [hlast] at hlast'
    cases hlast'
    constructor
    · intro hindex
      rw [hend] at hindex
      split at hindex
      · cases hindex
      · next hnot =>
          cases hindex
          obtain ⟨hindent, hmark⟩ := hcloses.resolve_left hnot
          exact ⟨hstops.lt, ⟨c, he, hindent, hmark⟩, hstops.first.adjoins⟩
    · rintro ⟨hlt, ⟨c', hc', hindent, hmark⟩, hfirst⟩
      rcases Nat.lt_trichotomy e e' with hbefore | rfl | hbehind
      · exact absurd (ClosesSet.endsBranch (Or.inr ⟨hindent, hmark⟩)) (hstops.first e c' hlt hbefore hc')
      · rw [he] at hc'
        cases hc'
        rw [hend, if_neg (by omega)]
      · exact absurd hcloses (hfirst e' c hstops.lt hbehind he)
  · rw [hlast] at hlast'
    cases hlast'
    constructor
    · intro hindex
      rw [hend] at hindex
      cases hindex
    · rintro ⟨hlt, ⟨c', hc', hindent, hmark⟩, -⟩
      have hbound := (List.getElem?_eq_some_iff.1 hc').1
      exact absurd (ClosesSet.endsBranch (Or.inr ⟨hindent, hmark⟩)) (hunended e c' hlt hbound hc')

end BranchSet

/-! ### What the pass gathers -/

namespace WeightTable

open EventCommand

/-- Sets found so far that go by a list: the open ones wait for what ends their latest branch, all others
have been closed, and a marker names the set that it is a branch of. -/
structure Gathers (l : List EventCommand) (pending : List OpenSet) (found : List BranchSet)
    (markers : List Marker) : Prop where
  runs : ∀ s ∈ found, s.Runs l
  apart : ∀ o ∈ pending, ∀ o' ∈ pending, o.set = o'.set → o = o'
  opened : ∀ o ∈ pending, ∃ s, found[o.set]? = some s ∧ s.depth = o.depth ∧
    s.branches.getLast? = some o.latest ∧ s.endIndex = none
  ended : ∀ k s, found[k]? = some s → (∀ o ∈ pending, o.set ≠ k) → s.Ended l
  belongs : ∀ m ∈ markers, m.isEnd = false → ∀ k s, found[k]? = some s →
    (m.set = some k ↔ m.index ∈ s.branches)

variable {l : List EventCommand} {bound : Nat} {pending pending' closed : List OpenSet}
  {found found' : List BranchSet} {markers : List Marker} {c : EventCommand} {o : OpenSet}

theorem gathers_start : Gathers l [] [] [] where
  runs := nofun
  apart := nofun
  opened := nofun
  ended := nofun
  belongs := nofun

/-- What names the set of a branch is not touched where the branch is told where to go on. -/
theorem Gathers.belongs_release (h : Gathers l pending found markers) (stop : Nat) :
    ∀ m ∈ markers.map (release closed stop), m.isEnd = false → ∀ k s, found[k]? = some s →
      (m.set = some k ↔ m.index ∈ s.branches) := by
  intro m hm hend
  obtain ⟨m', hm', rfl⟩ := List.mem_map.1 hm
  rw [release_isEnd] at hend
  rw [release_set, release_index]
  exact h.belongs m' hm' hend

/-- The command at the bound ends the latest branch of an open set. -/
theorem Follows.stops (h : Follows l bound pending markers) (ho : o ∈ pending)
    (hc : l[bound]? = some c) (hends : EndsBranch o.depth c) : Stops l o.depth o.latest bound :=
  ⟨h.lt o ho, ⟨c, hc, hends⟩, h.quiet o ho⟩

/-- The sets that lie deeper than the command at the bound are closed by it, without a closing command of
their own. -/
theorem Gathers.release (h : Gathers l pending found markers) (hf : Follows l bound pending markers)
    (hc : l[bound]? = some c) (hkept : ∀ o ∈ pending', o ∈ pending)
    (hsplit : ∀ o ∈ pending, o ∈ pending' ∨ c.indent < o.depth) (stop : Nat) :
    Gathers l pending' found (markers.map (WeightTable.release closed stop)) where
  runs := h.runs
  apart o ho o' ho' := h.apart o (hkept o ho) o' (hkept o' ho')
  opened o ho := h.opened o (hkept o ho)
  ended := by
    intro k s hs hleft
    by_cases hopen : ∀ o ∈ pending, o.set ≠ k
    · exact h.ended k s hs hopen
    · obtain ⟨o, ho, hset⟩ : ∃ o ∈ pending, o.set = k := by simpa using hopen
      have hless : c.indent < o.depth := (hsplit o ho).resolve_left fun hin => hleft o hin hset
      obtain ⟨s', hs', hdepth, hlast, hnone⟩ := h.opened o ho
      rw [hset, hs] at hs'
      cases hs'
      refine ⟨o.latest, bound, c, hlast, ?_, hc, ?_, ?_⟩
      · exact hdepth ▸ hf.stops ho hc (Or.inl hless)
      · exact Or.inl (hdepth ▸ hless)
      · rw [hnone, hdepth, if_pos hless]
  belongs := h.belongs_release stop

/-- The marker of a closing command is that of no branch. -/
theorem Gathers.pushEnd {m : Marker} (h : Gathers l pending found markers) (hend : m.isEnd = true) :
    Gathers l pending found (markers ++ [m]) where
  runs := h.runs
  apart := h.apart
  opened := h.opened
  ended := h.ended
  belongs := by
    intro m' hm' hbranch
    rcases List.mem_append.1 hm' with hm' | hm'
    · exact h.belongs m' hm' hbranch
    · cases List.mem_singleton.1 hm'
      rw [hend] at hbranch
      cases hbranch

/-- A set among those of which one has been changed is that one, or one of before. -/
theorem getElem?_modify_cases {α : Type} {xs : List α} {f : α → α} {n k : Nat} {a : α}
    (h : (xs.modify n f)[k]? = some a) :
    (k = n ∧ ∃ b, xs[k]? = some b ∧ a = f b) ∨ (k ≠ n ∧ xs[k]? = some a) := by
  rw [List.getElem?_modify] at h
  obtain ⟨b, hb, rfl⟩ := Option.map_eq_some_iff.1 h
  by_cases hk : k = n
  · exact Or.inl ⟨hk, b, hb, if_pos hk.symm⟩
  · refine Or.inr ⟨hk, ?_⟩
    rw [if_neg fun hn => hk hn.symm]
    exact hb

/-- A set among those to which one has been added is the new one, or one of before. -/
theorem getElem?_concat_cases {α : Type} {xs : List α} {k : Nat} {a b : α} (h : (xs ++ [b])[k]? = some a) :
    (k < xs.length ∧ xs[k]? = some a) ∨ (k = xs.length ∧ a = b) := by
  by_cases hk : k < xs.length
  · rw [List.getElem?_append_left hk] at h
    exact Or.inl ⟨hk, h⟩
  · obtain ⟨hlt, hget⟩ := List.getElem?_eq_some_iff.1 h
    rw [List.length_append, List.length_singleton] at hlt
    obtain rfl : k = xs.length := by omega
    rw [List.getElem_concat_length rfl] at hget
    exact Or.inr ⟨rfl, hget.symm⟩

namespace Pass

variable {p : Pass} {w : Double}

/-- A pass gathers the sets of a list. -/
def Gathers (l : List EventCommand) (p : Pass) : Prop :=
  WeightTable.Gathers l p.pending p.table.sets p.table.markers

theorem Gathers.closeDeeper (h : p.Gathers l) (hf : p.Follows l) (hc : l[p.index]? = some c) :
    (p.closeDeeper c.indent p.index).Gathers l := by
  have hsets : (p.closeDeeper c.indent p.index).table.sets = p.table.sets := (foldl_setStop _ _ _).2
  rw [Gathers, hsets, closeDeeper_markers]
  refine WeightTable.Gathers.release h hf hc (fun o ho => (List.mem_filter.1 ho).1) ?_ _
  intro o ho
  by_cases hdeep : c.indent < o.depth
  · exact Or.inr hdeep
  · exact Or.inl (List.mem_filter.2 ⟨ho, by simpa using hdeep⟩)

/-- What names the sets once the set at an indentation has got a further branch. -/
theorem Gathers.belongs_grow (h : p.Gathers l) (hf : p.Follows l) (hn : p.Counts l) (o : OpenSet) :
    ∀ m ∈ (p.table.setStop o.latest p.index).markers ++ [⟨p.index, c.indent, false, some o.set, 0⟩],
      m.isEnd = false → ∀ k s, (p.table.sets.modify o.set fun s =>
        { s with branches := s.branches ++ [p.index], weights := s.weights ++ [w] })[k]? = some s →
          (m.set = some k ↔ m.index ∈ s.branches) := by
  intro m hm hend k s hs
  rcases List.mem_append.1 hm with hm | hm
  · rw [markers_setStop] at hm
    have hbefore : m.index < p.index := by
      obtain ⟨m', hm', rfl⟩ := List.mem_map.1 hm
      rw [release_index]
      exact (hf.marks m' hm').2
    have hbelongs := h.belongs_release p.index m hm hend k
    rcases getElem?_modify_cases hs with ⟨-, s', hs', rfl⟩ | ⟨-, hs'⟩
    · rw [hbelongs s' hs', List.mem_append, List.mem_singleton, or_iff_left (by omega)]
    · exact hbelongs s hs'
  · cases List.mem_singleton.1 hm
    rcases getElem?_modify_cases hs with ⟨rfl, s', hs', rfl⟩ | ⟨hk, hs'⟩
    · exact iff_of_true rfl (by simp)
    · refine iff_of_false (fun heq => hk (Option.some.inj heq).symm) fun hin => ?_
      exact Nat.lt_irrefl _ ((hn.sets s (List.mem_of_getElem? hs')).2 _ hin)

/-- The set at the indentation of a weight command gets a further branch. -/
theorem Gathers.grow (h : p.Gathers l) (hf : p.Follows l) (hn : p.Counts l) (hc : l[p.index]? = some c)
    (hw : c.mark = .weight w) (ho : p.openAt? c.indent = some o) :
    WeightTable.Gathers l
      (p.pending.map fun q => if q.depth = c.indent then { q with latest := p.index } else q)
      (p.table.sets.modify o.set fun s =>
        { s with branches := s.branches ++ [p.index], weights := s.weights ++ [w] })
      ((p.table.setStop o.latest p.index).markers ++ [⟨p.index, c.indent, false, some o.set, 0⟩]) := by
  obtain ⟨hmem, hdepth⟩ := openAt?_eq_some ho
  obtain ⟨s₀, hs₀, hlevel, hlast, hnone⟩ := h.opened o hmem
  have hstops : Stops l s₀.depth o.latest p.index :=
    hlevel ▸ hf.stops hmem hc (IsWeight.endsBranch ⟨w, hw⟩ hdepth.symm)
  -- an open set at this indentation is the one that grows
  have hsame : ∀ q ∈ p.pending, q.depth = c.indent → q = o := fun q hq hat =>
    hf.unique q hq o hmem (hat.trans hdepth.symm)
  have hset : ∀ q : OpenSet, (if q.depth = c.indent then { q with latest := p.index } else q).set =
      q.set := by
    intro q
    split <;> rfl
  refine ⟨?runs, ?apart, ?opened, ?ended, h.belongs_grow hf hn o⟩
  case runs =>
    intro s hs
    obtain ⟨k, hk⟩ := List.mem_iff_getElem?.1 hs
    rcases getElem?_modify_cases hk with ⟨rfl, s', hs', rfl⟩ | ⟨-, hs'⟩
    · rw [hs₀] at hs'
      cases hs'
      exact (h.runs s₀ (List.mem_of_getElem? hs₀)).grow hlast hstops hc
        (hdepth.symm.trans hlevel.symm) hw
    · exact h.runs s (List.mem_of_getElem? hs')
  case apart =>
    intro q hq q' hq' heq
    obtain ⟨r, hr, rfl⟩ := List.mem_map.1 hq
    obtain ⟨r', hr', rfl⟩ := List.mem_map.1 hq'
    rw [hset, hset] at heq
    rw [h.apart r hr r' hr' heq]
  case opened =>
    intro q hq
    obtain ⟨r, hr, rfl⟩ := List.mem_map.1 hq
    by_cases hat : r.depth = c.indent
    · rw [if_pos hat, hsame r hr hat, List.getElem?_modify_eq, hs₀]
      exact ⟨_, rfl, hlevel, List.getLast?_concat .., hnone⟩
    · have hother : o.set ≠ r.set := fun heq => hat ((h.apart o hmem r hr heq) ▸ hdepth)
      rw [if_neg hat, List.getElem?_modify_ne _ _ hother]
      exact h.opened r hr
  case ended =>
    intro k s hs hleft
    have hleft' : ∀ q ∈ p.pending, q.set ≠ k := fun q hq =>
      hset q ▸ hleft _ (List.mem_map_of_mem hq)
    rcases getElem?_modify_cases hs with ⟨rfl, -⟩ | ⟨-, hs'⟩
    · exact absurd rfl (hleft' o hmem)
    · exact h.ended k s hs' hleft'

/-- What names the sets once a set with a single branch has been opened. -/
theorem Gathers.belongs_open (h : p.Gathers l) (hf : p.Follows l) (hn : p.Counts l) :
    ∀ m ∈ p.table.markers ++ [⟨p.index, c.indent, false, some p.table.sets.length, 0⟩], m.isEnd = false →
      ∀ (k : Nat) (s : BranchSet), (p.table.sets ++
        [{ depth := c.indent, branches := [p.index], weights := [w] }])[k]? = some s →
          (m.set = some k ↔ m.index ∈ s.branches) := by
  intro m hm hend k s hs
  rcases List.mem_append.1 hm with hm | hm
  · rcases getElem?_concat_cases hs with ⟨-, hs⟩ | ⟨rfl, rfl⟩
    · exact h.belongs m hm hend k s hs
    · obtain ⟨k, hk, hset⟩ := hn.named m hm hend
      have hbefore := (hf.marks m hm).2
      refine iff_of_false (fun heq => ?_) (fun hin => ?_)
      · rw [hset] at heq
        cases heq
        exact Nat.lt_irrefl _ hk
      · exact Nat.ne_of_lt hbefore (List.mem_singleton.1 hin)
  · cases List.mem_singleton.1 hm
    rcases getElem?_concat_cases hs with ⟨hk, hs⟩ | ⟨rfl, rfl⟩
    · refine iff_of_false (fun heq => Nat.ne_of_gt hk (Option.some.inj heq)) (fun hin => ?_)
      exact Nat.lt_irrefl _ ((hn.sets s (List.mem_of_getElem? hs)).2 _ hin)
    · exact iff_of_true rfl (List.mem_singleton.2 rfl)

/-- A weight command at an indentation where no set is open opens one. -/
theorem Gathers.openSet (h : p.Gathers l) (hf : p.Follows l) (hn : p.Counts l) (hc : l[p.index]? = some c)
    (hw : c.mark = .weight w) :
    WeightTable.Gathers l (p.pending ++ [⟨c.indent, p.table.sets.length, p.index⟩])
      (p.table.sets ++ [{ depth := c.indent, branches := [p.index], weights := [w] }])
      (p.table.markers ++ [⟨p.index, c.indent, false, some p.table.sets.length, 0⟩]) where
  runs := by
    intro s hs
    rcases List.mem_append.1 hs with hs | hs
    · exact h.runs s hs
    · cases List.mem_singleton.1 hs
      exact BranchSet.runs_single hc hw
  apart := by
    intro q hq q' hq' heq
    rcases List.mem_append.1 hq with hq | hq <;> rcases List.mem_append.1 hq' with hq' | hq'
    · exact h.apart q hq q' hq' heq
    · cases List.mem_singleton.1 hq'
      exact absurd (hn.numbered q hq) (by rw [heq]; exact Nat.lt_irrefl _)
    · cases List.mem_singleton.1 hq
      exact absurd (hn.numbered q' hq') (by rw [← heq]; exact Nat.lt_irrefl _)
    · cases List.mem_singleton.1 hq
      cases List.mem_singleton.1 hq'
      rfl
  opened := by
    intro q hq
    rcases List.mem_append.1 hq with hq | hq
    · rw [List.getElem?_append_left (hn.numbered q hq)]
      exact h.opened q hq
    · cases List.mem_singleton.1 hq
      exact ⟨_, List.getElem?_concat_length, rfl, rfl, rfl⟩
  ended := by
    intro k s hs hleft
    rcases getElem?_concat_cases hs with ⟨-, hs⟩ | ⟨rfl, -⟩
    · exact h.ended k s hs fun q hq => hleft q (List.mem_append_left _ hq)
    · exact absurd rfl (hleft _ (List.mem_append_right _ (List.mem_singleton.2 rfl)))
  belongs := h.belongs_open hf hn

theorem Gathers.addBranch (h : p.Gathers l) (hf : p.Follows l) (hn : p.Counts l)
    (hc : l[p.index]? = some c) (hw : c.mark = .weight w) : (p.addBranch c.indent w).Gathers l := by
  rw [Gathers]
  unfold Pass.addBranch
  split
  · next o ho => exact h.grow hf hn hc hw ho
  · exact h.openSet hf hn hc hw

/-- The set that is open at the indentation of a closing command ends there. -/
theorem Gathers.closeSet (h : p.Gathers l) (hf : p.Follows l) (hc : l[p.index]? = some c)
    (hclose : c.mark = .close) (ho : p.openAt? c.indent = some o) :
    WeightTable.Gathers l (p.pending.filter fun q => q.depth != c.indent)
      (p.table.sets.modify o.set fun s => { s with endIndex := some p.index })
      (p.table.setStop o.latest p.index).markers := by
  obtain ⟨hmem, hdepth⟩ := openAt?_eq_some ho
  obtain ⟨s₀, hs₀, hlevel, hlast, -⟩ := h.opened o hmem
  have hcloses : ClosesSet o.depth c := Or.inr ⟨hdepth.symm, hclose⟩
  have hstops : Stops l o.depth o.latest p.index := hf.stops hmem hc hcloses.endsBranch
  have hkept : ∀ q ∈ p.pending.filter (fun q => q.depth != c.indent),
      q ∈ p.pending ∧ o.set ≠ q.set := by
    intro q hq
    obtain ⟨hq, hother⟩ := List.mem_filter.1 hq
    refine ⟨hq, fun heq => ?_⟩
    rw [← h.apart o hmem q hq heq, hdepth] at hother
    simp at hother
  refine ⟨?runs, fun q hq q' hq' => h.apart q (hkept q hq).1 q' (hkept q' hq').1, ?opened, ?ended, ?belongs⟩
  case runs =>
    intro s hs
    rcases mem_or_of_mem_modify hs with hs | ⟨s', hs', rfl⟩
    · exact h.runs s hs
    · exact ⟨(h.runs s' hs').chain, (h.runs s' hs').level⟩
  case opened =>
    intro q hq
    rw [List.getElem?_modify_ne _ _ (hkept q hq).2]
    exact h.opened q (hkept q hq).1
  case ended =>
    intro k s hs hleft
    rcases getElem?_modify_cases hs with ⟨rfl, s', hs', rfl⟩ | ⟨hk, hs'⟩
    · rw [hs₀] at hs'
      cases hs'
      refine ⟨o.latest, p.index, c, hlast, hlevel ▸ hstops, hc, hlevel ▸ hcloses, ?_⟩
      rw [if_neg (by rw [hlevel, hdepth]; exact Int.lt_irrefl _)]
    · refine h.ended k s hs' fun q hq heq => ?_
      by_cases hat : q.depth = c.indent
      · have hsame := hf.unique q hq o hmem (hat.trans hdepth.symm)
        exact hk (heq ▸ hsame ▸ rfl)
      · exact hleft q (List.mem_filter.2 ⟨hq, by simpa using hat⟩) heq
  case belongs =>
    intro m hm hend k s hs
    rw [markers_setStop] at hm
    have hbelongs := h.belongs_release p.index m hm hend k
    rcases getElem?_modify_cases hs with ⟨-, s', hs', rfl⟩ | ⟨-, hs'⟩
    · exact hbelongs s' hs'
    · exact hbelongs s hs'

/-- A closing command ends the set that is open at its indentation, if there is one. -/
theorem Gathers.close (h : p.Gathers l) (hf : p.Follows l) (hc : l[p.index]? = some c)
    (hclose : c.mark = .close) : (p.close c.indent).Gathers l := by
  rw [Gathers]
  unfold Pass.close
  cases ho : p.openAt? c.indent with
  | none =>
      have hall : (p.pending.filter fun o => o.depth != c.indent) = p.pending :=
        List.filter_eq_self.2 fun o hmem => by simpa using openAt?_eq_none ho o hmem
      rw [hall]
      exact h.pushEnd rfl
  | some o => exact (h.closeSet hf hc hclose ho).pushEnd rfl

/-- **A command of the list leaves the pass gathering its sets.** -/
theorem Gathers.step (h : p.Gathers l) (hf : p.Follows l) (hn : p.Counts l) (hc : l[p.index]? = some c) :
    (p.step c).Gathers l := by
  have hclosed := h.closeDeeper hf hc
  have hfollows : (p.closeDeeper c.indent p.index).Follows l := hf.closeDeeper hc
  have hcounts : (p.closeDeeper c.indent p.index).Counts l := hn.closeDeeper _ _
  unfold Pass.step
  cases hmark : c.mark with
  | weight w => exact hclosed.addBranch hfollows hcounts hc hmark
  | close => exact hclosed.close hfollows hc hmark
  | plain => exact hclosed

/-- **The pass gathers the sets of the list.** -/
theorem gathers_foldl (l : List EventCommand) : (l.foldl Pass.step {}).Gathers l := by
  have hall : ((l.foldl Pass.step {}).Gathers l ∧ (l.foldl Pass.step {}).Follows l) ∧
      (l.foldl Pass.step {}).Counts l := by
    refine holds_foldl (P := fun p => (p.Gathers l ∧ p.Follows l) ∧ p.Counts l) ?_ ?_
    · rintro p c ⟨⟨hg, hf⟩, hn⟩ hc
      exact ⟨⟨hg.step hf hn hc, hf.step hc⟩, hn.step hc⟩
    · exact ⟨⟨gathers_start, follows_start⟩, counts_start⟩
  exact hall.1.1

end Pass

/-! ### The sets of a table -/

/-- What the pass has gathered when the list is over: nothing more is closed then. -/
theorem gathers_build (l : List EventCommand) :
    ∃ pending, Gathers l pending (build l).sets (l.foldl Pass.step {}).table.markers ∧
      Follows l l.length pending (l.foldl Pass.step {}).table.markers := by
  have hg := Pass.gathers_foldl l
  have hf := Pass.follows_foldl l
  have hsets : (build l).sets = (l.foldl Pass.step {}).table.sets := (foldl_setStop _ _ _).2
  have hbound : (l.foldl Pass.step {}).index = l.length := by
    simpa using Pass.index_foldl l {}
  rw [Pass.Follows, hbound] at hf
  exact ⟨_, hsets ▸ hg, hf⟩

/-- **A set of a list runs along it, and has been closed, or nothing closes it.** -/
theorem set_build {s : BranchSet} (hs : s ∈ (build l).sets) :
    s.Runs l ∧ (s.Ended l ∨ s.LeftUnended l) := by
  obtain ⟨pending, hg, hf⟩ := gathers_build l
  refine ⟨hg.runs s hs, ?_⟩
  obtain ⟨k, hk⟩ := List.mem_iff_getElem?.1 hs
  by_cases hopen : ∀ o ∈ pending, o.set ≠ k
  · exact Or.inl (hg.ended k s hk hopen)
  · obtain ⟨o, ho, hset⟩ : ∃ o ∈ pending, o.set = k := by simpa using hopen
    obtain ⟨s', hs', hdepth, hlast, hnone⟩ := hg.opened o ho
    rw [hset, hk] at hs'
    cases hs'
    exact Or.inr ⟨hnone, o.latest, hlast, hdepth ▸ hf.quiet o ho⟩

/-- The marker of a branch names the set that holds it. -/
theorem belongs_build {m : Marker} (hm : m ∈ (build l).markers) (hend : m.isEnd = false) {k : Nat}
    {s : BranchSet} (hs : (build l).sets[k]? = some s) : m.set = some k ↔ m.index ∈ s.branches := by
  obtain ⟨pending, hg, -⟩ := gathers_build l
  rw [build, Pass.closeDeeper_markers] at hm
  exact hg.belongs_release l.length m hm hend k s hs

/-- The marker of a weight command that stands at a position of the list. -/
theorem marker?_of_isWeight {i : Nat} {m : Marker} (hc : l[i]? = some c) (hweight : c.IsWeight)
    (hm : (build l).marker? i = some m) : m ∈ (build l).markers ∧ m.index = i ∧ m.isEnd = false ∧
      ∃ k s, m.set = some k ∧ (build l).sets[k]? = some s ∧ i ∈ s.branches ∧ c.indent = s.depth := by
  obtain ⟨m', s, hm', hmem, hindex, -, hend, hset⟩ := exists_marker_build hc hweight
  rw [hm] at hm'
  cases hm'
  obtain ⟨k, hk, hs⟩ := Option.bind_eq_some_iff.1 hset
  have hin : i ∈ s.branches := hindex ▸ (belongs_build hmem hend hs).1 hk
  obtain ⟨c', hc', hindent, -⟩ := (set_build (List.mem_of_getElem? hs)).1.level i hin
  rw [hc] at hc'
  cases hc'
  exact ⟨hmem, hindex, hend, k, s, hk, hs, hin, hindent⟩

/-- **Two weight commands belong to the same set exactly if they stand at the same indentation and nothing
between them closes the set.** -/
theorem sameSet_iff {i j : Nat} {c' : EventCommand} {m m' : Marker} (hlt : i < j) (hc : l[i]? = some c)
    (hweight : c.IsWeight) (hc' : l[j]? = some c') (hweight' : c'.IsWeight)
    (hm : (build l).marker? i = some m) (hm' : (build l).marker? j = some m') :
    m.set = m'.set ↔ c.indent = c'.indent ∧ Adjoins l c.indent i j := by
  obtain ⟨-, -, -, k, s, hk, hs, hi, hindent⟩ := marker?_of_isWeight hc hweight hm
  obtain ⟨hmem', hindex', hend', k', s', hk', hs', hj, hindent'⟩ := marker?_of_isWeight hc' hweight' hm'
  obtain ⟨hruns, hclosed⟩ := set_build (List.mem_of_getElem? hs)
  constructor
  · intro hsame
    rw [hk, hk'] at hsame
    cases hsame
    rw [hs] at hs'
    cases hs'
    exact ⟨hindent.trans hindent'.symm, hindent ▸ hruns.adjoins hi hj hlt⟩
  · rintro ⟨hsame, hadjoins⟩
    have hin : j ∈ s.branches := hruns.mem_of_adjoins hclosed hi hlt hc' (hsame.symm.trans hindent) hweight'
      (hindent ▸ hadjoins)
    exact hk.trans ((belongs_build hmem' hend' hs).2 (hindex'.symm ▸ hin)).symm

end WeightTable

end EventLayer
