/-
**Brackets among the markers of a route.**

Opening markers and closing markers of a route match as brackets do, and the alternatives between
them belong to the innermost chain that is open.  Said without a stack: the number of open chains
rises at an opening marker and falls at a closing one, but not below zero, and a chain is open as
long as the number stays above what it was where the chain began.  This is said here for any sequence
of markers, balanced or not, as what the pairing of a route ought to be.

Main definitions:

* `Pairing.depth`, `Pairing.OpenAt`, `Pairing.Innermost` — the number of open chains, a chain that is
  open, and the innermost one;
* `Pairing.Belongs`, `Pairing.Stray` — the markers of a chain, and those of none;
* `Pairing.IsNext`, `Pairing.IsEnd` — the jumps that bracket matching prescribes.

Main results:

* `Pairing.innermost_iff` — the innermost chain is the one that opened one chain less deep;
* `Pairing.belongs_or_stray` — every marker is in a chain, or outside every chain;
* `Pairing.IsNext.lt`, `Pairing.IsEnd.lt` — **jumps lead forward**;
* `Pairing.Belongs.nested` — chains are nested.
-/
import Mathlib.Order.Nat
import Mathlib.Tactic.ByContra
import EventLayer.Route

set_option autoImplicit false
set_option relaxedAutoImplicit false

namespace EventLayer.Pairing

/-! ### Matching -/

/-- The part in a chain of branches that the step at a position plays. -/
def kindAt (kinds : List (Option MarkerKind)) (k : Nat) : Option MarkerKind := kinds[k]?.join

/-- How many chains are open before a position. -/
def depth (kinds : List (Option MarkerKind)) : Nat → Nat
  | 0 => 0
  | k + 1 =>
    match kindAt kinds k with
    | some .opening => depth kinds k + 1
    | some .closing => depth kinds k - 1
    | _ => depth kinds k

/-- The chain that opens at `o` is still open before position `k`. -/
structure OpenAt (kinds : List (Option MarkerKind)) (o k : Nat) : Prop where
  opening : kindAt kinds o = some .opening
  before : o < k
  above : ∀ j, o < j → j ≤ k → depth kinds o < depth kinds j

/-- The chain that opens at `o` is the last one of those open before position `k`. -/
def Innermost (kinds : List (Option MarkerKind)) (o k : Nat) : Prop :=
  OpenAt kinds o k ∧ ∀ o', OpenAt kinds o' k → o' ≤ o

/-- The marker at `j` is one of the chain that opens at `o`. -/
def Belongs (kinds : List (Option MarkerKind)) (o j : Nat) : Prop :=
  kindAt kinds j = some .opening ∧ j = o ∨
    (kindAt kinds j = some .alternative ∨ kindAt kinds j = some .closing) ∧ Innermost kinds o j

/-- A marker leads to the next one of its chain. -/
def IsNext (kinds : List (Option MarkerKind)) (i j : Nat) : Prop :=
  ∃ o, Belongs kinds o i ∧ Belongs kinds o j ∧ i < j ∧ ∀ k, Belongs kinds o k → k ≤ i ∨ j ≤ k

/-- A marker leads to the closing marker of its chain, or, if there is none, behind everything. -/
def IsEnd (kinds : List (Option MarkerKind)) (i e : Nat) : Prop :=
  ∃ o, Belongs kinds o i ∧
    (Belongs kinds o e ∧ kindAt kinds e = some .closing ∨
      e = kinds.length ∧ ∀ k, Belongs kinds o k → kindAt kinds k ≠ some .closing)

/-- A marker outside every chain: it continues or closes a chain where none is open. -/
def Stray (kinds : List (Option MarkerKind)) (i : Nat) : Prop :=
  (kindAt kinds i = some .alternative ∨ kindAt kinds i = some .closing) ∧
    ∀ o, ¬OpenAt kinds o i

section Depth

variable {kinds : List (Option MarkerKind)} {o o' i j k e : Nat}

theorem depth_succ_opening (h : kindAt kinds k = some .opening) :
    depth kinds (k + 1) = depth kinds k + 1 := by
  rw [depth, h]

theorem depth_succ_closing (h : kindAt kinds k = some .closing) :
    depth kinds (k + 1) = depth kinds k - 1 := by
  rw [depth, h]

theorem depth_succ_alternative (h : kindAt kinds k = some .alternative) :
    depth kinds (k + 1) = depth kinds k := by
  rw [depth, h]

theorem depth_succ_none (h : kindAt kinds k = none) : depth kinds (k + 1) = depth kinds k := by
  rw [depth, h]

/-- Only a closing marker lowers the number of open chains. -/
theorem depth_le_succ (h : kindAt kinds k ≠ some .closing) :
    depth kinds k ≤ depth kinds (k + 1) := by
  cases hk : kindAt kinds k with
  | none => rw [depth_succ_none hk]
  | some kind =>
      cases kind with
      | opening => rw [depth_succ_opening hk]; omega
      | alternative => rw [depth_succ_alternative hk]
      | closing => exact absurd hk h

/-- Only an opening marker raises it. -/
theorem depth_succ_le (h : kindAt kinds k ≠ some .opening) :
    depth kinds (k + 1) ≤ depth kinds k := by
  cases hk : kindAt kinds k with
  | none => rw [depth_succ_none hk]
  | some kind =>
      cases kind with
      | opening => exact absurd hk h
      | alternative => rw [depth_succ_alternative hk]
      | closing => rw [depth_succ_closing hk]; omega

theorem lt_length_of_kindAt {kind : MarkerKind} (h : kindAt kinds i = some kind) :
    i < kinds.length := by
  rw [kindAt, Option.join_eq_some_iff] at h
  exact (List.getElem?_eq_some_iff.1 h).1

/-! ### Open chains -/

theorem OpenAt.mono (h : OpenAt kinds o k) (hj : o < j) (hk : j ≤ k) : OpenAt kinds o j :=
  ⟨h.opening, hj, fun l hl hlj => h.above l hl (hlj.trans hk)⟩

theorem OpenAt.depth_lt (h : OpenAt kinds o k) : depth kinds o < depth kinds k :=
  h.above k h.before le_rfl

theorem OpenAt.succ (h : OpenAt kinds o k) (hd : depth kinds o < depth kinds (k + 1)) :
    OpenAt kinds o (k + 1) := by
  refine ⟨h.opening, h.before.trans (Nat.lt_succ_self k), fun j hj hk => ?_⟩
  rcases Nat.lt_or_eq_of_le hk with hk | rfl
  · exact h.above j hj (Nat.le_of_lt_succ hk)
  · exact hd

theorem openAt_succ_self (h : kindAt kinds k = some .opening) : OpenAt kinds k (k + 1) := by
  refine ⟨h, Nat.lt_succ_self k, fun j hj hk => ?_⟩
  obtain rfl : j = k + 1 := by omega
  rw [depth_succ_opening h]
  exact Nat.lt_succ_self _

/-- Of two open chains the one that opened later opened deeper. -/
theorem OpenAt.depth_lt_depth (h : OpenAt kinds o k) (h' : OpenAt kinds o' k) (ho : o < o') :
    depth kinds o < depth kinds o' := h.above o' ho h'.before.le

/-- For every depth below the present one there is an open chain. -/
theorem exists_openAt {d : Nat} (h : d < depth kinds k) :
    ∃ o, OpenAt kinds o k ∧ depth kinds o = d := by
  induction k with
  | zero => cases h
  | succ k ih =>
      by_cases hd : d < depth kinds k
      · obtain ⟨o, ho, rfl⟩ := ih hd
        exact ⟨o, ho.succ h, rfl⟩
      · have hopening : kindAt kinds k = some .opening := by
          by_contra hne
          exact hd (h.trans_le (depth_succ_le hne))
        rw [depth_succ_opening hopening] at h
        exact ⟨k, openAt_succ_self hopening, by omega⟩

/-- The innermost chain is the one that opened one chain less deep. -/
theorem innermost_iff : Innermost kinds o k ↔ OpenAt kinds o k ∧ depth kinds k = depth kinds o + 1 := by
  refine ⟨fun ⟨h, hlast⟩ => ⟨h, ?_⟩, fun ⟨h, hd⟩ => ⟨h, fun o' h' => ?_⟩⟩
  · by_contra hne
    have hlt : depth kinds o + 1 < depth kinds k := by
      have := h.depth_lt
      omega
    obtain ⟨o', h', hd⟩ := exists_openAt hlt
    rcases Nat.lt_or_eq_of_le (hlast o' h') with ho | rfl
    · have := h'.depth_lt_depth h ho
      omega
    · omega
  · by_contra hlt
    have := h.depth_lt_depth h' (by omega)
    have := h'.depth_lt
    omega

theorem exists_innermost (h : 0 < depth kinds k) : ∃ o, Innermost kinds o k := by
  obtain ⟨o, ho, hd⟩ := exists_openAt (show depth kinds k - 1 < depth kinds k by omega)
  exact ⟨o, innermost_iff.2 ⟨ho, by omega⟩⟩

theorem Innermost.unique (h : Innermost kinds o k) (h' : Innermost kinds o' k) : o = o' :=
  le_antisymm (h'.2 o h.1) (h.2 o' h'.1)

/-- No chain is open where the number of open chains is zero. -/
theorem depth_eq_zero_iff : depth kinds k = 0 ↔ ∀ o, ¬OpenAt kinds o k := by
  refine ⟨fun h o ho => ?_, fun h => ?_⟩
  · have := ho.depth_lt
    omega
  · by_contra hne
    obtain ⟨o, ho⟩ := exists_innermost (Nat.pos_of_ne_zero hne)
    exact h o ho.1

/-! ### Markers of a chain -/

theorem Belongs.opening (h : Belongs kinds o i) : kindAt kinds o = some .opening := by
  rcases h with ⟨h, rfl⟩ | ⟨-, h⟩
  · exact h
  · exact h.1.opening

theorem Belongs.le (h : Belongs kinds o i) : o ≤ i := by
  rcases h with ⟨-, rfl⟩ | ⟨-, h⟩
  · exact le_rfl
  · exact h.1.before.le

theorem Belongs.unique (h : Belongs kinds o i) (h' : Belongs kinds o' i) : o = o' := by
  rcases h with ⟨h, rfl⟩ | ⟨h, hin⟩ <;> rcases h' with ⟨h', rfl⟩ | ⟨h', hin'⟩
  · rfl
  · rw [h] at h'
    rcases h' with h' | h' <;> cases h'
  · rw [h'] at h
    rcases h with h | h <;> cases h
  · exact hin.unique hin'

theorem Belongs.exists_kind (h : Belongs kinds o i) : ∃ kind, kindAt kinds i = some kind := by
  rcases h with ⟨h, -⟩ | ⟨h | h, -⟩ <;> exact ⟨_, h⟩

theorem belongs_self (h : kindAt kinds o = some .opening) : Belongs kinds o o := .inl ⟨h, rfl⟩

/-- A marker behind the start of its chain is one of the innermost chain. -/
theorem Belongs.innermost (h : Belongs kinds o i) (ho : o ≠ i) : Innermost kinds o i := by
  rcases h with ⟨-, rfl⟩ | ⟨-, h⟩
  · exact absurd rfl ho
  · exact h

/-- A chain that is not open at a position has no markers from there on. -/
theorem Belongs.lt (h : Belongs kinds o i) (hk : ¬OpenAt kinds o k) (ho : o < k) : i < k := by
  by_contra hle
  have hne : o ≠ i := by omega
  exact hk ((h.innermost hne).1.mono ho (by omega))

/-- Behind its closing marker a chain is not open. -/
theorem not_openAt_of_closing (h : Belongs kinds o e) (he : kindAt kinds e = some .closing)
    (hk : e < k) : ¬OpenAt kinds o k := by
  have hin : Innermost kinds o e := by
    refine h.innermost ?_
    rintro rfl
    rw [h.opening] at he
    cases he
  obtain ⟨hopen, hd⟩ := innermost_iff.1 hin
  intro ho
  have := ho.above (e + 1) (by have := hopen.before; omega) hk
  rw [depth_succ_closing he, hd] at this
  omega

/-! ### Where the jumps lead -/

theorem IsNext.lt (h : IsNext kinds i j) : i < j ∧ j < kinds.length := by
  obtain ⟨o, -, hj, hlt, -⟩ := h
  obtain ⟨kind, hkind⟩ := hj.exists_kind
  exact ⟨hlt, lt_length_of_kindAt hkind⟩

/-- The end of a chain lies behind its other markers. -/
theorem IsEnd.lt (h : IsEnd kinds i e) (hi : kindAt kinds i ≠ some .closing) :
    i < e ∧ e ≤ kinds.length := by
  obtain ⟨o, ho, ⟨he, hclosing⟩ | ⟨rfl, -⟩⟩ := h
  · refine ⟨?_, (lt_length_of_kindAt hclosing).le⟩
    rcases Nat.lt_trichotomy i e with hlt | rfl | hgt
    · exact hlt
    · exact absurd hclosing hi
    · have hne : o ≠ i := by have := he.le; omega
      exact absurd (ho.innermost hne).1 (not_openAt_of_closing he hclosing hgt)
  · obtain ⟨kind, hkind⟩ := ho.exists_kind
    exact ⟨lt_length_of_kindAt hkind, le_rfl⟩

/-- A closing marker is the end of its own chain. -/
theorem IsEnd.eq_of_closing (h : IsEnd kinds i e) (hi : kindAt kinds i = some .closing) : e = i := by
  obtain ⟨o, ho, ⟨he, hclosing⟩ | ⟨-, hnone⟩⟩ := h
  · have hlt : ∀ {a b}, Belongs kinds o a → kindAt kinds a = some .closing → Belongs kinds o b →
        kindAt kinds b = some .closing → ¬a < b := by
      intro a b ha hca hb hcb hab
      have hne : o ≠ b := by have := ha.le; omega
      exact not_openAt_of_closing ha hca hab (hb.innermost hne).1
    have := hlt ho hi he hclosing
    have := hlt he hclosing ho hi
    omega
  · exact absurd hi (hnone i ho)

theorem Stray.not_belongs (h : Stray kinds i) : ¬Belongs kinds o i := by
  rintro (⟨hk, -⟩ | ⟨-, hin⟩)
  · rcases h.1 with h | h <;> rw [h] at hk <;> cases hk
  · exact h.2 o hin.1

/-- A marker is in a chain or outside every chain. -/
theorem belongs_or_stray {kind : MarkerKind} (h : kindAt kinds i = some kind) :
    (∃ o, Belongs kinds o i) ∨ Stray kinds i := by
  cases kind with
  | opening => exact .inl ⟨i, belongs_self h⟩
  | _ =>
      by_cases hd : depth kinds i = 0
      · exact .inr ⟨by simp [h], depth_eq_zero_iff.1 hd⟩
      · obtain ⟨o, ho⟩ := exists_innermost (Nat.pos_of_ne_zero hd)
        exact .inl ⟨o, .inr ⟨by simp [h], ho⟩⟩

/-! ### Arms -/

/-- A chain without a closing marker stays open. -/
theorem openAt_of_unclosed (h : kindAt kinds o = some .opening)
    (hnone : ∀ k, Belongs kinds o k → kindAt kinds k ≠ some .closing) (hk : o < k) :
    OpenAt kinds o k := by
  induction k with
  | zero => cases hk
  | succ k ih =>
      rcases Nat.lt_or_eq_of_le (Nat.le_of_lt_succ hk) with hlt | rfl
      · have hopen := ih hlt
        refine hopen.succ ?_
        by_contra hle
        have hdepth := hopen.depth_lt
        have hclosing : kindAt kinds k = some .closing := by
          by_contra hne
          have := depth_le_succ hne
          omega
        rw [depth_succ_closing hclosing] at hle
        have hin : Innermost kinds o k := innermost_iff.2 ⟨hopen, by omega⟩
        exact hnone k (.inr ⟨.inr hclosing, hin⟩) hclosing
      · exact openAt_succ_self h

/-- A chain is open from any of its markers up to a later one. -/
theorem Belongs.openAt (hi : Belongs kinds o i) (hj : Belongs kinds o j) (hlt : i < k) (hle : k ≤ j) :
    OpenAt kinds o k := by
  have := hi.le
  exact (hj.innermost (by omega)).1.mono (by omega) hle

/-- A chain is open from any of its markers up to its end. -/
theorem IsEnd.openAt (h : IsEnd kinds i e) (ho : Belongs kinds o i) (hlt : i < k) (hle : k ≤ e) :
    OpenAt kinds o k := by
  obtain ⟨o', ho', hend⟩ := h
  obtain rfl := ho.unique ho'
  rcases hend with ⟨he, -⟩ | ⟨rfl, hnone⟩
  · exact ho.openAt he hlt hle
  · exact openAt_of_unclosed ho.opening hnone (by have := ho.le; omega)

/-- A marker that stands while another chain is open, and is not of that chain, is of one that opened
later. -/
theorem Belongs.lt_of_openAt (hj : Belongs kinds o' j) (ho : OpenAt kinds o j) (hne : o' ≠ o) :
    o < o' := by
  by_cases hself : o' = j
  · exact hself ▸ ho.before
  · exact lt_of_le_of_ne ((hj.innermost hself).2 o ho) hne.symm

/-- **Chains are nested**: a marker between a marker of an open chain and the next one of that chain
is of a chain that opened between them. -/
theorem Belongs.nested (hi : Belongs kinds o i) (hj : Belongs kinds o' j) (hij : i < j)
    (hopen : OpenAt kinds o j) (hne : o' ≠ o) : i < o' := by
  have hlt := hj.lt_of_openAt hopen hne
  by_contra hle
  rcases Nat.lt_or_eq_of_le (not_lt.1 hle) with hlt' | rfl
  · have hself : o' ≠ j := by omega
    have hin := hi.innermost (by omega)
    have := hin.2 o' ((hj.innermost hself).1.mono hlt' hij.le)
    omega
  · -- the chain that opens at a marker is the chain of that marker
    exact hne (hi.unique (belongs_self hj.opening)).symm

/-- Behind a marker outside every chain no chain goes on that opened before it. -/
theorem Stray.lt_of_belongs (h : Stray kinds i) (hj : Belongs kinds o j) (hij : i < j) : i < o := by
  by_contra hle
  have hne : o ≠ i := by
    rintro rfl
    exact h.not_belongs (belongs_self hj.opening)
  have hself : o ≠ j := by omega
  exact h.2 o ((hj.innermost hself).1.mono (by omega) hij.le)

end Depth

end EventLayer.Pairing
