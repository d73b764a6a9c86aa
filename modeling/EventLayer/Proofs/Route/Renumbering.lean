/-
**Routes without their stray markers.**

A marker outside every chain is reported when a route is read.  Here such markers are taken out of
a route, and the other lines are renumbered: a line moves forward by the number of stray markers
before it.  Neither the number of open chains nor the matching of the others changes, and so every
jump of a marker leads to the same line as before.

Main definitions:

* `sift` — the members of a list at the positions that are kept;
* `Pairing.rank` — the new position of a line, and of the end of a route;
* `Route.tidied` — a route, as the editor's data, without the markers outside every chain.

Main results:

* `Pairing.belongs_tidied`, `Pairing.isNext_tidied`, `Pairing.isEnd_tidied` — **the matching of the
  other markers is the same**;
* `Route.read_tidied` — a route that can be read can be read without its stray markers;
* `Route.Tidied.failTarget`, `Route.Tidied.leaveTarget` — **jumps lead to the same lines**.
-/
import Mathlib.Data.Nat.Count
import EventLayer.Proofs.Route.Written

set_option autoImplicit false
set_option relaxedAutoImplicit false

namespace EventLayer

/-! ### Some members of a list -/

section Sift

variable {α β : Type} (p : Nat → Prop) [DecidablePred p]

/-- The members of a list whose positions, counted from `k`, are to be kept. -/
def sift : Nat → List α → List α
  | _, [] => []
  | k, a :: l => if p k then a :: sift (k + 1) l else sift (k + 1) l

variable {p}

theorem sift_map (f : α → β) (k : Nat) (l : List α) : sift p k (l.map f) = (sift p k l).map f := by
  induction l generalizing k with
  | nil => rfl
  | cons a l ih =>
      by_cases hk : p k
      · simp only [List.map_cons, sift, if_pos hk, ih]
      · simp only [List.map_cons, sift, if_neg hk, ih]

/-- What stands at a position that is kept stands behind as many as are kept before it. -/
theorem getElem?_sift (k i : Nat) (l : List α) (hi : p (k + i)) :
    (sift p k l)[Nat.count p (k + i) - Nat.count p k]? = l[i]? := by
  induction l generalizing k i with
  | nil => rfl
  | cons a l ih =>
      cases i with
      | zero => simp [sift, show p k from hi]
      | succ i =>
          have hrest := ih (k + 1) i (by rwa [Nat.add_right_comm])
          have hmono : Nat.count p (k + 1) ≤ Nat.count p (k + 1 + i) := Nat.count_monotone p (by omega)
          rw [List.getElem?_cons_succ, ← hrest, show k + (i + 1) = k + 1 + i by omega]
          by_cases hk : p k
          · rw [Nat.count_succ, if_pos hk] at hmono ⊢
            rw [sift, if_pos hk, show Nat.count p (k + 1 + i) - Nat.count p k =
              Nat.count p (k + 1 + i) - (Nat.count p k + 1) + 1 by omega, List.getElem?_cons_succ]
          · rw [sift, if_neg hk, Nat.count_succ, if_neg hk]
            rfl

theorem length_sift (k : Nat) (l : List α) :
    (sift p k l).length + Nat.count p k = Nat.count p (k + l.length) := by
  induction l generalizing k with
  | nil => simp [sift]
  | cons a l ih =>
      have hrest := ih (k + 1)
      rw [List.length_cons, show k + (l.length + 1) = k + 1 + l.length by omega, ← hrest]
      by_cases hk : p k
      · rw [sift, if_pos hk, List.length_cons, Nat.count_succ, if_pos hk]
        omega
      · rw [sift, if_neg hk, Nat.count_succ, if_neg hk]
        rfl

/-- Every position among those that are kept is that of one that is. -/
theorem exists_count {j k : Nat} (h : j < Nat.count p k) : ∃ i < k, p i ∧ Nat.count p i = j := by
  induction k with
  | zero => simp at h
  | succ k ih =>
      by_cases hj : j < Nat.count p k
      · obtain ⟨i, hi, hpi, hcount⟩ := ih hj
        exact ⟨i, by omega, hpi, hcount⟩
      · rw [Nat.count_succ] at h
        by_cases hk : p k
        · rw [if_pos hk] at h
          exact ⟨k, by omega, hk, by omega⟩
        · rw [if_neg hk] at h
          omega

end Sift

/-! ### The markers without those outside every chain -/

namespace Pairing

variable {kinds : List (Option MarkerKind)} {o o' i j k e : Nat}

theorem stray_iff_depth : Stray kinds i ↔
    (kindAt kinds i = some .alternative ∨ kindAt kinds i = some .closing) ∧ depth kinds i = 0 := by
  rw [Stray, depth_eq_zero_iff]

instance (kinds : List (Option MarkerKind)) : DecidablePred (Stray kinds) := fun _ =>
  decidable_of_iff' _ stray_iff_depth

/-- The lines that are kept when the stray markers are taken out. -/
def Kept (kinds : List (Option MarkerKind)) (i : Nat) : Prop := ¬Stray kinds i

instance (kinds : List (Option MarkerKind)) : DecidablePred (Kept kinds) := fun i =>
  inferInstanceAs (Decidable (¬Stray kinds i))

/-- The new position of a line when the stray markers are taken out. -/
def rank (kinds : List (Option MarkerKind)) (i : Nat) : Nat := Nat.count (Kept kinds) i

/-- A sequence of markers without the stray ones. -/
def tidied (kinds : List (Option MarkerKind)) : List (Option MarkerKind) :=
  sift (Kept kinds) 0 kinds

theorem rank_succ_of_kept (h : Kept kinds i) : rank kinds (i + 1) = rank kinds i + 1 := by
  rw [rank, Nat.count_succ, if_pos h]
  rfl

theorem rank_succ_of_stray (h : Stray kinds i) : rank kinds (i + 1) = rank kinds i := by
  rw [rank, Nat.count_succ, if_neg (fun hk : Kept kinds i => hk h)]
  rfl

theorem rank_mono (h : i ≤ j) : rank kinds i ≤ rank kinds j := Nat.count_monotone _ h

theorem rank_lt_rank (h : Kept kinds i) (hij : i < j) : rank kinds i < rank kinds j :=
  Nat.count_strict_mono h hij

theorem lt_of_rank_lt (h : rank kinds i < rank kinds j) : i < j := Nat.lt_of_count_lt_count h

theorem rank_injective (hi : Kept kinds i) (hj : Kept kinds j) (h : rank kinds i = rank kinds j) :
    i = j := Nat.count_injective hi hj h

theorem getElem?_sift_rank {α : Type} {l : List α} (h : Kept kinds i) :
    (sift (Kept kinds) 0 l)[rank kinds i]? = l[i]? := by
  have := getElem?_sift (p := Kept kinds) 0 i l (by rwa [Nat.zero_add])
  rwa [Nat.zero_add, Nat.count_zero, Nat.sub_zero] at this

theorem length_sift_rank {α : Type} {l : List α} :
    (sift (Kept kinds) 0 l).length = rank kinds l.length := by
  have := length_sift (p := Kept kinds) 0 l
  rwa [Nat.count_zero, Nat.add_zero, Nat.zero_add] at this

theorem kindAt_tidied (h : Kept kinds i) :
    kindAt (tidied kinds) (rank kinds i) = kindAt kinds i := by
  rw [kindAt, tidied, getElem?_sift_rank h, kindAt]

/-- A line that is no marker is kept, and so is the end. -/
theorem kept_of_kindAt (h : kindAt kinds i ≠ some .alternative) (h' : kindAt kinds i ≠ some .closing) :
    Kept kinds i := fun hs => hs.1.elim h h'

theorem Belongs.kept (h : Belongs kinds o i) : Kept kinds i := fun hs => hs.not_belongs h

/-- A stray marker neither opens a chain nor closes one. -/
theorem Stray.depth_succ (h : Stray kinds i) : depth kinds (i + 1) = depth kinds i := by
  obtain ⟨hk, hd⟩ := stray_iff_depth.1 h
  rcases hk with hk | hk
  · rw [depth_succ_alternative hk]
  · rw [depth_succ_closing hk, hd]

/-- **As many chains are open as before.** -/
theorem depth_tidied (kinds : List (Option MarkerKind)) (i : Nat) :
    depth (tidied kinds) (rank kinds i) = depth kinds i := by
  induction i with
  | zero => rfl
  | succ i ih =>
      by_cases hs : Stray kinds i
      · rw [rank_succ_of_stray hs, ih, hs.depth_succ]
      · have hkind := kindAt_tidied (show Kept kinds i from hs)
        rw [rank_succ_of_kept hs, depth, depth, hkind, ih]

theorem openAt_tidied (ho : Kept kinds o) :
    OpenAt (tidied kinds) (rank kinds o) (rank kinds k) ↔ OpenAt kinds o k := by
  constructor
  · intro h
    refine ⟨kindAt_tidied ho ▸ h.opening, lt_of_rank_lt h.before, fun j hj hk => ?_⟩
    have := h.above (rank kinds j) (rank_lt_rank ho hj) (rank_mono hk)
    rwa [depth_tidied, depth_tidied] at this
  · intro h
    refine ⟨(kindAt_tidied ho).trans h.opening, rank_lt_rank ho h.before, fun j hj hk => ?_⟩
    obtain ⟨i, hi, rfl⟩ : ∃ i ≤ k, rank kinds i = j := by
      rcases Nat.lt_or_eq_of_le hk with hlt | rfl
      · obtain ⟨i, hi, -, hcount⟩ := exists_count hlt
        exact ⟨i, hi.le, hcount⟩
      · exact ⟨k, le_rfl, rfl⟩
    rw [depth_tidied, depth_tidied]
    exact h.above i (lt_of_rank_lt hj) hi

/-- **A marker is of the same chain as before.** -/
theorem belongs_tidied (ho : Kept kinds o) (hj : Kept kinds j) :
    Belongs (tidied kinds) (rank kinds o) (rank kinds j) ↔ Belongs kinds o j := by
  have hself : rank kinds j = rank kinds o ↔ j = o :=
    ⟨rank_injective hj ho, congrArg (rank kinds)⟩
  rw [Belongs, Belongs, kindAt_tidied hj, hself, innermost_iff, innermost_iff, openAt_tidied ho,
    depth_tidied, depth_tidied]

/-- Every marker is one that was there before. -/
theorem Belongs.of_tidied (h : Belongs (tidied kinds) o j) :
    ∃ o' j', Belongs kinds o' j' ∧ rank kinds o' = o ∧ rank kinds j' = j := by
  have hat : ∀ i, (∃ kind, kindAt (tidied kinds) i = some kind) → ∃ i', Kept kinds i' ∧ rank kinds i' = i := by
    rintro i ⟨kind, hkind⟩
    have hlt := lt_length_of_kindAt hkind
    rw [tidied, length_sift_rank] at hlt
    obtain ⟨i', -, hkept, hcount⟩ := exists_count hlt
    exact ⟨i', hkept, hcount⟩
  obtain ⟨o', ho', rfl⟩ := hat o ⟨_, h.opening⟩
  obtain ⟨j', hj', rfl⟩ := hat j h.exists_kind
  exact ⟨o', j', (belongs_tidied ho' hj').1 h, rfl, rfl⟩

/-- Every marker of a chain is one of the same chain that was there before. -/
theorem Belongs.exists_rank (ho : Kept kinds o) (h : Belongs (tidied kinds) (rank kinds o) j) :
    ∃ j', Belongs kinds o j' ∧ rank kinds j' = j := by
  obtain ⟨o', j', hb, heq, rfl⟩ := h.of_tidied
  obtain rfl := rank_injective (belongs_self hb.opening).kept ho heq
  exact ⟨j', hb, rfl⟩

theorem isNext_tidied (hi : Kept kinds i) (hj : Kept kinds j) :
    IsNext (tidied kinds) (rank kinds i) (rank kinds j) ↔ IsNext kinds i j := by
  constructor
  · rintro ⟨o', hoi, hoj, hlt, hnone⟩
    obtain ⟨o, i', hbi, rfl, hrank⟩ := hoi.of_tidied
    obtain rfl := rank_injective hbi.kept hi hrank
    have ho := (belongs_self hbi.opening).kept
    refine ⟨o, hbi, (belongs_tidied ho hj).1 hoj, lt_of_rank_lt hlt, fun k hk => ?_⟩
    refine (hnone (rank kinds k) ((belongs_tidied ho hk.kept).2 hk)).imp (fun h => ?_) fun h => ?_
    · by_contra hki
      have := rank_lt_rank hi (not_le.1 hki)
      omega
    · by_contra hjk
      have := rank_lt_rank hk.kept (not_le.1 hjk)
      omega
  · rintro ⟨o, hbi, hbj, hlt, hnone⟩
    have ho := (belongs_self hbi.opening).kept
    refine ⟨_, (belongs_tidied ho hi).2 hbi, (belongs_tidied ho hj).2 hbj, rank_lt_rank hi hlt,
      fun k hk => ?_⟩
    obtain ⟨k', hk', rfl⟩ := hk.exists_rank ho
    exact (hnone k' hk').imp rank_mono rank_mono

theorem isEnd_tidied (hi : Kept kinds i) (he : Kept kinds e ∧ e < kinds.length ∨ e = kinds.length) :
    IsEnd (tidied kinds) (rank kinds i) (rank kinds e) ↔ IsEnd kinds i e := by
  have hlength : (tidied kinds).length = rank kinds kinds.length := length_sift_rank
  constructor
  · rintro ⟨o', hoi, hend⟩
    obtain ⟨o, i', hbi, rfl, hrank⟩ := hoi.of_tidied
    obtain rfl := rank_injective hbi.kept hi hrank
    have ho := (belongs_self hbi.opening).kept
    refine ⟨o, hbi, ?_⟩
    rcases hend with ⟨hoe, hclosing⟩ | ⟨heq, hnone⟩
    · have hlt := lt_length_of_kindAt hclosing
      rw [hlength] at hlt
      have hkept := (he.resolve_right fun h => (lt_of_rank_lt hlt).ne h).1
      exact .inl ⟨(belongs_tidied ho hkept).1 hoe, kindAt_tidied hkept ▸ hclosing⟩
    · have hlength' : e = kinds.length := by
        rcases he with ⟨hkept, hlt⟩ | rfl
        · have := rank_lt_rank hkept hlt
          omega
        · rfl
      refine .inr ⟨hlength', fun k hk => ?_⟩
      rw [← kindAt_tidied hk.kept]
      exact hnone _ ((belongs_tidied ho hk.kept).2 hk)
  · rintro ⟨o, hbi, hend⟩
    have ho := (belongs_self hbi.opening).kept
    refine ⟨_, (belongs_tidied ho hi).2 hbi, hend.imp (fun h => ?_) fun h => ?_⟩
    · exact ⟨(belongs_tidied ho h.1.kept).2 h.1, (kindAt_tidied h.1.kept).trans h.2⟩
    · refine ⟨by rw [hlength, h.1], fun k hk => ?_⟩
      obtain ⟨k', hk', rfl⟩ := hk.exists_rank ho
      rw [kindAt_tidied hk'.kept]
      exact h.2 k' hk'

end Pairing

/-! ### Routes without their stray markers -/

namespace Route

open Pairing (Stray Kept rank)

/-- A route, as the editor's data, without the markers outside every chain. -/
def tidied (v : Json) : Json :=
  match v with
  | .obj fields =>
    .obj (OrderedMap.put "list" (.arr (sift (Kept (written v)) 0 (commands v))) fields)
  | v => v

/-- A second route is a first one without the markers outside every chain. -/
structure Tidied (r r' : Route) : Prop where
  paired : r.Paired
  paired' : r'.Paired
  steps : r'.steps = sift (Kept r.kinds) 0 r.steps
  repeats : r'.repeats = r.repeats
  skippable : r'.skippable = r.skippable

/-! #### Reading -/

/-- Some of the commands are read as the same steps as among all. -/
theorem readSteps_sift {p : Nat → Prop} [DecidablePred p] {i j k : Nat} {l : List Json}
    {steps : List RouteStep} (h : (readSteps i l).result = .ok steps) :
    (readSteps j (sift p k l)).result = .ok (sift p k steps) := by
  induction l generalizing i j k steps with
  | nil =>
      cases h
      rfl
  | cons c l ih =>
      obtain ⟨step, rest, hstep, hrest, rfl⟩ := readSteps_cons_eq_ok.1 h
      by_cases hk : p k
      · rw [sift, if_pos hk, sift, if_pos hk]
        exact readSteps_cons_eq_ok.2 ⟨step, _, readStep_of_readStep j hstep, ih hrest, rfl⟩
      · rw [sift, if_neg hk, sift, if_neg hk]
        exact ih hrest

/-- A list of commands in place of those of an object. -/
theorem readList_put (fields : List (String × Json)) {items : List Json} {steps : List RouteStep}
    (h : (readSteps 0 items).result = .ok steps) :
    (readList (OrderedMap.put "list" (.arr items) fields)).result = .ok steps := by
  have helements : (((OrderedMap.find "list" (OrderedMap.put "list" (.arr items) fields)).getD
      .null).orElse (.arr [])).elements = .ok items := by
    rw [OrderedMap.find_put, if_pos BEq.rfl]
    cases items <;> rfl
  rw [readList, helements]
  exact (Reading.result_bind_ok rfl _).trans h

theorem flag_put {fields : List (String × Json)} {name : String} (v : Json) (h : name ≠ "list") :
    flag (OrderedMap.put "list" v fields) name = flag fields name := by
  rw [flag, OrderedMap.find_put, if_neg (by simpa using h.symm), flag]

/-- **A route that can be read can be read without its stray markers.** -/
theorem read_tidied {v : Json} {r : Route} (h : (Route.read v).result = .ok (some r)) :
    ∃ r', (Route.read (tidied v)).result = .ok (some r') ∧ r.Tidied r' := by
  have hkinds : written v = r.kinds := (kinds_of_read h).symm
  have hpaired : r.Paired := paired_of_read h
  cases v with
  | obj fields =>
      obtain ⟨steps, hsteps, rfl⟩ := read_obj_eq_ok.1 h
      obtain ⟨items, hitems, hread⟩ := Reading.bind_eq_ok hsteps
      have hcommands : commands (.obj fields) = items := by
        rw [commands, show (((OrderedMap.find "list" fields).getD .null).orElse (.arr [])).elements =
          .ok items from hitems]
      have hread' := read_obj_eq_ok.2 ⟨_, readList_put fields
        (readSteps_sift (p := Kept (written (.obj fields))) (j := 0) (k := 0) hread), rfl⟩
      refine ⟨_, by rw [tidied, hcommands]; exact hread', hpaired, paired_of_read hread', ?_, ?_, ?_⟩
      · rw [hkinds]
        rfl
      · exact flag_put _ (by decide)
      · exact flag_put _ (by decide)
  | null => cases h
  | _ =>
      refine ⟨r, h, ?_⟩
      simp only [Route.read] at h
      split at h <;> cases h
      exact ⟨rfl, rfl, rfl, rfl, rfl⟩

/-! #### Lines and jumps -/

namespace Tidied

variable {r r' : Route} {i : Nat}

/-- A line that is kept stands at its new position. -/
theorem step (h : r.Tidied r') (hi : Kept r.kinds i) : r'.steps[rank r.kinds i]? = r.steps[i]? := by
  rw [h.steps, Pairing.getElem?_sift_rank hi]

theorem length (h : r.Tidied r') : r'.length = rank r.kinds r.length := by
  rw [Route.length, h.steps, Pairing.length_sift_rank, Route.length]

theorem kinds (h : r.Tidied r') : r'.kinds = Pairing.tidied r.kinds := by
  rw [Route.kinds, h.steps, Pairing.tidied, ← sift_map, Route.kinds]

/-- **A marker knows the same end of its chain as before.** -/
theorem leaveTarget (h : r.Tidied r') (hi : Kept r.kinds i) :
    r'.leaveTarget (rank r.kinds i) = rank r.kinds (r.leaveTarget i) := by
  rw [Route.leaveTarget, Route.leaveTarget]
  cases he : r.pairing.ends.lookup i with
  | some e =>
      have hend := h.paired.ends_iff.1 he
      have hat : Kept r.kinds e ∧ e < r.kinds.length ∨ e = r.kinds.length := by
        obtain ⟨o, -, ⟨hb, hclosing⟩ | ⟨heq, -⟩⟩ := hend
        · exact .inl ⟨hb.kept, Pairing.lt_length_of_kindAt hclosing⟩
        · exact .inr heq
      rw [h.paired'.ends_iff.2 (h.kinds ▸ (Pairing.isEnd_tidied hi hat).2 hend)]
      rfl
  | none =>
      have hnone : r'.pairing.ends.lookup (rank r.kinds i) = none := by
        by_contra hne
        obtain ⟨e', he'⟩ := Option.ne_none_iff_exists'.1 hne
        obtain ⟨o', hb', -⟩ := h.kinds ▸ h.paired'.ends_iff.1 he'
        obtain ⟨o, i', hb, -, hrank⟩ := hb'.of_tidied
        obtain rfl := Pairing.rank_injective hb.kept hi hrank
        obtain ⟨e, hend⟩ := Pairing.exists_isEnd hb
        rw [h.paired.ends_iff.2 hend] at he
        cases he
      rw [hnone]
      exact h.length

/-- **A marker whose condition fails leads to the same line as before.** -/
theorem failTarget (h : r.Tidied r') (hi : Kept r.kinds i) :
    r'.failTarget (rank r.kinds i) = rank r.kinds (r.failTarget i) := by
  rw [Route.failTarget, Route.failTarget]
  cases hn : r.pairing.next.lookup i with
  | some j =>
      have hnext := h.paired.next_iff.1 hn
      have hj : Kept r.kinds j := by
        obtain ⟨o, -, hb, -⟩ := hnext
        exact hb.kept
      rw [h.paired'.next_iff.2 (h.kinds ▸ (Pairing.isNext_tidied hi hj).2 hnext)]
      rfl
  | none =>
      have hnone : r'.pairing.next.lookup (rank r.kinds i) = none := by
        by_contra hne
        obtain ⟨j', hj'⟩ := Option.ne_none_iff_exists'.1 hne
        have hnext := h.kinds ▸ h.paired'.next_iff.1 hj'
        obtain ⟨o', -, hb', -⟩ := id hnext
        obtain ⟨o, j, hb, -, rfl⟩ := hb'.of_tidied
        rw [h.paired.next_iff.2 ((Pairing.isNext_tidied hi hb.kept).1 hnext)] at hn
        cases hn
      rw [hnone]
      exact h.leaveTarget hi

end Tidied

end Route

end EventLayer
