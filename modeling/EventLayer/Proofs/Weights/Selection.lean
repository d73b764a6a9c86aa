/-
**A draw falls on a branch in proportion to its weight.**

The scan of a set adds up its weights until the sum exceeds the draw.  How it adds and compares is a
matter of the numbers it works with, so that it can be read over the rationals as well, where nothing is
rounded.  There the weights cut the interval from zero to their total into half-open shares, one next to
the other, each as long as its weight; the scan stops at the branch in whose share the draw lies.  A
branch of weight zero has an empty share, and no draw is left for the last branch by default.

Main definitions:

* `selectAmong?`, `sumFrom` — the scan and the total of a set, over any numbers;
* `sumTo` — the sum of the first weights of a list;
* `FallsIn` — a draw lies in the share of a branch;
* `KeepsSums` — the sums of the first weights are the same in two kinds of numbers.

Main results:

* `existsUnique_fallsIn` — the shares cut up the interval of the draws;
* `firstExceeding_of_fallsIn` — the scan stops where the draw lies;
* `selectAmong?_of_keepsSums` — **a scan that keeps the sums falls on the same branch**;
* `selection_proportional` — **the draws that fall on a branch form a half-open interval as long as its
  weight.**
-/
import EventLayer.Weight
import Mathlib.Algebra.Order.BigOperators.Group.List
import Mathlib.Data.Rat.Cast.Order
import Mathlib.Order.Interval.Set.Basic
import Mathlib.Tactic.Linarith

set_option autoImplicit false
set_option relaxedAutoImplicit false

namespace EventLayer

/-! ### The scan over any numbers -/

section Scan

variable {α ι : Type} [Add α]

/-- The sum of weights, added from left to right to a first summand. -/
def sumFrom (acc : α) (weights : List α) : α := weights.foldl (· + ·) acc

@[simp] theorem sumFrom_nil (acc : α) : sumFrom acc [] = acc := rfl

@[simp] theorem sumFrom_cons (acc w : α) (weights : List α) :
    sumFrom acc (w :: weights) = sumFrom (acc + w) weights := rfl

/-- The branch that a draw falls on; a draw beyond all sums falls on the last. -/
def selectAmong? [LT α] [DecidableLT α] (zero draw : α) (branches : List ι) (weights : List α) :
    Option ι :=
  (firstExceeding draw zero (branches.zip weights)).or branches.getLast?

end Scan

theorem BranchSet.total_eq_sumFrom (s : BranchSet) : s.total = sumFrom (.finite 0) s.weights := rfl

theorem BranchSet.select?_eq_selectAmong? (s : BranchSet) (draw : Double) :
    s.select? draw = selectAmong? (.finite 0) draw s.branches s.weights := rfl

/-! ### Shares -/

/-- The sum of the first `n` weights. -/
def sumTo (weights : List Rat) (n : Nat) : Rat := (weights.take n).sum

/-- A draw lies in the share of the branch at a place: it is no less than the sum of the weights before
it, and less than that sum with its own weight. -/
structure FallsIn (weights : List Rat) (draw : Rat) (i : Nat) : Prop where
  lt_length : i < weights.length
  low : sumTo weights i ≤ draw
  high : draw < sumTo weights (i + 1)

section Shares

variable {weights : List Rat} {draw : Rat}

@[simp] theorem sumTo_zero (weights : List Rat) : sumTo weights 0 = 0 := by simp [sumTo]

@[simp] theorem sumTo_cons_succ (w : Rat) (weights : List Rat) (n : Nat) :
    sumTo (w :: weights) (n + 1) = w + sumTo weights n := by simp [sumTo]

theorem sumTo_succ {i : Nat} {w : Rat} (h : weights[i]? = some w) :
    sumTo weights (i + 1) = sumTo weights i + w := by
  rw [sumTo, sumTo, List.take_add_one, h, Option.toList_some, List.sum_append, List.sum_singleton]

theorem sumTo_length (weights : List Rat) : sumTo weights weights.length = weights.sum := by
  rw [sumTo, List.take_length]

theorem sumFrom_eq (acc : Rat) (weights : List Rat) : sumFrom acc weights = acc + weights.sum := by
  induction weights generalizing acc with
  | nil => simp [sumFrom]
  | cons w rest ih =>
      rw [sumFrom_cons, ih, List.sum_cons, add_assoc]

theorem sumTo_mono (h : ∀ w ∈ weights, 0 ≤ w) {m n : Nat} (hmn : m ≤ n) :
    sumTo weights m ≤ sumTo weights n := by
  obtain ⟨k, rfl⟩ := Nat.exists_eq_add_of_le hmn
  have hrest : 0 ≤ ((weights.drop m).take k).sum :=
    List.sum_nonneg fun w hw => h w (List.mem_of_mem_drop (List.mem_of_mem_take hw))
  rw [sumTo, sumTo, List.take_add, List.sum_append]
  linarith

/-- A share that holds a draw is that of a positive weight. -/
theorem FallsIn.weight_pos {i : Nat} {w : Rat} (h : FallsIn weights draw i)
    (hw : weights[i]? = some w) : 0 < w := by
  have hlow := h.low
  have hhigh := h.high
  rw [sumTo_succ hw] at hhigh
  linarith

/-- No draw lies in two shares. -/
theorem FallsIn.unique (hnonneg : ∀ w ∈ weights, 0 ≤ w) {i j : Nat} (hi : FallsIn weights draw i)
    (hj : FallsIn weights draw j) : i = j := by
  rcases Nat.lt_trichotomy i j with hlt | heq | hgt
  · have h := sumTo_mono hnonneg (Nat.succ_le_of_lt hlt)
    exact absurd (h.trans hj.low) (not_le.2 hi.high)
  · exact heq
  · have h := sumTo_mono hnonneg (Nat.succ_le_of_lt hgt)
    exact absurd (h.trans hi.low) (not_le.2 hj.high)

/-- A draw from zero up to the total lies in a share, whatever the signs of the weights. -/
theorem exists_fallsIn (hlow : 0 ≤ draw) (hhigh : draw < weights.sum) :
    ∃ i, FallsIn weights draw i := by
  induction weights generalizing draw with
  | nil => exact absurd hhigh (not_lt.2 hlow)
  | cons w rest ih =>
      rw [List.sum_cons] at hhigh
      by_cases hw : draw < w
      · exact ⟨0, Nat.succ_pos _, by simpa using hlow, by simpa using hw⟩
      · -- the first weight is passed, and the rest of the draw lies among the other shares
        have hlow' : 0 ≤ draw - w := by linarith
        have hhigh' : draw - w < rest.sum := by linarith
        obtain ⟨i, hi, hl, hh⟩ := ih hlow' hhigh'
        refine ⟨i + 1, Nat.succ_lt_succ hi, ?_, ?_⟩
        · rw [sumTo_cons_succ]
          linarith
        · rw [sumTo_cons_succ]
          linarith

theorem existsUnique_fallsIn (hnonneg : ∀ w ∈ weights, 0 ≤ w) (hlow : 0 ≤ draw)
    (hhigh : draw < weights.sum) : ∃! i, FallsIn weights draw i := by
  obtain ⟨i, hi⟩ := exists_fallsIn hlow hhigh
  exact ⟨i, hi, fun j hj => hj.unique hnonneg hi⟩

/-- What lies in a share lies between zero and the total. -/
theorem FallsIn.in_range (hnonneg : ∀ w ∈ weights, 0 ≤ w) {i : Nat} (h : FallsIn weights draw i) :
    0 ≤ draw ∧ draw < weights.sum := by
  have hzero := sumTo_mono hnonneg (Nat.zero_le i)
  have htotal := sumTo_mono hnonneg (Nat.succ_le_of_lt h.lt_length)
  rw [sumTo_zero] at hzero
  rw [sumTo_length] at htotal
  exact ⟨hzero.trans h.low, h.high.trans_le htotal⟩

end Shares

/-! ### Where the scan stops -/

section Stop

variable {ι : Type} {branches : List ι} {weights : List Rat} {draw : Rat}

/-- The scan, from any sum that it begins with, stops at the branch in whose share the rest of the draw
lies. -/
theorem firstExceeding_of_fallsIn (hnonneg : ∀ w ∈ weights, 0 ≤ w) {acc : Rat} {i : Nat} {b : ι}
    (hb : branches[i]? = some b) (h : FallsIn weights (draw - acc) i) :
    firstExceeding draw acc (branches.zip weights) = some b := by
  induction weights generalizing acc i branches with
  | nil => exact absurd h.lt_length (Nat.not_lt_zero i)
  | cons w rest ih =>
      have hrest : ∀ v ∈ rest, 0 ≤ v := fun v hv => hnonneg v (List.mem_cons_of_mem w hv)
      cases branches with
      | nil => cases hb
      | cons c others =>
          cases i with
          | zero =>
              have hhigh := h.high
              rw [sumTo_cons_succ, sumTo_zero] at hhigh
              rw [List.zip_cons_cons, firstExceeding, if_pos (by linarith)]
              exact hb
          | succ i =>
              have hlow := h.low
              have hhigh := h.high
              rw [sumTo_cons_succ] at hlow hhigh
              have hzero := sumTo_mono hrest (Nat.zero_le i)
              rw [sumTo_zero] at hzero
              rw [List.zip_cons_cons, firstExceeding, if_neg (by linarith)]
              exact ih hrest hb ⟨Nat.lt_of_succ_lt_succ h.lt_length, by linarith, by linarith⟩

/-- What a draw within a share is counted for, exactly. -/
theorem select_eq_iff (hlength : branches.length = weights.length) (hnodup : branches.Nodup)
    (hnonneg : ∀ w ∈ weights, 0 ≤ w) {i : Nat} {b : ι} (hb : branches[i]? = some b) :
    (0 ≤ draw ∧ draw < weights.sum ∧ selectAmong? 0 draw branches weights = some b) ↔
      FallsIn weights draw i := by
  constructor
  · rintro ⟨hlow, hhigh, hsel⟩
    obtain ⟨j, hj⟩ := exists_fallsIn hlow hhigh
    have hjb : branches[j]? = some (branches.get ⟨j, hlength ▸ hj.lt_length⟩) :=
      List.getElem?_eq_getElem _
    rw [selectAmong?, firstExceeding_of_fallsIn hnonneg hjb (by rwa [sub_zero]), Option.some_or] at hsel
    have hij : j = i :=
      (List.getElem?_inj (hlength ▸ hj.lt_length) hnodup).1 (hjb.trans (hsel.trans hb.symm))
    exact hij ▸ hj
  · intro h
    obtain ⟨hlow, hhigh⟩ := h.in_range hnonneg
    refine ⟨hlow, hhigh, ?_⟩
    rw [selectAmong?, firstExceeding_of_fallsIn hnonneg hb (by rwa [sub_zero]), Option.some_or]

end Stop

/-! ### From one kind of numbers to another -/

section Sums

variable {α β ι : Type} [Add α] [Add β] {φ : α → β} {acc : α} {weights : List α}

/-- The sums of the first weights are the same in both kinds of numbers. -/
def KeepsSums (φ : α → β) (acc : α) (weights : List α) : Prop :=
  ∀ n ≤ weights.length, sumFrom (φ acc) ((weights.take n).map φ) = φ (sumFrom acc (weights.take n))

theorem KeepsSums.total (h : KeepsSums φ acc weights) :
    sumFrom (φ acc) (weights.map φ) = φ (sumFrom acc weights) := by
  simpa only [List.take_length] using h weights.length (Nat.le_refl _)

theorem KeepsSums.head {w : α} (h : KeepsSums φ acc (w :: weights)) : φ acc + φ w = φ (acc + w) := by
  simpa using h 1 (Nat.succ_pos _)

theorem KeepsSums.tail {w : α} (h : KeepsSums φ acc (w :: weights)) :
    KeepsSums φ (acc + w) weights := by
  intro n hn
  have hsucc := h (n + 1) (Nat.succ_le_succ hn)
  rwa [List.take_succ_cons, List.map_cons, sumFrom_cons, sumFrom_cons, h.head] at hsucc

/-- Where addition itself is kept, so are all sums. -/
theorem keepsSums_of_add (hadd : ∀ a b, φ a + φ b = φ (a + b)) (acc : α) (weights : List α) :
    KeepsSums φ acc weights := by
  intro n _
  induction weights.take n generalizing acc with
  | nil => rfl
  | cons w rest ih => rw [List.map_cons, sumFrom_cons, sumFrom_cons, hadd, ih]

variable [LT α] [DecidableLT α] [LT β] [DecidableLT β]

theorem firstExceeding_of_keepsSums (hlt : ∀ a b, φ a < φ b ↔ a < b) (h : KeepsSums φ acc weights)
    (branches : List ι) (draw : α) :
    firstExceeding (φ draw) (φ acc) (branches.zip (weights.map φ)) =
      firstExceeding draw acc (branches.zip weights) := by
  induction weights generalizing acc branches with
  | nil => simp [firstExceeding]
  | cons w rest ih =>
      cases branches with
      | nil => rfl
      | cons b others =>
          rw [List.map_cons, List.zip_cons_cons, List.zip_cons_cons, firstExceeding, firstExceeding,
            h.head, ih h.tail]
          simp only [hlt]

/-- **A scan that keeps the sums falls on the same branch.** -/
theorem selectAmong?_of_keepsSums (hlt : ∀ a b, φ a < φ b ↔ a < b) (h : KeepsSums φ acc weights)
    (branches : List ι) (draw : α) :
    selectAmong? (φ acc) (φ draw) branches (weights.map φ) = selectAmong? acc draw branches weights := by
  rw [selectAmong?, selectAmong?, firstExceeding_of_keepsSums hlt h]

end Sums

theorem Double.finite_lt_finite (a b : Rat) : (.finite a : Double) < .finite b ↔ a < b := by
  change (some (if a < b then Ordering.lt else if a = b then .eq else .gt) == some .lt) = true ↔ a < b
  by_cases h : a < b
  · simp [h]
  · by_cases heq : a = b <;> simp [h, heq]

namespace BranchSet

variable {s : BranchSet} {weights : List Rat}

theorem total_of_keepsSums (h : KeepsSums Double.finite 0 weights)
    (hs : s.weights = weights.map .finite) : s.total = .finite (sumFrom 0 weights) := by
  rw [total_eq_sumFrom, hs, h.total]

theorem select?_of_keepsSums (h : KeepsSums Double.finite 0 weights)
    (hs : s.weights = weights.map .finite) (draw : Rat) :
    s.select? (.finite draw) = selectAmong? 0 draw s.branches weights := by
  rw [select?_eq_selectAmong?, hs, selectAmong?_of_keepsSums Double.finite_lt_finite h]

end BranchSet

/-! ### Proportion -/

/-- **Every draw from zero up to the total of the weights lies in exactly one share, and the scan stops
at the branch of that share: never at one of weight zero, and never at the last one by default.  So the
draws that fall on a branch form a half-open interval as long as its weight.  The scan of a set is this
one wherever its weights are added up without rounding.** -/
theorem selection_proportional (branches : List Nat) (weights : List Rat)
    (hlength : branches.length = weights.length) (hnonneg : ∀ w ∈ weights, 0 ≤ w) :
    (∀ draw, 0 ≤ draw → draw < sumFrom 0 weights → ∃! i, FallsIn weights draw i) ∧
    (∀ i b w, branches[i]? = some b → weights[i]? = some w →
      (∀ draw, FallsIn weights draw i →
        firstExceeding draw 0 (branches.zip weights) = some b ∧
        selectAmong? 0 draw branches weights = some b ∧ 0 < w) ∧
      (branches.Nodup →
        {draw | 0 ≤ draw ∧ draw < sumFrom 0 weights ∧ selectAmong? 0 draw branches weights = some b} =
          Set.Ico (sumTo weights i) (sumTo weights i + w))) ∧
    (∀ s : BranchSet, s.branches = branches → s.weights = weights.map .finite →
      KeepsSums Double.finite 0 weights →
      s.total = .finite (sumFrom 0 weights) ∧
      ∀ draw : Rat, s.select? (.finite draw) = selectAmong? 0 draw branches weights) := by
  rw [sumFrom_eq, zero_add]
  refine ⟨fun draw => existsUnique_fallsIn hnonneg, fun i b w hb hw => ⟨?_, ?_⟩, ?_⟩
  · intro draw h
    have hfirst : firstExceeding draw 0 (branches.zip weights) = some b :=
      firstExceeding_of_fallsIn hnonneg hb (by rwa [sub_zero])
    refine ⟨hfirst, ?_, h.weight_pos hw⟩
    rw [selectAmong?, hfirst, Option.some_or]
  · intro hnodup
    have hi : i < weights.length := (List.getElem?_eq_some_iff.1 hw).1
    ext draw
    rw [Set.mem_ofPred_eq, select_eq_iff hlength hnodup hnonneg hb, Set.mem_Ico, ← sumTo_succ hw]
    exact ⟨fun h => ⟨h.low, h.high⟩, fun h => ⟨hi, h.1, h.2⟩⟩
  · rintro s rfl hs hexact
    refine ⟨?_, BranchSet.select?_of_keepsSums hexact hs⟩
    rw [BranchSet.total_of_keepsSums hexact hs, sumFrom_eq, zero_add]

/-- Of the branches of weights one, zero and two, the draw two falls on the last, and the draws that do
are those from one up to three. -/
theorem selection_proportional_three :
    FallsIn [1, 0, 2] 2 2 ∧ selectAmong? (0 : Rat) 2 [4, 6, 9] [1, 0, 2] = some 9 ∧
    {draw | 0 ≤ draw ∧ draw < sumFrom 0 [1, 0, 2] ∧
      selectAmong? 0 draw [4, 6, 9] [1, 0, 2] = some 9} = Set.Ico (1 : Rat) 3 := by
  have hfalls : FallsIn [1, 0, 2] 2 2 := ⟨by decide, by decide +kernel, by decide +kernel⟩
  obtain ⟨-, hshare, -⟩ := selection_proportional [4, 6, 9] [1, 0, 2] rfl (by decide +kernel)
  obtain ⟨hstop, hinterval⟩ := hshare 2 9 2 rfl rfl
  have hlow : sumTo [1, 0, 2] 2 = 1 := by decide +kernel
  have hhigh : (1 : Rat) + 2 = 3 := by decide +kernel
  refine ⟨hfalls, (hstop 2 hfalls).2.1, ?_⟩
  rw [hinterval (by decide), hlow, hhigh]

end EventLayer
