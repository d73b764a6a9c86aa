/-
**The texts of weights, and the branches that they leave to chance.**

A weight is written as a text.  A text that denotes a positive number is a proper weight; a text that
denotes none, or a number that is not positive, counts as zero.  What slips through are the texts that
denote no size at all: the undefined number and the infinity are not at most zero, so they are kept as they
are.  One of them among the weights of a set makes their total undefined or infinite; then every draw is
so too, no sum exceeds it, and the scan ends at the last branch whatever its weight is.

How the other sets are drawn from is said in arithmetic without rounding, which treats the undefined
number and the infinities as floating-point numbers do.

Main definitions:

* `Weight.IsProper`, `Weight.IsBoundless`, `Weight.value` — the texts of weights, and what they count for;
* `Exact` — numbers reckoned with without rounding;
* `BranchSet.choose?` — the branch that a fraction falls on, reckoned exactly;
* `DenotesAt` — the text of the branch at a position has a property.

Main results:

* `Play.drawBranch_of_boundless` — a set with a boundless weight always falls on its last branch;
* `BranchSet.exists_choose?_of_bounded` — without one only branches of positive weight are chosen;
* `Play.drawBranch_eq_choose?` — where nothing is rounded, a set is drawn from as it is exactly;
* `proper_weights_drawn_iff` — **unusable texts contribute nothing and are never drawn, exactly if none is
  boundless** (or, for the drawing, if the last text is proper all the same).
-/
import EventLayer.Proofs.Program.Reading
import EventLayer.Proofs.Results
import EventLayer.Proofs.Weights.Pass
import EventLayer.Proofs.Weights.Selection
import EventLayer.Session.Commands

set_option autoImplicit false
set_option relaxedAutoImplicit false

namespace EventLayer

/-! ### Texts of weights -/

namespace Weight

/-- The text of a weight denotes a positive number. -/
def IsProper (args : Json) : Prop := ∃ q : Rat, (raw args).decimal? = some (.finite q) ∧ 0 < q

/-- The text of a weight denotes the undefined number or the infinity, neither of which is at most
zero. -/
def IsBoundless (args : Json) : Prop :=
  (raw args).decimal? = some .nan ∨ (raw args).decimal? = some (.infinite false)

/-- What the text of a weight counts for. -/
def value (args : Json) : Double :=
  match (read args).result with
  | .ok w => w
  | .error _ => .finite 0

variable {args : Json}

theorem result_read (args : Json) : (read args).result = .ok (value args) := by
  unfold value
  cases h : (read args).result with
  | ok w => rfl
  | error e => exact absurd h (Program.weight_ne_error args e)

theorem value_of_none (h : (raw args).decimal? = none) : value args = .finite 0 := by
  unfold value read
  simp only [h]
  rfl

theorem value_of_some {w : Double} (h : (raw args).decimal? = some w) :
    value args = if w.atMost (.finite 0) then .finite 0 else w := by
  unfold value read
  simp only [h]
  by_cases hzero : w.atMost (.finite 0) = true
  · simp only [if_pos hzero]
    rfl
  · simp only [if_neg hzero]
    rfl

end Weight

/-! ### Numbers with no size -/

namespace Double

/-- A number with no size: the undefined number or the infinity. -/
def IsBoundless (x : Double) : Prop := x = .nan ∨ x = .infinite false

variable {x : Double}

theorem atMost_finite (a b : Rat) : atMost (.finite a) (.finite b) = decide (a ≤ b) := by
  change ((some (if a < b then Ordering.lt else if a = b then .eq else .gt) == some .lt) ||
    (some (if a < b then Ordering.lt else if a = b then .eq else .gt) == some .eq)) = decide (a ≤ b)
  rcases lt_trichotomy a b with h | h | h
  · simp [h, h.le]
  · simp [h]
  · simp [h.not_gt, h.ne', h]

theorem IsBoundless.add_left (h : x.IsBoundless) (y : Double) : (x + y).IsBoundless := by
  change (add x y).IsBoundless
  rcases h with rfl | rfl
  · exact Or.inl rfl
  · cases y with
    | infinite n => cases n <;> simp [add, IsBoundless]
    | _ => simp [add, IsBoundless]

theorem IsBoundless.add_right (h : x.IsBoundless) (y : Double) : (y + x).IsBoundless := by
  change (add y x).IsBoundless
  rcases h with rfl | rfl
  · cases y <;> simp [add, IsBoundless]
  · cases y with
    | infinite n => cases n <;> simp [add, IsBoundless]
    | _ => simp [add, IsBoundless]

/-- A fraction of a number with no size has none either. -/
theorem IsBoundless.mul_fraction (h : x.IsBoundless) {r : Rat} (hr : 0 ≤ r) :
    (.finite r * x).IsBoundless := by
  change (mul (.finite r) x).IsBoundless
  rcases h with rfl | rfl
  · exact Or.inl rfl
  · by_cases hzero : r = 0
    · simp [mul, IsBoundless, toRat?, hzero]
    · simp [mul, IsBoundless, toRat?, hzero, isNegative, not_lt.2 hr]

theorem IsBoundless.not_lt (h : x.IsBoundless) (y : Double) : ¬x < y := by
  change ¬(compare? x y == some .lt) = true
  rcases h with rfl | rfl
  · simp
  · cases y with
    | infinite n => cases n <;> simp [compare?]
    | _ => simp [compare?]

theorem IsBoundless.not_atMost (h : x.IsBoundless) : x.atMost (.finite 0) = false := by
  rcases h with rfl | rfl <;> rfl

theorem IsBoundless.toRat? (h : x.IsBoundless) : x.toRat? = none := by
  rcases h with rfl | rfl <;> rfl

end Double

namespace Weight

variable {args : Json}

/-- A text denotes a positive number, or no size, or counts for nothing. -/
theorem value_cases (args : Json) :
    (IsProper args ∧ ¬IsBoundless args ∧ ∃ q : Rat, 0 < q ∧ value args = .finite q) ∨
    (¬IsProper args ∧ IsBoundless args ∧ (value args).IsBoundless) ∨
    (¬IsProper args ∧ ¬IsBoundless args ∧ value args = .finite 0) := by
  unfold IsProper IsBoundless
  cases h : (raw args).decimal? with
  | none => exact Or.inr (Or.inr ⟨by simp, by simp, value_of_none h⟩)
  | some w =>
      rw [value_of_some h]
      cases w with
      | nan => exact Or.inr (Or.inl ⟨by simp, by simp, Or.inl rfl⟩)
      | infinite n =>
          cases n with
          | true => exact Or.inr (Or.inr ⟨by simp, by simp, rfl⟩)
          | false => exact Or.inr (Or.inl ⟨by simp, by simp, Or.inr rfl⟩)
      | negZero => exact Or.inr (Or.inr ⟨by simp, by simp, rfl⟩)
      | finite q =>
          rw [Double.atMost_finite]
          by_cases hq : q ≤ 0
          · refine Or.inr (Or.inr ⟨?_, by simp, by simp [hq]⟩)
            rintro ⟨_, heq, hpos⟩
            cases heq
            exact absurd hpos (not_lt.2 hq)
          · exact Or.inl ⟨⟨q, rfl, not_le.1 hq⟩, by simp, q, not_le.1 hq, by simp [hq]⟩

theorem isBoundless_value_iff : (value args).IsBoundless ↔ IsBoundless args := by
  rcases value_cases args with ⟨-, hnot, q, -, hv⟩ | ⟨-, hyes, hv⟩ | ⟨-, hnot, hv⟩
  · exact iff_of_false (by simp [hv, Double.IsBoundless]) hnot
  · exact iff_of_true hv hyes
  · exact iff_of_false (by simp [hv, Double.IsBoundless]) hnot

/-- A text that is not proper counts for nothing, unless it is boundless. -/
theorem value_eq_zero_iff : (¬IsProper args → value args = .finite 0) ↔ ¬IsBoundless args := by
  rcases value_cases args with ⟨hproper, hbounded, -⟩ | ⟨hproper, hbound, hv⟩ | ⟨-, hbounded, hv⟩
  · exact iff_of_true (fun hnot => absurd hproper hnot) hbounded
  · refine iff_of_false (fun hzero => ?_) (fun hnot => hnot hbound)
    rw [hzero hproper] at hv
    rcases hv with hv | hv <;> cases hv
  · exact iff_of_true (fun _ => hv) hbounded

/-- What the text of a weight counts for, as a rational; nothing where it has no size. -/
def share (args : Json) : Rat := (value args).toRat?.getD 0

theorem value_eq_share (h : ¬IsBoundless args) : value args = .finite (share args) := by
  rcases value_cases args with ⟨-, -, q, -, hv⟩ | ⟨-, hyes, -⟩ | ⟨-, -, hv⟩
  · rw [share, hv]
    rfl
  · exact absurd hyes h
  · rw [share, hv]
    rfl

theorem share_nonneg (args : Json) : 0 ≤ share args := by
  rcases value_cases args with ⟨-, -, q, hq, hv⟩ | ⟨-, -, hv⟩ | ⟨-, -, hv⟩
  · rw [share, hv]
    exact hq.le
  · rw [share, hv.toRat?]
    exact le_refl _
  · rw [share, hv]
    exact le_refl _

theorem share_pos_iff : 0 < share args ↔ IsProper args := by
  rcases value_cases args with ⟨hyes, -, q, hq, hv⟩ | ⟨hno, -, hv⟩ | ⟨hno, -, hv⟩
  · refine iff_of_true ?_ hyes
    rw [share, hv]
    exact hq
  · refine iff_of_false ?_ hno
    rw [share, hv.toRat?]
    exact lt_irrefl _
  · refine iff_of_false ?_ hno
    rw [share, hv]
    exact lt_irrefl _

end Weight

/-! ### Arithmetic without rounding -/

/-- A number reckoned with without rounding; the undefined number and the infinities are as they always
are. -/
structure Exact where
  value : Double

namespace Exact

/-- A rational. -/
def ofRat (q : Rat) : Exact := ⟨.finite q⟩

/-- An operation on rationals, and what takes its place where an operand is none. -/
def lift (op : Rat → Rat → Rat) (other : Double → Double → Double) (x y : Exact) : Exact :=
  match x.value.toRat?, y.value.toRat? with
  | some a, some b => ofRat (op a b)
  | _, _ => ⟨other x.value y.value⟩

instance : Add Exact := ⟨lift (· + ·) (· + ·)⟩

instance : Mul Exact := ⟨lift (· * ·) (· * ·)⟩

instance : LT Exact := ⟨fun x y => x.value < y.value⟩

instance (x y : Exact) : Decidable (x < y) := inferInstanceAs (Decidable (x.value < y.value))

theorem ofRat_add (a b : Rat) : ofRat a + ofRat b = ofRat (a + b) := rfl

theorem ofRat_mul (a b : Rat) : ofRat a * ofRat b = ofRat (a * b) := rfl

theorem ofRat_lt_ofRat (a b : Rat) : ofRat a < ofRat b ↔ a < b := Double.finite_lt_finite a b

theorem lift_of_left {op : Rat → Rat → Rat} {other : Double → Double → Double} {x : Exact}
    (h : x.value.toRat? = none) (y : Exact) : lift op other x y = ⟨other x.value y.value⟩ := by
  unfold lift
  rw [h]

theorem lift_of_right {op : Rat → Rat → Rat} {other : Double → Double → Double} {y : Exact}
    (h : y.value.toRat? = none) (x : Exact) : lift op other x y = ⟨other x.value y.value⟩ := by
  unfold lift
  rw [h]
  cases x.value.toRat? <;> rfl

theorem value_add_left {x : Exact} (h : x.value.IsBoundless) (y : Exact) :
    (x + y).value.IsBoundless := by
  change (lift _ _ x y).value.IsBoundless
  rw [lift_of_left h.toRat?]
  exact h.add_left y.value

theorem value_add_right {x : Exact} (h : x.value.IsBoundless) (y : Exact) :
    (y + x).value.IsBoundless := by
  change (lift _ _ y x).value.IsBoundless
  rw [lift_of_right h.toRat?]
  exact h.add_right y.value

theorem value_mul_fraction {x : Exact} (h : x.value.IsBoundless) {r : Rat} (hr : 0 ≤ r) :
    (ofRat r * x).value.IsBoundless := by
  change (lift _ _ (ofRat r) x).value.IsBoundless
  rw [lift_of_right h.toRat?]
  exact h.mul_fraction hr

end Exact

/-! ### Sums with a boundless summand -/

section Absorb

variable {α ι : Type} [Add α] {P : α → Prop}

/-- A sum takes over a property that every sum takes over from its summands. -/
theorem sumFrom_absorbs (hleft : ∀ a, P a → ∀ b, P (a + b)) (hright : ∀ a, P a → ∀ b, P (b + a))
    {acc : α} {weights : List α} (h : P acc ∨ ∃ w ∈ weights, P w) : P (sumFrom acc weights) := by
  induction weights generalizing acc with
  | nil =>
      rcases h with h | ⟨w, hw, -⟩
      · exact h
      · cases hw
  | cons v rest ih =>
      rw [sumFrom_cons]
      apply ih
      rcases h with h | ⟨w, hw, h⟩
      · exact Or.inl (hleft acc h v)
      · rcases List.mem_cons.1 hw with rfl | hw
        · exact Or.inl (hright w h acc)
        · exact Or.inr ⟨w, hw, h⟩

/-- A draw that is less than nothing falls on the last branch. -/
theorem selectAmong?_of_not_lt [LT α] [DecidableLT α] {draw : α} (h : ∀ a, ¬draw < a) (zero : α)
    (branches : List ι) (weights : List α) :
    selectAmong? zero draw branches weights = branches.getLast? := by
  have hnone : ∀ (l : List (ι × α)) (acc : α), firstExceeding draw acc l = none := by
    intro l
    induction l with
    | nil => exact fun _ => rfl
    | cons e rest ih =>
        intro acc
        rw [firstExceeding, if_neg (h _), ih]
  rw [selectAmong?, hnone, Option.none_or]

end Absorb

/-! ### Drawing from a set -/

namespace BranchSet

/-- The weights of a set, to be reckoned with exactly. -/
def exactWeights (s : BranchSet) : List Exact := s.weights.map Exact.mk

/-- The total of the weights, reckoned exactly. -/
def exactTotal (s : BranchSet) : Exact := sumFrom (.ofRat 0) s.exactWeights

/-- The branch that a fraction of the total falls on, reckoned exactly; the first where there is no
positive total. -/
def choose? (s : BranchSet) (r : Rat) : Option Nat :=
  if s.exactTotal.value.atMost (.finite 0) then s.branches.head?
  else selectAmong? (.ofRat 0) (.ofRat r * s.exactTotal) s.branches s.exactWeights

variable {s : BranchSet} {r : Rat}

/-- A draw always falls on some branch. -/
theorem exists_select? (hne : s.branches ≠ []) (draw : Double) : ∃ b, s.select? draw = some b := by
  refine Option.isSome_iff_exists.1 ?_
  rw [select?, Option.isSome_or, List.getLast?_eq_some_getLast hne, Option.isSome_some, Bool.or_true]

theorem total_of_boundless (h : ∃ w ∈ s.weights, w.IsBoundless) : s.total.IsBoundless := by
  rw [total_eq_sumFrom]
  exact sumFrom_absorbs (fun _ h => h.add_left) (fun _ h => h.add_right) (Or.inr h)

/-- With a boundless weight every fraction falls on the last branch. -/
theorem choose?_of_boundless (h : ∃ w ∈ s.weights, w.IsBoundless) (hr : 0 ≤ r) :
    s.choose? r = s.branches.getLast? := by
  have htotal : s.exactTotal.value.IsBoundless := by
    obtain ⟨w, hw, hbound⟩ := h
    exact sumFrom_absorbs (P := fun x : Exact => x.value.IsBoundless)
      (fun _ h => Exact.value_add_left h) (fun _ h => Exact.value_add_right h)
      (Or.inr ⟨⟨w⟩, List.mem_map_of_mem hw, hbound⟩)
  rw [choose?, if_neg (by rw [htotal.not_atMost]; exact Bool.false_ne_true)]
  exact selectAmong?_of_not_lt (fun a => (Exact.value_mul_fraction htotal hr).not_lt a.value) _ _ _

/-- A set of weights that have a size is drawn from as over the rationals. -/
theorem choose?_of_rational {weights : List Rat} (hs : s.weights = weights.map .finite)
    (hpos : 0 < weights.sum) (r : Rat) :
    s.choose? r = selectAmong? 0 (r * weights.sum) s.branches weights := by
  have hweights : s.exactWeights = weights.map Exact.ofRat := by
    rw [exactWeights, hs, List.map_map]
    rfl
  have hsums : KeepsSums Exact.ofRat 0 weights := keepsSums_of_add Exact.ofRat_add 0 weights
  have htotal : s.exactTotal = .ofRat weights.sum := by
    rw [exactTotal, hweights, hsums.total, sumFrom_eq, zero_add]
  have hat : (Exact.ofRat weights.sum).value.atMost (.finite 0) = false :=
    (Double.atMost_finite _ _).trans (decide_eq_false (not_le.2 hpos))
  rw [choose?, htotal, if_neg (by rw [hat]; exact Bool.false_ne_true), hweights, Exact.ofRat_mul,
    selectAmong?_of_keepsSums Exact.ofRat_lt_ofRat hsums]

/-- **Without a boundless text a fraction falls on a branch whose text denotes a positive number**, where
there is one. -/
theorem exists_choose?_of_bounded {texts : List Json} (hs : s.weights = texts.map Weight.value)
    (hlength : s.branches.length = texts.length) (hbounded : ∀ a ∈ texts, ¬Weight.IsBoundless a)
    (hproper : ∃ a ∈ texts, Weight.IsProper a) (hlow : 0 ≤ r) (hhigh : r < 1) :
    ∃ b a, (b, a) ∈ s.branches.zip texts ∧ s.choose? r = some b ∧ Weight.IsProper a := by
  have hshares : s.weights = (texts.map Weight.share).map .finite := by
    rw [hs, List.map_map]
    exact List.map_congr_left fun a ha => Weight.value_eq_share (hbounded a ha)
  have hnonneg : ∀ w ∈ texts.map Weight.share, 0 ≤ w := by
    intro w hw
    obtain ⟨a, -, rfl⟩ := List.mem_map.1 hw
    exact Weight.share_nonneg a
  have hpos : 0 < (texts.map Weight.share).sum := by
    obtain ⟨a, ha, hproper⟩ := hproper
    exact (Weight.share_pos_iff.2 hproper).trans_le
      (List.single_le_sum hnonneg _ (List.mem_map_of_mem ha))
  obtain ⟨i, hi⟩ := exists_fallsIn (mul_nonneg hlow hpos.le) (mul_lt_of_lt_one_left hpos hhigh)
  have hlt : i < texts.length := by simpa using hi.lt_length
  have ha : texts[i]? = some texts[i] := List.getElem?_eq_getElem hlt
  have hw : (texts.map Weight.share)[i]? = some (Weight.share texts[i]) := by
    rw [List.getElem?_map, ha, Option.map_some]
  have hb : s.branches[i]? = some (s.branches.get ⟨i, hlength ▸ hlt⟩) := List.getElem?_eq_getElem _
  have hzip : (s.branches.zip texts)[i]? = some (_, texts[i]) := List.getElem?_zip_eq_some.2 ⟨hb, ha⟩
  refine ⟨_, _, List.mem_of_getElem? hzip, ?_, Weight.share_pos_iff.1 (hi.weight_pos hw)⟩
  rw [choose?_of_rational hshares hpos, selectAmong?,
    firstExceeding_of_fallsIn hnonneg hb (by rwa [sub_zero]), Option.some_or]

end BranchSet

namespace Play

variable {s : BranchSet} {t : Session}

theorem drawBranch_of_atMost (h : s.total.atMost (.finite 0) = true) (t : Session) :
    drawBranch s t = .ok (s.branches.headD 0)
      { t with notices := t.notices ++ [.noPositiveWeight s.depth] } := by
  rw [drawBranch, if_pos h]
  rfl

theorem drawBranch_of_not_atMost (h : s.total.atMost (.finite 0) = false) (t : Session) :
    drawBranch s t =
      .ok ((s.select? (t.draws.fraction.1 * s.total)).getD (s.branches.headD 0))
        { t with draws := t.draws.fraction.2 } := by
  rw [drawBranch, if_neg (by rw [h]; exact Bool.false_ne_true)]
  rfl

/-- **A set with a boundless weight always falls on its last branch**, whatever fraction is drawn. -/
theorem drawBranch_of_boundless (h : ∃ w ∈ s.weights, w.IsBoundless) (hne : s.branches ≠ []) {r : Rat}
    (hr : 0 ≤ r) (hdraw : t.draws.fraction.1 = .finite r) :
    drawBranch s t = .ok (s.branches.getLast hne) { t with draws := t.draws.fraction.2 } := by
  have htotal := BranchSet.total_of_boundless h
  rw [drawBranch_of_not_atMost htotal.not_atMost, hdraw, BranchSet.select?_eq_selectAmong?,
    selectAmong?_of_not_lt (htotal.mul_fraction hr).not_lt, List.getLast?_eq_some_getLast hne,
    Option.getD_some]

/-- A boundless weight costs a draw. -/
theorem draws_of_boundless (h : ∃ w ∈ s.weights, w.IsBoundless) (t : Session) :
    ¬∃ b u, drawBranch s t = .ok b u ∧ u.draws = t.draws := by
  rintro ⟨b, u, hdrawn, hsame⟩
  rw [drawBranch_of_not_atMost (BranchSet.total_of_boundless h).not_atMost] at hdrawn
  cases hdrawn
  have htaken : t.draws.fractionsTaken + 1 = t.draws.fractionsTaken :=
    congrArg Draws.fractionsTaken hsame
  omega

/-- Where neither the sums of the weights nor the fraction of the total are rounded, a set is drawn from
as it is exactly. -/
theorem drawBranch_eq_choose? (hne : s.branches ≠ []) {r : Rat}
    (hsums : KeepsSums Exact.value (.ofRat 0) s.exactWeights)
    (hproduct : .finite r * s.total = (Exact.ofRat r * s.exactTotal).value)
    (hdraw : t.draws.fraction.1 = .finite r) :
    ∃ b u, s.choose? r = some b ∧ drawBranch s t = .ok b u := by
  have hweights : s.weights = s.exactWeights.map Exact.value := by
    rw [BranchSet.exactWeights, List.map_map]
    exact (List.map_id _).symm
  have htotal : s.total = s.exactTotal.value := by
    rw [BranchSet.total_eq_sumFrom, hweights]
    exact hsums.total
  obtain ⟨b, rest, hb⟩ := List.exists_cons_of_ne_nil hne
  cases hat : s.total.atMost (.finite 0) with
  | true =>
      have hfirst : s.choose? r = some b := by
        rw [BranchSet.choose?, ← htotal, if_pos hat, hb, List.head?_cons]
      have hdrawn := drawBranch_of_atMost hat t
      rw [hb, List.headD_cons] at hdrawn
      exact ⟨b, _, hfirst, hdrawn⟩
  | false =>
      have hsame : s.select? (.finite r * s.total) = s.choose? r := by
        have hlt : ∀ x y : Exact, x.value < y.value ↔ x < y := fun _ _ => Iff.rfl
        rw [BranchSet.choose?, ← htotal, if_neg (by rw [hat]; exact Bool.false_ne_true), hproduct,
          BranchSet.select?_eq_selectAmong?, hweights]
        exact selectAmong?_of_keepsSums hlt hsums _ _
      obtain ⟨c, hc⟩ : ∃ c, s.choose? r = some c := by
        rw [← hsame]
        exact BranchSet.exists_select? hne _
      have hdrawn := drawBranch_of_not_atMost hat t
      rw [hdraw, hsame, hc, Option.getD_some] at hdrawn
      exact ⟨c, _, hc, hdrawn⟩

end Play

/-! ### The texts of a list -/

/-- The arguments of a weight command, as the editor writes it. -/
def weightText? (command : Json) : Option Json :=
  match PluginCall.ofCommand? layerName command with
  | .ok (some call) => if call.command = weightCommand then some (.obj call.args.entries) else none
  | _ => none

/-- The weight command at a position of a list has a text. -/
def TextAt (items : List Json) (b : Nat) (text : Json) : Prop :=
  ∃ command, items[b]? = some command ∧ weightText? command = some text

/-- The text of the weight command at a position of a list has a property. -/
def DenotesAt (items : List Json) (P : Json → Prop) (b : Nat) : Prop := ∃ text, TextAt items b text ∧ P text

variable {items : List Json} {commands : List EventCommand}

theorem TextAt.unique {b : Nat} {text text' : Json} (h : TextAt items b text)
    (h' : TextAt items b text') : text = text' := by
  obtain ⟨command, hcommand, htext⟩ := h
  obtain ⟨command', hcommand', htext'⟩ := h'
  rw [hcommand] at hcommand'
  cases hcommand'
  rw [htext] at htext'
  exact Option.some.inj htext'

theorem TextAt.denotesAt_iff {b : Nat} {text : Json} (h : TextAt items b text) (P : Json → Prop) :
    DenotesAt items P b ↔ P text := by
  constructor
  · rintro ⟨text', h', htext⟩
    rwa [h.unique h']
  · exact fun htext => ⟨text, h, htext⟩

/-- The part in random branches of a call. -/
theorem mark_of_call {call : PluginCall} {mark : WeightMark}
    (h : (WeightMark.read (some call)).result = .ok mark) :
    mark = if call.command = weightCommand then .weight (Weight.value (.obj call.args.entries))
      else if call.command = endCommand then .close else .plain := by
  unfold WeightMark.read at h
  dsimp only at h
  by_cases hcommand : call.command = weightCommand
  · rw [if_pos hcommand, Reading.result_bind_ok (Weight.result_read _), Reading.result_pure] at h
    rw [if_pos hcommand]
    exact (Except.ok.inj h).symm
  · rw [if_neg hcommand] at h ⊢
    split at h
    · next hend =>
        rw [if_pos hend]
        exact (Except.ok.inj h).symm
    · next hend =>
        rw [if_neg hend]
        exact (Except.ok.inj h).symm

/-- A command is read as giving a weight where it is a weight command, and gives what its text counts
for. -/
theorem weightText?_of_read {command : Json} {c : EventCommand} {w : Double}
    (h : (EventCommand.read command).result = .ok c) (hw : c.mark = .weight w) :
    ∃ text, weightText? command = some text ∧ w = Weight.value text := by
  unfold EventCommand.read at h
  split at h
  · next fields =>
      obtain ⟨indent, -, h⟩ := Reading.bind_eq_ok h
      obtain ⟨call, hcall, h⟩ := Reading.bind_eq_ok h
      obtain ⟨mark, hmark, h⟩ := Reading.bind_eq_ok h
      have hcall : PluginCall.ofCommand? layerName (.obj fields) = .ok call := hcall
      obtain rfl := Except.ok.inj h
      obtain rfl : mark = .weight w := hw
      cases call with
      | none => cases hmark
      | some call =>
          have hmark := mark_of_call hmark
          by_cases hcommand : call.command = weightCommand
          · rw [if_pos hcommand] at hmark
            refine ⟨.obj call.args.entries, ?_, WeightMark.weight.inj hmark⟩
            unfold weightText?
            rw [hcall]
            exact if_pos hcommand
          · rw [if_neg hcommand] at hmark
            split at hmark <;> cases hmark
  · obtain rfl := Except.ok.inj h
    cases hw
  · obtain rfl := Except.ok.inj h
    cases hw

theorem exists_text_of_reads (hread : Program.Reads items commands) {b : Nat} {c : EventCommand}
    (hc : commands[b]? = some c) : ∃ command, items[b]? = some command ∧
      (EventCommand.read command).result = .ok c := by
  induction items generalizing commands b with
  | nil =>
      cases hread
      cases hc
  | cons v rest ih =>
      obtain ⟨c', commands', hv, hrest, rfl⟩ := hread.cons_inv
      cases b with
      | zero =>
          cases hc
          exact ⟨v, rfl, hv⟩
      | succ b => exact ih hrest hc

/-- **The weights of a set of a list are what the texts of its branches count for.** -/
theorem exists_texts_of_mem_build (hread : Program.Reads items commands) {s : BranchSet}
    (hs : s ∈ (WeightTable.build commands).sets) :
    ∃ texts : List Json, s.weights = texts.map Weight.value ∧
      List.Forall₂ (TextAt items) s.branches texts := by
  have hweights := (WeightTable.set_of_mem_build hs).weights
  revert hweights
  generalize s.branches = branches
  generalize s.weights = weights
  intro h
  induction h with
  | nil => exact ⟨[], rfl, .nil⟩
  | cons hb _ ih =>
      obtain ⟨c, hc, hw⟩ := hb
      obtain ⟨command, hcommand, hreadc⟩ := exists_text_of_reads hread hc
      obtain ⟨text, htext, hvalue⟩ := weightText?_of_read hreadc hw
      obtain ⟨texts, hvalues, hrest⟩ := ih
      refine ⟨text :: texts, ?_, .cons ⟨command, hcommand, htext⟩ hrest⟩
      rw [List.map_cons, hvalue, hvalues]

/-! ### What the texts decide -/

section Decide

variable {branches : List Nat} {texts : List Json}

/-- What is said of the branches of a set can be said of their texts. -/
theorem forall_denotesAt_iff (h : List.Forall₂ (TextAt items) branches texts) (P : Json → Prop) :
    (∀ b ∈ branches, ¬DenotesAt items P b) ↔ ∀ a ∈ texts, ¬P a := by
  induction h with
  | nil => simp
  | cons hb _ ih => rw [List.forall_mem_cons, List.forall_mem_cons, hb.denotesAt_iff, ih]

theorem exists_denotesAt_iff (h : List.Forall₂ (TextAt items) branches texts) (P : Json → Prop) :
    (∃ b ∈ branches, DenotesAt items P b) ↔ ∃ a ∈ texts, P a := by
  simpa using not_congr (forall_denotesAt_iff h P)

/-- A text that is not proper contributes nothing, exactly if none is boundless. -/
theorem contributes_iff (h : List.Forall₂ (TextAt items) branches texts) :
    (∀ e ∈ branches.zip (texts.map Weight.value), ¬DenotesAt items Weight.IsProper e.1 → e.2 = .finite 0) ↔
      ∀ a ∈ texts, ¬Weight.IsBoundless a := by
  induction h with
  | nil => simp
  | @cons b a _ _ hb _ ih =>
      rw [List.map_cons, List.zip_cons_cons, List.forall_mem_cons, List.forall_mem_cons, ih,
        hb.denotesAt_iff]
      dsimp only
      rw [Weight.value_eq_zero_iff]

/-- With no proper and no boundless text a set has the total zero. -/
theorem sumFrom_of_unusable (hproper : ∀ a ∈ texts, ¬Weight.IsProper a)
    (hbounded : ∀ a ∈ texts, ¬Weight.IsBoundless a) :
    sumFrom (.finite 0) (texts.map Weight.value) = .finite 0 := by
  induction texts with
  | nil => rfl
  | cons a rest ih =>
      have hrest := ih (fun a ha => hproper a (List.mem_cons_of_mem _ ha))
        (fun a ha => hbounded a (List.mem_cons_of_mem _ ha))
      have hv : Weight.value a = .finite 0 := by
        rcases Weight.value_cases a with ⟨hp, -⟩ | ⟨-, hb, -⟩ | ⟨-, -, hv⟩
        · exact absurd hp (hproper a List.mem_cons_self)
        · exact absurd hb (hbounded a List.mem_cons_self)
        · exact hv
      have hzero : (.finite 0 + .finite 0 : Double) = .finite 0 := by decide +kernel
      rw [List.map_cons, sumFrom_cons, hv, hzero, hrest]

end Decide

/-- **A text that denotes no positive number contributes nothing, exactly if no text of the set is
boundless.  Where some text denotes a positive number, every fraction falls on a branch of such a text
exactly if none is boundless, or if that of the last branch is such a text.  Where none does, the first
branch is taken without a draw, exactly if none is boundless.** -/
theorem proper_weights_drawn_iff (hread : Program.Reads items commands) {s : BranchSet}
    (hs : s ∈ (WeightTable.build commands).sets) :
    ((∀ e ∈ s.branches.zip s.weights, ¬DenotesAt items Weight.IsProper e.1 → e.2 = .finite 0) ↔
      ∀ b ∈ s.branches, ¬DenotesAt items Weight.IsBoundless b) ∧
    ((∃ b ∈ s.branches, DenotesAt items Weight.IsProper b) →
      ((∀ r : Rat, 0 ≤ r → r < 1 → ∃ b, s.choose? r = some b ∧ DenotesAt items Weight.IsProper b) ↔
        (∀ b ∈ s.branches, ¬DenotesAt items Weight.IsBoundless b) ∨
          ∃ b, s.branches.getLast? = some b ∧ DenotesAt items Weight.IsProper b)) ∧
    ((∀ b ∈ s.branches, ¬DenotesAt items Weight.IsProper b) → ∀ t : Session,
      ((∃ u, Play.drawBranch s t = .ok (s.branches.headD 0) u ∧ u.draws = t.draws) ↔
        ∀ b ∈ s.branches, ¬DenotesAt items Weight.IsBoundless b)) := by
  obtain ⟨texts, hweights, htexts⟩ := exists_texts_of_mem_build hread hs
  have hne := (WeightTable.set_of_mem_build hs).nonempty
  have hlength := htexts.length_eq
  have hboundless : (∃ a ∈ texts, Weight.IsBoundless a) → ∃ w ∈ s.weights, w.IsBoundless := by
    rintro ⟨a, ha, hbound⟩
    exact ⟨_, hweights ▸ List.mem_map_of_mem ha, Weight.isBoundless_value_iff.2 hbound⟩
  rw [forall_denotesAt_iff htexts, forall_denotesAt_iff htexts, exists_denotesAt_iff htexts]
  refine ⟨by rw [hweights, contributes_iff htexts], fun hproper => ⟨fun hall => ?_, ?_⟩,
    fun hnone t => ⟨?_, ?_⟩⟩
  · -- with a boundless text every fraction falls on the last branch, whose text then is proper
    by_cases hbound : ∃ a ∈ texts, Weight.IsBoundless a
    · obtain ⟨b, hb, hdenotes⟩ := hall 0 le_rfl one_pos
      rw [BranchSet.choose?_of_boundless (hboundless hbound) le_rfl] at hb
      exact Or.inr ⟨b, hb, hdenotes⟩
    · exact Or.inl fun a ha hbound' => hbound ⟨a, ha, hbound'⟩
  · intro h r hlow hhigh
    by_cases hbound : ∃ a ∈ texts, Weight.IsBoundless a
    · obtain ⟨b, hb, hdenotes⟩ := h.resolve_left fun hnot => by
        obtain ⟨a, ha, hbound⟩ := hbound
        exact hnot a ha hbound
      exact ⟨b, by rw [BranchSet.choose?_of_boundless (hboundless hbound) hlow, hb], hdenotes⟩
    · obtain ⟨b, a, hmem, hb, hisProper⟩ := BranchSet.exists_choose?_of_bounded hweights hlength
        (fun a ha hbound' => hbound ⟨a, ha, hbound'⟩) hproper hlow hhigh
      exact ⟨b, hb, a, (List.forall₂_iff_zip.1 htexts).2 hmem, hisProper⟩
  · rintro ⟨u, hdrawn, hsame⟩ a ha hbound
    exact Play.draws_of_boundless (hboundless ⟨a, ha, hbound⟩) t ⟨_, u, hdrawn, hsame⟩
  · intro hbounded
    have htotal : s.total.atMost (.finite 0) = true := by
      rw [BranchSet.total_eq_sumFrom, hweights, sumFrom_of_unusable hnone hbounded]
      rfl
    exact ⟨_, Play.drawBranch_of_atMost htotal t, rfl⟩

/-! ### Two choices -/

/-- A list that is nothing but a random choice, as the editor writes it: a branch for each text. -/
def choiceOf (texts : List Json) : List Json :=
  texts.map fun w => Program.commandAt 0 357 (Program.weightParams w)

/-- The commands of such a list. -/
def choiceCommands (texts : List Json) : List EventCommand := texts.map (Program.weightAt 0)

theorem reads_choiceOf (texts : List Json) : Program.Reads (choiceOf texts) (choiceCommands texts) := by
  induction texts with
  | nil => exact .nil
  | cons w rest ih => exact .cons (Program.read_weight 0 w) ih

theorem textAt_choiceOf {texts : List Json} {b : Nat} {w : Json} (h : texts[b]? = some w) :
    TextAt (choiceOf texts) b (.obj [("weight", w)]) := by
  refine ⟨_, by rw [choiceOf, List.getElem?_map, h, Option.map_some], ?_⟩
  unfold weightText?
  rw [Program.weightParams, Program.ofCommand?_layer]
  rfl

/-- The set of a choice between two branches. -/
def pairSet (v w : Json) : BranchSet where
  depth := 0
  branches := [0, 1]
  weights := [Program.weightOf v, Program.weightOf w]

theorem pairSet_mem (v w : Json) : pairSet v w ∈ (WeightTable.build (choiceCommands [v, w])).sets :=
  List.mem_singleton.2 rfl

/-- Between a branch of weight three and one whose weight is a word, every fraction falls on the first. -/
theorem proper_weights_drawn_word :
    (∃ b ∈ (pairSet (.str "3") (.str "many")).branches,
      DenotesAt (choiceOf [.str "3", .str "many"]) Weight.IsProper b) ∧
    ∀ r : Rat, 0 ≤ r → r < 1 → ∃ b, (pairSet (.str "3") (.str "many")).choose? r = some b ∧
      DenotesAt (choiceOf [.str "3", .str "many"]) Weight.IsProper b := by
  have hfirst : TextAt (choiceOf [.str "3", .str "many"]) 0 (.obj [("weight", .str "3")]) :=
    textAt_choiceOf rfl
  have hsecond : TextAt (choiceOf [.str "3", .str "many"]) 1 (.obj [("weight", .str "many")]) :=
    textAt_choiceOf rfl
  obtain ⟨-, hdrawn, -⟩ :=
    proper_weights_drawn_iff (reads_choiceOf [.str "3", .str "many"]) (pairSet_mem _ _)
  have hproper : ∃ b ∈ (pairSet (.str "3") (.str "many")).branches,
      DenotesAt (choiceOf [.str "3", .str "many"]) Weight.IsProper b :=
    ⟨0, by decide, (hfirst.denotesAt_iff _).2 ⟨3, by decide +kernel, by decide +kernel⟩⟩
  refine ⟨hproper, (hdrawn hproper).2 (Or.inl ?_)⟩
  intro b hb
  rcases List.mem_cons.1 hb with rfl | hb
  · rw [hfirst.denotesAt_iff]
    unfold Weight.IsBoundless
    decide +kernel
  · cases List.mem_singleton.1 hb
    rw [hsecond.denotesAt_iff]
    unfold Weight.IsBoundless
    decide +kernel

/-- Between a branch of weight one and one of infinite weight, half of the total falls on the second, whose
text denotes no positive number. -/
theorem infinite_weight_drawn :
    DenotesAt (choiceOf [.str "1", .str "inf"]) Weight.IsProper 0 ∧
    ¬DenotesAt (choiceOf [.str "1", .str "inf"]) Weight.IsProper 1 ∧
    pairSet (.str "1") (.str "inf") ∈
      (WeightTable.build (choiceCommands [.str "1", .str "inf"])).sets ∧
    (pairSet (.str "1") (.str "inf")).choose? (1 / 2) = some 1 := by
  have hfirst : TextAt (choiceOf [.str "1", .str "inf"]) 0 (.obj [("weight", .str "1")]) :=
    textAt_choiceOf rfl
  have hsecond : TextAt (choiceOf [.str "1", .str "inf"]) 1 (.obj [("weight", .str "inf")]) :=
    textAt_choiceOf rfl
  refine ⟨(hfirst.denotesAt_iff _).2 ⟨1, by decide +kernel, by decide +kernel⟩, ?_, pairSet_mem _ _,
    by decide +kernel⟩
  rw [hsecond.denotesAt_iff]
  rintro ⟨q, hq, -⟩
  have hinf : (Weight.raw (.obj [("weight", .str "inf")])).decimal? = some (.infinite false) := by
    decide +kernel
  rw [hinf] at hq
  cases hq

end EventLayer
