/-
**Rounded numbers and their whole parts.**

A floating-point number comes to a whole number of units in the last place, at most `2 ^ 53` of them.  To
round it once more changes nothing.  If it is no infinity it is less than `2 ^ 1024`, and then by a whole
unit, so that its whole part becomes a floating-point number again without becoming an infinity.

Main definitions:

* `Double.unitsOf`, `Double.rounded` — how a rational is rounded;
* `Double.greatest` — the greatest number that is no infinity.

Main results:

* `Double.log2_bounds` — the exponent of a quotient;
* `Double.unitCount_le` — a quotient comes to no more than `2 ^ 53` units in the last place;
* `Double.ofRat_of_rounded` — **what has been rounded is not rounded again**;
* `Double.ofInt_of_natAbs_le` — small whole numbers are not rounded;
* `Double.natAbs_le_greatest` — **the whole part of a rounded number is in range**;
* `Double.ofIntChecked_of_le` — a whole number in range can be rounded;
* `Json.ofIntChecked_of_decimalPart` — so can the whole part of a number that a text denotes.
-/
import EventLayer.Json
import Mathlib.Algebra.Order.Field.Power
import Mathlib.Tactic.Positivity
import Mathlib.Data.Rat.Cast.Order

set_option autoImplicit false
set_option relaxedAutoImplicit false

namespace EventLayer

namespace Double

/-! ### Powers of two -/

theorem twoPow_eq_zpow (e : Int) : twoPow e = (2 : Rat) ^ e := by
  unfold twoPow
  split
  · next h =>
      obtain ⟨n, rfl⟩ : ∃ n : Nat, e = -(n : Int) := ⟨e.natAbs, by omega⟩
      rw [neg_neg, Int.toNat_natCast, zpow_neg, zpow_natCast, Rat.mkRat_eq_div]
      simp
  · next h =>
      obtain ⟨n, rfl⟩ : ∃ n : Nat, e = (n : Int) := ⟨e.natAbs, by omega⟩
      rw [Int.toNat_natCast, zpow_natCast]
      simp

theorem twoPow_pos (e : Int) : 0 < twoPow e := by
  rw [twoPow_eq_zpow]
  positivity

theorem twoPow_add (a b : Int) : twoPow (a + b) = twoPow a * twoPow b := by
  rw [twoPow_eq_zpow, twoPow_eq_zpow, twoPow_eq_zpow]
  exact zpow_add₀ (by norm_num) a b

theorem twoPow_le {a b : Int} (h : a ≤ b) : twoPow a ≤ twoPow b := by
  rw [twoPow_eq_zpow, twoPow_eq_zpow]
  exact zpow_le_zpow_right₀ (by norm_num) h

theorem twoPow_natCast (n : Nat) : twoPow n = ((2 ^ n : Nat) : Rat) := by
  rw [twoPow_eq_zpow, zpow_natCast]
  simp

/-! ### The exponent of a quotient -/

variable {num den : Nat}

/-- Whether the greater of two candidates fits, as an inequality of rationals. -/
theorem fits_iff (num den : Nat) (k : Int) :
    (if k < 0 then den ≤ num * Nat.pow 2 (-k).toNat else den * Nat.pow 2 k.toNat ≤ num) ↔
      (den : Rat) * twoPow k ≤ num := by
  split
  · next h =>
      obtain ⟨n, rfl⟩ : ∃ n : Nat, k = -(n : Int) := ⟨k.natAbs, by omega⟩
      have hpos : (0 : Rat) < twoPow n := twoPow_pos _
      have hinv : twoPow (-(n : Int)) * twoPow n = 1 := by
        rw [← twoPow_add, neg_add_cancel]
        rfl
      rw [neg_neg, Int.toNat_natCast, ← mul_le_mul_iff_left₀ hpos, mul_assoc, hinv, mul_one,
        twoPow_natCast]
      exact_mod_cast Iff.rfl
  · next h =>
      obtain ⟨n, rfl⟩ : ∃ n : Nat, k = (n : Int) := ⟨k.natAbs, by omega⟩
      rw [Int.toNat_natCast, twoPow_natCast]
      exact_mod_cast Iff.rfl

/-- A whole number lies between two powers of two. -/
theorem natLog2_bounds {n : Nat} (h : 0 < n) :
    twoPow (Nat.log2 n) ≤ n ∧ (n : Rat) < twoPow (Nat.log2 n + 1) := by
  have hlow : 2 ^ Nat.log2 n ≤ n := Nat.log2_self_le (by omega)
  have hhigh : n < 2 ^ (Nat.log2 n + 1) := Nat.lt_log2_self
  constructor
  · rw [twoPow_natCast]
    exact_mod_cast hlow
  · have := twoPow_natCast (Nat.log2 n + 1)
    rw [Nat.cast_add, Nat.cast_one] at this
    rw [this]
    exact_mod_cast hhigh

theorem log2_eq (num den : Nat) : log2 num den =
    if (den : Rat) * twoPow ((Nat.log2 num : Int) - Nat.log2 den) ≤ num then
      (Nat.log2 num : Int) - Nat.log2 den
    else (Nat.log2 num : Int) - Nat.log2 den - 1 := by
  unfold log2
  simp only [← fits_iff]
  split <;> simp

/-- **The exponent of a quotient**: the quotient lies between two powers of two. -/
theorem log2_bounds (hnum : 0 < num) (hden : 0 < den) :
    (den : Rat) * twoPow (log2 num den) ≤ num ∧
      (num : Rat) < den * twoPow (log2 num den + 1) := by
  obtain ⟨hnumLow, hnumHigh⟩ := natLog2_bounds hnum
  obtain ⟨hdenLow, hdenHigh⟩ := natLog2_bounds hden
  rw [log2_eq]
  generalize hk : (Nat.log2 num : Int) - Nat.log2 den = k
  have hnumLog : (Nat.log2 num : Int) = Nat.log2 den + k := by omega
  split
  · next hfits =>
      refine ⟨hfits, ?_⟩
      calc (num : Rat) < twoPow (Nat.log2 num + 1) := hnumHigh
        _ = twoPow (Nat.log2 den) * twoPow (k + 1) := by
          rw [← twoPow_add, hnumLog, add_assoc]
        _ ≤ den * twoPow (k + 1) :=
          mul_le_mul_of_nonneg_right hdenLow (twoPow_pos _).le
  · next hfits =>
      rw [sub_add_cancel]
      refine ⟨?_, not_le.mp hfits⟩
      calc (den : Rat) * twoPow (k - 1)
          ≤ twoPow (Nat.log2 den + 1) * twoPow (k - 1) :=
            mul_le_mul_of_nonneg_right hdenHigh.le (twoPow_pos _).le
        _ = twoPow (Nat.log2 num) := by
          rw [← twoPow_add, hnumLog]
          congr 1
          omega
        _ ≤ num := hnumLow

/-! ### Units in the last place -/

/-- Rounding does not go past a whole number. -/
theorem roundEven_le {c : Nat} (hden : 0 < den) (h : num ≤ c * den) : roundEven num den ≤ c := by
  have hdiv : num / den ≤ c := Nat.div_le_of_le_mul (by rwa [Nat.mul_comm] at h)
  have hmod := Nat.div_add_mod num den
  have hlt := Nat.mod_lt num hden
  -- a quotient that is rounded up to more than `c` would have been `c` with a remainder
  have hnext : num % den ≠ 0 → num / den + 1 ≤ c := by
    intro hne
    by_contra hc
    have heq : num / den = c := by omega
    rw [heq, Nat.mul_comm] at hmod
    omega
  unfold roundEven
  dsimp only
  split
  · exact hdiv
  · split
    · exact hnext (by omega)
    · split
      · exact hdiv
      · exact hnext (by omega)

theorem le_roundEven {c : Nat} (hden : 0 < den) (h : c * den ≤ num) : c ≤ roundEven num den := by
  have hdiv : c ≤ num / den := (Nat.le_div_iff_mul_le hden).mpr h
  unfold roundEven
  grind

/-- A whole number is not rounded. -/
theorem roundEven_mul (c : Nat) (hden : 0 < den) : roundEven (c * den) den = c := by
  simp [roundEven, hden]

/-- A count of units is a quotient that is rounded. -/
theorem unitCount_spec (num : Nat) (hden : 0 < den) (e : Int) :
    ∃ a b : Nat, 0 < b ∧ unitCount num den e = roundEven a b ∧
      (a : Rat) * (den * twoPow e) = num * b := by
  unfold unitCount
  split
  · next he =>
      obtain ⟨n, rfl⟩ : ∃ n : Nat, e = -(n : Int) := ⟨e.natAbs, by omega⟩
      have hinv : ((2 ^ n : Nat) : Rat) * twoPow (-(n : Int)) = 1 := by
        rw [← twoPow_natCast, ← twoPow_add, add_neg_cancel]
        rfl
      rw [neg_neg, Int.toNat_natCast]
      refine ⟨_, den, hden, rfl, ?_⟩
      rw [Nat.pow_eq, Nat.cast_mul, mul_assoc, mul_left_comm (_ : Rat) (den : Rat), hinv, mul_one]
  · next he =>
      obtain ⟨n, rfl⟩ : ∃ n : Nat, e = (n : Int) := ⟨e.natAbs, by omega⟩
      rw [Int.toNat_natCast]
      refine ⟨num, _, Nat.mul_pos hden (Nat.pow_pos (by decide)), rfl, ?_⟩
      rw [twoPow_natCast, Nat.cast_mul]

/-- A count of units is bounded by what the quotient comes to. -/
theorem unitCount_le_of_le {e : Int} {c : Nat} (hden : 0 < den)
    (h : (num : Rat) ≤ c * (den * twoPow e)) : unitCount num den e ≤ c := by
  obtain ⟨a, b, hb, hcount, hsame⟩ := unitCount_spec num hden e
  have hunit : (0 : Rat) < den * twoPow e := mul_pos (Nat.cast_pos.mpr hden) (twoPow_pos e)
  rw [hcount]
  refine roundEven_le hb ?_
  have hscaled : (a : Rat) * (den * twoPow e) ≤ c * b * (den * twoPow e) := by
    rw [hsame, mul_right_comm]
    exact mul_le_mul_of_nonneg_right h (Nat.cast_nonneg b)
  exact_mod_cast le_of_mul_le_mul_right hscaled hunit

theorem le_unitCount_of_le {e : Int} {c : Nat} (hden : 0 < den)
    (h : c * (den * twoPow e) ≤ (num : Rat)) : c ≤ unitCount num den e := by
  obtain ⟨a, b, hb, hcount, hsame⟩ := unitCount_spec num hden e
  have hunit : (0 : Rat) < den * twoPow e := mul_pos (Nat.cast_pos.mpr hden) (twoPow_pos e)
  rw [hcount]
  refine le_roundEven hb ?_
  have hscaled : (c : Rat) * b * (den * twoPow e) ≤ a * (den * twoPow e) := by
    rw [hsame, mul_right_comm]
    exact mul_le_mul_of_nonneg_right h (Nat.cast_nonneg b)
  exact_mod_cast le_of_mul_le_mul_right hscaled hunit

/-- A quotient that is a whole number of units comes to that many. -/
theorem unitCount_eq {e : Int} {c : Nat} (hden : 0 < den)
    (h : (num : Rat) = c * (den * twoPow e)) : unitCount num den e = c := by
  obtain ⟨a, b, hb, hcount, hsame⟩ := unitCount_spec num hden e
  have hunit : (0 : Rat) < den * twoPow e := mul_pos (Nat.cast_pos.mpr hden) (twoPow_pos e)
  have hscaled : (a : Rat) * (den * twoPow e) = c * b * (den * twoPow e) := by
    rw [hsame, h, mul_right_comm]
  have hab : a = c * b := by exact_mod_cast mul_right_cancel₀ hunit.ne' hscaled
  rw [hcount, hab]
  exact roundEven_mul c hb

/-- **A quotient comes to no more than `2 ^ 53` units in the last place.** -/
theorem unitCount_le (hnum : 0 < num) (hden : 0 < den) :
    unitCount num den (unitExponent num den) ≤ 2 ^ 53 := by
  have hhigh := (log2_bounds hnum hden).2
  refine unitCount_le_of_le hden ?_
  have hexponent : log2 num den + 1 ≤ 53 + unitExponent num den := by
    unfold unitExponent
    omega
  calc (num : Rat) ≤ den * twoPow (log2 num den + 1) := hhigh.le
    _ ≤ den * twoPow (53 + unitExponent num den) :=
      mul_le_mul_of_nonneg_left (twoPow_le hexponent) (Nat.cast_nonneg den)
    _ = (2 ^ 53 : Nat) * (den * twoPow (unitExponent num den)) := by
      rw [twoPow_add, show (53 : Int) = (53 : Nat) from rfl, twoPow_natCast, mul_left_comm]

/-! ### The greatest number -/

/-- The unit in the last place of the greatest numbers. -/
@[irreducible] def topUnit : Nat := 2 ^ 971

theorem topUnit_pos : 0 < topUnit := by
  unfold topUnit
  positivity

theorem twoPow_top : twoPow 971 = topUnit := by
  unfold topUnit
  rw [show (971 : Int) = (971 : Nat) from rfl, twoPow_natCast]

/-- From here on numbers are infinities. -/
theorem pow_limit : Nat.pow 2 1024 = 2 ^ 53 * topUnit := by
  unfold topUnit
  decide +kernel

/-- The greatest number that is no infinity. -/
def greatest : Nat := (2 ^ 53 - 1) * topUnit

theorem greatest_lt : greatest < 2 ^ 53 * topUnit :=
  Nat.mul_lt_mul_of_pos_right (by decide) topUnit_pos

/-- Small units come to no more than the greatest number. -/
theorem smallUnits_le_greatest {k : Nat} {e : Int} (hk : k ≤ 2 ^ 53) (he : e ≤ 970) :
    (k : Rat) * twoPow e ≤ greatest := by
  have hhalf : 2 * twoPow e ≤ topUnit := by
    rw [← twoPow_top, show (971 : Int) = 1 + 970 from rfl, twoPow_add]
    exact mul_le_mul (le_of_eq rfl) (twoPow_le he) (twoPow_pos e).le (twoPow_pos 1).le
  have hcount : (k : Rat) ≤ (2 ^ 53 - 1 : Nat) * 2 := by
    exact_mod_cast (show k ≤ (2 ^ 53 - 1) * 2 by omega)
  calc (k : Rat) * twoPow e ≤ (2 ^ 53 - 1 : Nat) * 2 * twoPow e :=
        mul_le_mul_of_nonneg_right hcount (twoPow_pos e).le
    _ = (2 ^ 53 - 1 : Nat) * (2 * twoPow e) := mul_assoc ..
    _ ≤ (2 ^ 53 - 1 : Nat) * topUnit := mul_le_mul_of_nonneg_left hhalf (Nat.cast_nonneg _)
    _ = greatest := by rw [greatest, Nat.cast_mul]

/-- A count of units in the last place that is below the limit is no more than the greatest number. -/
theorem units_le_greatest {k : Nat} {e : Int} (hk : k ≤ 2 ^ 53)
    (h : (k : Rat) * twoPow e < (2 ^ 53 * topUnit : Nat)) : (k : Rat) * twoPow e ≤ greatest := by
  by_cases he : e ≤ 970
  · exact smallUnits_le_greatest hk he
  · obtain ⟨m, rfl⟩ : ∃ m : Nat, e = m + 971 := ⟨(e - 971).natAbs, by omega⟩
    have hwhole : (k : Rat) * twoPow (m + 971) = (k * 2 ^ m * topUnit : Nat) := by
      rw [twoPow_add, twoPow_top, twoPow_natCast, Nat.cast_mul, Nat.cast_mul, mul_assoc]
    rw [hwhole] at h ⊢
    have hunits : k * 2 ^ m < 2 ^ 53 := Nat.lt_of_mul_lt_mul_right (Nat.cast_lt.mp h)
    have hle : k * 2 ^ m ≤ 2 ^ 53 - 1 := by omega
    exact Nat.cast_le.mpr (Nat.mul_le_mul_right _ hle)

/-- A whole number up to the greatest is not rounded to more. -/
theorem units_lt_of_le_greatest {m : Nat} (hm : 0 < m) (h : m ≤ greatest) :
    (unitCount m 1 (unitExponent m 1) : Rat) * twoPow (unitExponent m 1) <
      (2 ^ 53 * topUnit : Nat) := by
  have hlow := (log2_bounds hm Nat.one_pos).1
  have hlog : log2 m 1 < 1024 := by
    by_contra hc
    have hpower : twoPow 1024 ≤ m := by
      refine le_trans (twoPow_le (not_lt.mp hc)) ?_
      simpa using hlow
    have hlimit : twoPow 1024 = (2 ^ 53 * topUnit : Nat) := by
      rw [show (1024 : Int) = (53 : Nat) + 971 from rfl, twoPow_add, twoPow_top, twoPow_natCast,
        Nat.cast_mul]
    rw [hlimit] at hpower
    have := Nat.cast_le.mp hpower
    have := greatest_lt
    omega
  have hexponent : unitExponent m 1 ≤ 971 := by
    unfold unitExponent
    omega
  by_cases he : unitExponent m 1 ≤ 970
  · refine lt_of_le_of_lt (smallUnits_le_greatest (unitCount_le hm Nat.one_pos) he) ?_
    exact Nat.cast_lt.mpr greatest_lt
  · obtain he : unitExponent m 1 = 971 := by omega
    rw [he, twoPow_top]
    have hcount : unitCount m 1 971 ≤ 2 ^ 53 - 1 := by
      refine unitCount_le_of_le Nat.one_pos ?_
      rw [twoPow_top, Nat.cast_one, one_mul, ← Nat.cast_mul]
      exact Nat.cast_le.mpr h
    have hle : unitCount m 1 971 * topUnit ≤ greatest := Nat.mul_le_mul_right _ hcount
    rw [← Nat.cast_mul]
    exact Nat.cast_lt.mpr (lt_of_le_of_lt hle greatest_lt)

/-! ### Rounding -/

/-- The exponent of the unit in the last place near a rational. -/
def exponentOf (q : Rat) : Int := unitExponent q.num.natAbs q.den

/-- How many units in the last place a rational comes to. -/
def unitsOf (q : Rat) : Nat := unitCount q.num.natAbs q.den (exponentOf q)

/-- The magnitude that a rational is rounded to. -/
def rounded (q : Rat) : Rat := unitsOf q * twoPow (exponentOf q)

theorem rounded_nonneg (q : Rat) : 0 ≤ rounded q :=
  mul_nonneg (Nat.cast_nonneg _) (twoPow_pos _).le

/-- What a rational other than zero is rounded to. -/
theorem ofRat_of_ne_zero {q : Rat} (hq : q ≠ 0) : ofRat q =
    if (2 ^ 53 * topUnit : Nat) ≤ rounded q then .infinite (decide (q < 0))
    else if unitsOf q = 0 then zero (decide (q < 0))
    else .finite (if q < 0 then -rounded q else rounded q) := by
  rw [← pow_limit]
  simp only [ofRat, if_neg hq, decide_eq_true_eq]
  rfl

theorem natAbs_pos_of_ne_zero {q : Rat} (hq : q ≠ 0) : 0 < q.num.natAbs :=
  Int.natAbs_pos.mpr (Rat.num_ne_zero.mpr hq)

theorem natAbs_num (q : Rat) : (q.num.natAbs : Rat) = |q| * q.den := by
  rw [Nat.cast_natAbs, Int.cast_abs, ← Rat.mul_den_eq_num, abs_mul, Nat.abs_cast]

theorem unitsOf_le {q : Rat} (hq : q ≠ 0) : unitsOf q ≤ 2 ^ 53 :=
  unitCount_le (natAbs_pos_of_ne_zero hq) q.den_pos

theorem abs_signed (q : Rat) : |if q < 0 then -rounded q else rounded q| = rounded q := by
  split
  · rw [abs_neg, abs_of_nonneg (rounded_nonneg q)]
  · exact abs_of_nonneg (rounded_nonneg q)

/-- A rational whose magnitude is a number of units that fit is a whole number of units near itself. -/
theorem units_of_abs {r : Rat} {k : Nat} {e : Int} (hk : k ≤ 2 ^ 53) (he : -1074 ≤ e) (hr : r ≠ 0)
    (h : |r| = k * twoPow e) : ∃ c : Nat, |r| = c * twoPow (exponentOf r) := by
  have hnum := natAbs_num r
  have hlow := (log2_bounds (natAbs_pos_of_ne_zero hr) r.den_pos).1
  have hden : (0 : Rat) < r.den := Nat.cast_pos.mpr r.den_pos
  have hpower : twoPow (log2 r.num.natAbs r.den) ≤ k * twoPow e := by
    rw [← h]
    refine le_of_mul_le_mul_right ?_ hden
    rwa [← hnum, mul_comm]
  by_cases hlog : log2 r.num.natAbs r.den ≤ 52 + e
  · have hexponent : exponentOf r ≤ e := by
      unfold exponentOf unitExponent
      omega
    obtain ⟨n, hn⟩ : ∃ n : Nat, e = n + exponentOf r := ⟨(e - exponentOf r).natAbs, by omega⟩
    refine ⟨k * 2 ^ n, ?_⟩
    rw [h, Nat.cast_mul, ← twoPow_natCast, mul_assoc, ← twoPow_add, ← hn]
  · -- the count of units is the greatest that fits, and the next unit is twice as large
    have hfull : k = 2 ^ 53 := by
      have hle : twoPow (53 + e) ≤ k * twoPow e := le_trans (twoPow_le (by omega)) hpower
      rw [twoPow_add] at hle
      have hcount := le_of_mul_le_mul_right hle (twoPow_pos e)
      rw [show (53 : Int) = (53 : Nat) from rfl, twoPow_natCast] at hcount
      exact Nat.le_antisymm hk (Nat.cast_le.mp hcount)
    have hupper : log2 r.num.natAbs r.den ≤ 53 + e := by
      by_contra hc
      have hle : twoPow (1 + (53 + e)) ≤ k * twoPow e := le_trans (twoPow_le (by omega)) hpower
      rw [hfull, ← twoPow_natCast, ← twoPow_add, twoPow_add 1] at hle
      have hpos := twoPow_pos (53 + e)
      have hone : twoPow 1 = 2 := twoPow_natCast 1
      rw [hone] at hle
      change 2 * twoPow (53 + e) ≤ twoPow (53 + e) at hle
      exact absurd hle (not_le.mpr (lt_two_mul_self hpos))
    have hexponent : exponentOf r = 1 + e := by
      unfold exponentOf unitExponent
      omega
    refine ⟨2 ^ 52, ?_⟩
    rw [h, hfull, hexponent, ← twoPow_natCast, ← twoPow_natCast, ← twoPow_add, ← twoPow_add]
    congr 1
    omega

/-- A number of units that fit, below the limit, is not rounded. -/
theorem ofRat_of_units {r : Rat} {k : Nat} {e : Int} (hk : k ≤ 2 ^ 53) (he : -1074 ≤ e) (hr : r ≠ 0)
    (h : |r| = k * twoPow e) (hlimit : ¬((2 ^ 53 * topUnit : Nat) : Rat) ≤ |r|) :
    ofRat r = .finite r := by
  obtain ⟨c, hc⟩ := units_of_abs hk he hr h
  have hunits : unitsOf r = c := by
    refine unitCount_eq r.den_pos ?_
    rw [natAbs_num, hc, mul_right_comm, mul_assoc]
  have hsame : rounded r = |r| := by rw [rounded, hunits, hc]
  have hcount : unitsOf r ≠ 0 := by
    intro hzero
    rw [rounded, hzero, Nat.cast_zero, zero_mul] at hsame
    exact hr (abs_eq_zero.mp hsame.symm)
  rw [ofRat_of_ne_zero hr, hsame, if_neg hlimit, if_neg hcount]
  split
  · next hneg => rw [abs_of_neg hneg, neg_neg]
  · next hneg => rw [abs_of_nonneg (not_lt.mp hneg)]

/-- **What has been rounded is not rounded again.** -/
theorem ofRat_of_rounded {q r : Rat} (h : ofRat q = .finite r) : ofRat r = .finite r := by
  by_cases hr : r = 0
  · rw [hr, ofRat_zero]
  by_cases hq : q = 0
  · rw [hq, ofRat_zero] at h
    cases h
    exact absurd rfl hr
  rw [ofRat_of_ne_zero hq] at h
  split at h
  · cases h
  · next hlimit =>
      split at h
      · unfold zero at h
        split at h
        · cases h
        · cases h
          exact absurd rfl hr
      · have habs : |r| = rounded q := by
          cases h
          exact abs_signed q
        have hexponent : -1074 ≤ exponentOf q := by
          unfold exponentOf unitExponent
          omega
        exact ofRat_of_units (unitsOf_le hq) hexponent hr habs (by rwa [habs])

theorem one_lt_topUnit : 1 < topUnit := by
  unfold topUnit
  exact one_lt_pow₀ Nat.one_lt_two (by decide)

/-- **A whole number of at most `2 ^ 53` is not rounded.** -/
theorem ofInt_of_natAbs_le {n : Int} (h : n.natAbs ≤ 2 ^ 53) : ofInt n = .finite n := by
  by_cases hn : n = 0
  · rw [hn, ofInt, Int.cast_zero, ofRat_zero]
  · have habs : |(n : Rat)| = n.natAbs := by rw [Nat.cast_natAbs, Int.cast_abs]
    refine ofRat_of_units (e := 0) h (by decide) (Int.cast_ne_zero.mpr hn) ?_ ?_
    · rw [habs, show twoPow 0 = 1 from twoPow_natCast 0, mul_one]
    · rw [habs, Nat.cast_le, not_le]
      exact lt_of_le_of_lt h (lt_mul_of_one_lt_right (by decide) one_lt_topUnit)

/-! ### Whole parts -/

theorem truncate_zero (negative : Bool) : (zero negative).truncate = .ok 0 := by
  cases negative <;> rfl

/-- The whole part is no greater than the number. -/
theorem natAbs_tdiv_le {x : Rat} {c : Nat} (h : |x| ≤ c) : (x.num.tdiv x.den).natAbs ≤ c := by
  rw [Int.natAbs_tdiv]
  refine Nat.div_le_of_le_mul ?_
  have hle : (x.num.natAbs : Rat) ≤ x.den * c := by
    rw [natAbs_num, mul_comm]
    exact mul_le_mul_of_nonneg_left h (Nat.cast_nonneg _)
  exact Nat.cast_le.mp (hle.trans_eq (Nat.cast_mul ..).symm)

/-- **The whole part of a rounded number is in range.** -/
theorem natAbs_le_greatest {q : Rat} {n : Int} (h : (ofRat q).truncate = .ok n) :
    n.natAbs ≤ greatest := by
  by_cases hq : q = 0
  · rw [hq, ofRat_zero, show (finite 0).truncate = .ok 0 from rfl] at h
    cases h
    exact Nat.zero_le _
  rw [ofRat_of_ne_zero hq] at h
  split at h
  · cases h
  · next hlimit =>
      split at h
      · rw [truncate_zero] at h
        cases h
        exact Nat.zero_le _
      · cases h
        refine natAbs_tdiv_le ?_
        rw [abs_signed]
        exact units_le_greatest (unitsOf_le hq) (not_le.mp hlimit)

theorem ofInt_ne_infinite {n : Int} (h : n.natAbs ≤ greatest) (negative : Bool) :
    ofInt n ≠ .infinite negative := by
  intro hinfinite
  by_cases hn : (n : Rat) = 0
  · rw [ofInt, hn, ofRat_zero] at hinfinite
    cases hinfinite
  · have hpos := natAbs_pos_of_ne_zero hn
    have hlt : rounded n < (2 ^ 53 * topUnit : Nat) := by
      unfold rounded unitsOf exponentOf
      rw [Rat.num_intCast] at hpos
      rw [Rat.num_intCast, Rat.den_intCast]
      exact units_lt_of_le_greatest hpos h
    rw [ofInt, ofRat_of_ne_zero hn, if_neg (not_le.mpr hlt)] at hinfinite
    split at hinfinite
    · unfold zero at hinfinite
      split at hinfinite <;> cases hinfinite
    · cases hinfinite

/-- **A whole number up to the greatest can be rounded.** -/
theorem ofIntChecked_of_le {n : Int} (h : n.natAbs ≤ greatest) : ∃ x, ofIntChecked n = .ok x := by
  unfold ofIntChecked
  split
  · next negative hinfinite => exact absurd hinfinite (ofInt_ne_infinite h negative)
  · exact ⟨_, rfl⟩

/-- A whole number is not rounded to a zero. -/
theorem unitsOf_pos {n : Int} (hn : n ≠ 0) : 0 < unitsOf n := by
  have hpos : 0 < n.natAbs := Int.natAbs_pos.mpr hn
  have hlow := (log2_bounds hpos Nat.one_pos).1
  unfold unitsOf exponentOf
  rw [Rat.num_intCast, Rat.den_intCast]
  refine le_unitCount_of_le Nat.one_pos ?_
  rw [Nat.cast_one, one_mul, one_mul]
  rw [Nat.cast_one, one_mul] at hlow
  by_cases hlog : 0 ≤ log2 n.natAbs 1
  · have hexponent : unitExponent n.natAbs 1 ≤ log2 n.natAbs 1 := by
      unfold unitExponent
      omega
    exact le_trans (twoPow_le hexponent) hlow
  · have hexponent : unitExponent n.natAbs 1 ≤ 0 := by
      unfold unitExponent
      omega
    exact le_trans (twoPow_le hexponent) (Nat.one_le_cast.mpr hpos)

/-- A whole number is rounded to no zero with a sign. -/
theorem ofInt_ne_negZero (n : Int) : ofInt n ≠ .negZero := by
  intro h
  by_cases hn : n = 0
  · rw [ofInt, hn, Int.cast_zero, ofRat_zero] at h
    cases h
  · rw [ofInt, ofRat_of_ne_zero (Int.cast_ne_zero.mpr hn)] at h
    split at h
    · cases h
    · rw [if_neg (unitsOf_pos hn).ne'] at h
      cases h

end Double

/-! ### Numbers that texts denote -/

theorem Text.natAbs_le_of_readDouble {s : String} {x : Double} {n : Int} (h : readDouble? s = some x)
    (hn : x.truncate = .ok n) : n.natAbs ≤ Double.greatest := by
  unfold readDouble? at h
  dsimp only at h
  split at h
  · -- none of the words denotes a number that has a whole part
    unfold readWord? at h
    dsimp only at h
    split at h
    · cases h
      cases hn
    · split at h
      · cases h
        cases hn
      · cases h
  · split at h
    · cases h
      unfold scaled at hn
      dsimp only at hn
      split at hn
      · rw [Double.truncate_zero] at hn
        cases hn
        exact Nat.zero_le _
      · split at hn
        · cases hn
        · exact Double.natAbs_le_greatest hn
    · cases h

/-- **The whole part of a number that a text denotes can be rounded.** -/
theorem Json.ofIntChecked_of_decimalPart {v : Json} {n : Int} (h : v.decimalPart = .ok n) :
    ∃ x, Double.ofIntChecked n = .ok x := by
  unfold decimalPart at h
  split at h
  · next x hx => exact Double.ofIntChecked_of_le (Text.natAbs_le_of_readDouble hx h)
  · cases h

end EventLayer
