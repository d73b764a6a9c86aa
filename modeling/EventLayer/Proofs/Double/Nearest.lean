/-
**Rounding keeps the order.**

Whether a quotient comes to at least so many units in the last place can be told from the quotient: it has
to be no more than half a unit below, and exactly half a unit only where the count is even.  So a greater
number comes to at least as many units of the same size, and if its units are larger it is beyond every
number with smaller ones.  A number is rounded to an infinity from half a unit below `2 ^ 1024` on.

Main definitions:

* `Double.overflow` — the least number that is rounded to an infinity;
* `Double.nearest` — what a number is rounded to, while it is less.

Main results:

* `Double.le_unitsOf_iff` — how many units a number comes to;
* `Double.rounded_mono`, `Double.nearest_mono` — **rounding keeps the order**;
* `Double.ofRat_eq_infinite_iff` — **which numbers are rounded to an infinity**;
* `Double.nearest_intCast` — **a whole number of at most `2 ^ 53` is not rounded**.
-/
import EventLayer.Proofs.Double.Rounding
import Mathlib.Tactic.Linarith
import Mathlib.Tactic.Ring

set_option autoImplicit false
set_option relaxedAutoImplicit false

namespace EventLayer

namespace Double

variable {num den c : Nat} {p q : Rat} {e k : Int}

/-! ### How many units a number comes to -/

/-- A quotient is rounded to at least a whole number if it is no more than one half below it, and exactly
one half only if the whole number is even. -/
theorem le_roundEven_iff (hden : 0 < den) : c ≤ roundEven num den ↔
    2 * (c * den) < 2 * num + den ∨ (2 * (c * den) = 2 * num + den ∧ c % 2 = 0) := by
  have hsplit : num / den * den + num % den = num := Nat.div_add_mod' num den
  have hmod := Nat.mod_lt num hden
  rcases Nat.lt_trichotomy c (num / den + 1) with hless | rfl | hmore
  · have hbelow : c * den ≤ num / den * den := Nat.mul_le_mul_right _ (by omega)
    refine iff_of_true ?_ (Or.inl (by omega))
    refine le_roundEven hden (by omega)
  · rw [Nat.add_mul, Nat.one_mul]
    unfold roundEven
    grind
  · have habove : (num / den + 2) * den ≤ c * den := Nat.mul_le_mul_right _ hmore
    rw [Nat.add_mul] at habove
    have hle : roundEven num den ≤ num / den + 1 :=
      roundEven_le hden (by rw [Nat.add_mul]; omega)
    refine iff_of_false (by omega) ?_
    omega

/-- The same for a number of units of a given size. -/
theorem le_unitCount_iff (hden : 0 < den) (e : Int) : c ≤ unitCount num den e ↔
    2 * (c * (den * twoPow e)) < 2 * num + den * twoPow e ∨
      (2 * (c * (den * twoPow e)) = 2 * num + den * twoPow e ∧ c % 2 = 0) := by
  obtain ⟨a, b, hb, hcount, hsame⟩ := unitCount_spec num hden e
  have hunit : (0 : Rat) < den * twoPow e := mul_pos (Nat.cast_pos.mpr hden) (twoPow_pos e)
  have hb' : (0 : Rat) < b := Nat.cast_pos.mpr hb
  generalize (den : Rat) * twoPow e = unit at hsame hunit
  -- both sides of the comparison are the same multiple of those of the quotient that is rounded
  have hleft : ((2 * (c * b) : Nat) : Rat) * unit = 2 * (c * unit) * b := by
    push_cast
    ring
  have hright : ((2 * a + b : Nat) : Rat) * unit = (2 * num + unit) * b := by
    push_cast
    rw [add_mul, mul_assoc, hsame]
    ring
  have hlt : 2 * (c * b) < 2 * a + b ↔ 2 * (c * unit) < 2 * num + unit := by
    rw [← mul_lt_mul_iff_left₀ hb', ← hleft, ← hright, mul_lt_mul_iff_left₀ hunit, Nat.cast_lt]
  have heq : 2 * (c * b) = 2 * a + b ↔ 2 * (c * unit) = 2 * num + unit := by
    rw [← mul_left_inj' hb'.ne', ← hleft, ← hright, mul_left_inj' hunit.ne', Nat.cast_inj]
  rw [hcount, le_roundEven_iff hb, hlt, heq]

/-- **How many units a number comes to.** -/
theorem le_unitsOf_iff (q : Rat) : c ≤ unitsOf q ↔
    2 * (c * twoPow (exponentOf q)) < 2 * |q| + twoPow (exponentOf q) ∨
      (2 * (c * twoPow (exponentOf q)) = 2 * |q| + twoPow (exponentOf q) ∧ c % 2 = 0) := by
  have hden : (0 : Rat) < q.den := Nat.cast_pos.mpr q.den_pos
  generalize hunit : twoPow (exponentOf q) = unit
  have hleft : 2 * ((c : Rat) * (q.den * unit)) = 2 * (c * unit) * q.den := by ring
  have hright : 2 * (q.num.natAbs : Rat) + q.den * unit = (2 * |q| + unit) * q.den := by
    rw [natAbs_num]
    ring
  rw [unitsOf, le_unitCount_iff q.den_pos, hunit, hleft, hright, mul_lt_mul_iff_left₀ hden,
    mul_left_inj' hden.ne']

/-! ### The size of a unit -/

theorem twoPow_lt_iff {a b : Int} : twoPow a < twoPow b ↔ a < b := by
  rw [twoPow_eq_zpow, twoPow_eq_zpow]
  exact zpow_lt_zpow_iff_right₀ (by norm_num)

/-- A number other than zero lies between two powers of two. -/
theorem log2_bounds_abs (hq : q ≠ 0) :
    twoPow (log2 q.num.natAbs q.den) ≤ |q| ∧ |q| < twoPow (log2 q.num.natAbs q.den + 1) := by
  obtain ⟨hlow, hhigh⟩ := log2_bounds (natAbs_pos_of_ne_zero hq) q.den_pos
  have hden : (0 : Rat) < q.den := Nat.cast_pos.mpr q.den_pos
  rw [natAbs_num, mul_comm (q.den : Rat)] at hlow hhigh
  exact ⟨le_of_mul_le_mul_right hlow hden, lt_of_mul_lt_mul_right hhigh hden.le⟩

/-- The power of two that a number reaches. -/
theorem le_log2_iff (hq : q ≠ 0) : k ≤ log2 q.num.natAbs q.den ↔ twoPow k ≤ |q| := by
  obtain ⟨hlow, hhigh⟩ := log2_bounds_abs hq
  constructor
  · exact fun h => (twoPow_le h).trans hlow
  · intro h
    have := twoPow_lt_iff.1 (h.trans_lt hhigh)
    omega

theorem exponentOf_eq (hlow : twoPow k ≤ |q|) (hhigh : |q| < twoPow (k + 1)) (hk : -1022 ≤ k) :
    exponentOf q = k - 52 := by
  have hq : q ≠ 0 := abs_pos.1 ((twoPow_pos k).trans_le hlow)
  have hle := (le_log2_iff hq).2 hlow
  have hlt : ¬k + 1 ≤ log2 q.num.natAbs q.den := fun h => not_le.2 hhigh ((le_log2_iff hq).1 h)
  unfold exponentOf unitExponent
  omega

theorem exponentOf_mono (hp : p ≠ 0) (h : |p| ≤ |q|) : exponentOf p ≤ exponentOf q := by
  have hq : q ≠ 0 := abs_pos.1 ((abs_pos.2 hp).trans_le h)
  have hle := (le_log2_iff hq).2 ((log2_bounds_abs hp).1.trans h)
  unfold exponentOf unitExponent
  omega

/-- A number whose unit is not the least one comes to at least `2 ^ 52` units. -/
theorem le_unitsOf (hq : q ≠ 0) (h : -1074 < exponentOf q) : 2 ^ 52 ≤ unitsOf q := by
  refine (le_unitsOf_iff q).2 (Or.inl ?_)
  have hlow := (log2_bounds_abs hq).1
  have hlog : log2 q.num.natAbs q.den = 52 + exponentOf q := by
    unfold exponentOf unitExponent at h ⊢
    omega
  rw [hlog, twoPow_add, show (52 : Int) = (52 : Nat) from rfl, twoPow_natCast] at hlow
  have hunit := twoPow_pos (exponentOf q)
  linarith

/-! ### Rounding keeps the order -/

@[simp] theorem rounded_zero : rounded 0 = 0 := by
  have hzero : unitsOf 0 = 0 := by
    by_contra h
    have hone := (le_unitsOf_iff (c := 1) 0).1 (Nat.one_le_iff_ne_zero.2 h)
    have hunit := twoPow_pos (exponentOf 0)
    rw [abs_zero, mul_zero, zero_add, Nat.cast_one, one_mul] at hone
    rcases hone with hone | ⟨hone, -⟩ <;> linarith
  rw [rounded, hzero, Nat.cast_zero, zero_mul]

@[simp] theorem rounded_neg (q : Rat) : rounded (-q) = rounded q := by
  unfold rounded unitsOf exponentOf
  rw [Rat.num_neg_eq_neg_num, Rat.den_neg_eq_den, Int.natAbs_neg]

@[simp] theorem rounded_abs (q : Rat) : rounded |q| = rounded q := by
  rcases abs_choice q with h | h <;> rw [h]
  exact rounded_neg q

/-- **A greater magnitude is not rounded to less.** -/
theorem rounded_mono (h : |p| ≤ |q|) : rounded p ≤ rounded q := by
  by_cases hp : p = 0
  · rw [hp, rounded_zero]
    exact rounded_nonneg q
  have hq : q ≠ 0 := abs_pos.1 ((abs_pos.2 hp).trans_le h)
  rcases (exponentOf_mono hp h).lt_or_eq with hlt | hsame
  · -- the units of the greater number are larger, and it comes to many of them
    have hleast : -1074 ≤ exponentOf p := by
      unfold exponentOf unitExponent
      omega
    have hmany : ((2 ^ 52 : Nat) : Rat) ≤ unitsOf q :=
      Nat.cast_le.2 (le_unitsOf hq (by omega))
    calc rounded p ≤ (2 ^ 53 : Nat) * twoPow (exponentOf p) :=
          mul_le_mul_of_nonneg_right (Nat.cast_le.2 (unitsOf_le hp)) (twoPow_pos _).le
      _ = twoPow (53 + exponentOf p) := by rw [twoPow_add, ← twoPow_natCast]; rfl
      _ ≤ twoPow (52 + exponentOf q) := twoPow_le (by omega)
      _ = (2 ^ 52 : Nat) * twoPow (exponentOf q) := by rw [twoPow_add, ← twoPow_natCast]; rfl
      _ ≤ rounded q := mul_le_mul_of_nonneg_right hmany (twoPow_pos _).le
  · have hunits : unitsOf p ≤ unitsOf q := by
      rw [le_unitsOf_iff, ← hsame]
      rcases (le_unitsOf_iff p).1 le_rfl with hless | ⟨heq, heven⟩
      · exact Or.inl (by linarith)
      · rcases h.lt_or_eq with hlt | habs
        · exact Or.inl (by linarith)
        · exact Or.inr ⟨by linarith, heven⟩
    rw [rounded, rounded, hsame]
    exact mul_le_mul_of_nonneg_right (Nat.cast_le.2 hunits) (twoPow_pos _).le

/-- What a number is rounded to. -/
def nearest (q : Rat) : Rat := if q < 0 then -rounded q else rounded q

theorem abs_nearest (q : Rat) : |nearest q| = rounded q := abs_signed q

/-- **Rounding keeps the order.** -/
theorem nearest_mono (h : p ≤ q) : nearest p ≤ nearest q := by
  unfold nearest
  split
  · next hp =>
      split
      · next hq =>
          refine neg_le_neg (rounded_mono ?_)
          rw [abs_of_neg hp, abs_of_neg hq]
          exact neg_le_neg h
      · exact (neg_nonpos.2 (rounded_nonneg p)).trans (rounded_nonneg q)
  · next hp =>
      have hp : 0 ≤ p := not_lt.1 hp
      rw [if_neg (not_lt.2 (hp.trans h))]
      refine rounded_mono ?_
      rwa [abs_of_nonneg hp, abs_of_nonneg (hp.trans h)]

/-! ### Numbers that are too large -/

/-- The least number that is rounded to an infinity. -/
@[irreducible] def overflow : Nat := (2 ^ 54 - 1) * 2 ^ 970

theorem twoPow_le_overflow : twoPow 1023 ≤ overflow := by
  unfold overflow
  rw [show (1023 : Int) = (53 : Nat) + (970 : Nat) from rfl, twoPow_add, twoPow_natCast, twoPow_natCast,
    ← Nat.cast_mul]
  exact Nat.cast_le.2 (Nat.mul_le_mul_right _ (by decide))

theorem two_mul_overflow : 2 * (overflow : Rat) = 2 * ((2 ^ 53 : Nat) * topUnit) - topUnit := by
  have hoverflow : (overflow : Rat) = (2 ^ 54 - 1 : Nat) * twoPow 970 := by
    unfold overflow
    rw [Nat.cast_mul, show (970 : Int) = (970 : Nat) from rfl, twoPow_natCast]
  have htop : (topUnit : Rat) = 2 * twoPow 970 := by
    rw [← twoPow_top, show (971 : Int) = (1 : Nat) + 970 from rfl, twoPow_add, twoPow_natCast]
    rfl
  rw [hoverflow, htop]
  push_cast
  ring

theorem limit_eq_twoPow : ((2 ^ 53 * topUnit : Nat) : Rat) = twoPow 1024 := by
  rw [show (1024 : Int) = (53 : Nat) + 971 from rfl, twoPow_add, twoPow_top, twoPow_natCast, Nat.cast_mul]

/-- Below `2 ^ 1023` a magnitude comes to too few units, or its units are too small. -/
theorem rounded_lt_limit (h : |q| < twoPow 1023) : rounded q < (2 ^ 53 * topUnit : Nat) := by
  by_cases hq : q = 0
  · rw [hq, rounded_zero, limit_eq_twoPow]
    exact twoPow_pos _
  have hlog : ¬1023 ≤ log2 q.num.natAbs q.den := fun hle => not_le.2 h ((le_log2_iff hq).1 hle)
  have hexponent : exponentOf q ≤ 970 := by
    unfold exponentOf unitExponent
    omega
  exact (smallUnits_le_greatest (unitsOf_le hq) hexponent).trans_lt (Nat.cast_lt.2 greatest_lt)

/-- A magnitude from `2 ^ 1024` on comes to many units that are too large. -/
theorem limit_le_rounded (h : twoPow 1024 ≤ |q|) : ((2 ^ 53 * topUnit : Nat) : Rat) ≤ rounded q := by
  have hq : q ≠ 0 := abs_pos.1 ((twoPow_pos _).trans_le h)
  have hlog := (le_log2_iff hq).2 h
  have hexponent : 972 ≤ exponentOf q := by
    unfold exponentOf unitExponent
    omega
  calc ((2 ^ 53 * topUnit : Nat) : Rat) = twoPow (52 + 972) := limit_eq_twoPow
    _ = (2 ^ 52 : Nat) * twoPow 972 := by rw [twoPow_add, ← twoPow_natCast]; rfl
    _ ≤ unitsOf q * twoPow (exponentOf q) :=
        mul_le_mul (Nat.cast_le.2 (le_unitsOf hq (by omega))) (twoPow_le hexponent) (twoPow_pos _).le
          (Nat.cast_nonneg _)

/-- **From half a unit below `2 ^ 1024` on a magnitude is rounded to that or to more.** -/
theorem limit_le_rounded_iff (q : Rat) :
    ((2 ^ 53 * topUnit : Nat) : Rat) ≤ rounded q ↔ (overflow : Rat) ≤ |q| := by
  have hdouble := two_mul_overflow
  rcases lt_or_ge |q| (twoPow 1023) with hlow | hlow
  · exact iff_of_false (not_le.2 (rounded_lt_limit hlow)) (not_le.2 (hlow.trans_le twoPow_le_overflow))
  rcases lt_or_ge |q| (twoPow 1024) with hhigh | hhigh
  · -- only here does it matter how the number is rounded
    have hexponent : exponentOf q = 971 := exponentOf_eq hlow hhigh (by decide)
    have hunits := le_unitsOf_iff (c := 2 ^ 53) q
    rw [hexponent, twoPow_top] at hunits
    rw [rounded, hexponent, twoPow_top, ← Nat.cast_mul, Nat.cast_le,
      Nat.mul_le_mul_right_iff topUnit_pos, hunits]
    constructor
    · rintro (hlt | ⟨heq, -⟩) <;> linarith
    · intro hle
      rcases hle.lt_or_eq with hlt | heq
      · exact Or.inl (by linarith)
      · exact Or.inr ⟨by linarith, by decide⟩
  · have hpos : (0 : Rat) < topUnit := Nat.cast_pos.2 topUnit_pos
    have hlimit := limit_eq_twoPow
    rw [Nat.cast_mul] at hlimit
    exact iff_of_true (limit_le_rounded hhigh) (by linarith)

/-- **Which numbers are rounded to an infinity.** -/
theorem ofRat_eq_infinite_iff {negative : Bool} :
    ofRat q = .infinite negative ↔ (overflow : Rat) ≤ |q| ∧ negative = decide (q < 0) := by
  have hpos : (0 : Rat) < overflow := (twoPow_pos 1023).trans_le twoPow_le_overflow
  by_cases hq : q = 0
  · rw [hq, ofRat_zero, abs_zero]
    exact iff_of_false nofun fun h => not_le.2 hpos h.1
  rw [ofRat_of_ne_zero hq]
  by_cases hlimit : ((2 ^ 53 * topUnit : Nat) : Rat) ≤ rounded q
  · rw [if_pos hlimit, infinite.injEq, and_iff_right ((limit_le_rounded_iff q).1 hlimit)]
    exact eq_comm
  · rw [if_neg hlimit]
    refine iff_of_false (fun h => ?_) fun h => hlimit ((limit_le_rounded_iff q).2 h.1)
    unfold zero at h
    split at h
    · split at h <;> cases h
    · cases h

/-- What other numbers are rounded to. -/
theorem toRat?_ofRat (h : |q| < overflow) : (ofRat q).toRat? = some (nearest q) := by
  by_cases hq : q = 0
  · rw [hq, ofRat_zero, nearest, if_neg (lt_irrefl 0), rounded_zero]
    rfl
  have hlimit := mt (limit_le_rounded_iff q).1 (not_le.2 h)
  rw [ofRat_of_ne_zero hq, if_neg hlimit]
  split
  · next hunits =>
      have hzero : rounded q = 0 := by rw [rounded, hunits, Nat.cast_zero, zero_mul]
      have hnearest : nearest q = 0 := abs_eq_zero.1 ((abs_nearest q).trans hzero)
      rw [hnearest]
      unfold zero
      split <;> rfl
  · rfl

theorem compare?_of_toRat? {x y : Double} {a b : Rat} (hx : x.toRat? = some a) (hy : y.toRat? = some b) :
    compare? x y = some (if a < b then .lt else if a = b then .eq else .gt) := by
  cases x <;> cases y <;> cases hx <;> cases hy <;> rfl

theorem natCast_lt_overflow (h : c ≤ 2 ^ 53) : (c : Rat) < overflow := by
  calc (c : Rat) ≤ (2 ^ 53 : Nat) := Nat.cast_le.2 h
    _ = twoPow 53 := (twoPow_natCast 53).symm
    _ < twoPow 1023 := twoPow_lt_iff.2 (by decide)
    _ ≤ overflow := twoPow_le_overflow

/-- **A whole number of at most `2 ^ 53` is not rounded.** -/
theorem nearest_intCast {n : Int} (h : n.natAbs ≤ 2 ^ 53) : nearest n = n := by
  have hlt : |(n : Rat)| < overflow := by
    rw [← Int.cast_abs, ← Nat.cast_natAbs]
    exact natCast_lt_overflow h
  have hnearest := toRat?_ofRat hlt
  rw [show ofRat n = .finite n from ofInt_of_natAbs_le h] at hnearest
  exact (Option.some.inj hnearest).symm

end Double

end EventLayer
