/-
**The whole part of a rounded quotient.**

A quotient of whole numbers that is rounded and then cut off keeps its whole part unless the rounding leads
past it.  Below `2 ^ 53` it can only lead up, to the next whole number, and it does where no more than half a
unit is missing to that.  From there on every rounded number is whole, so that the whole part has to be a
number of units itself.

Main definitions:

* `Double.KeepsWhole` — the whole part of a quotient is the same after rounding.

Main results:

* `Double.floor_rounded_iff` — **which quotients keep their whole part**;
* `Double.keepsWhole_of_le` — those of numbers up to `2 ^ 53` do;
* `Double.truncate_quotient` — what comes of dividing and cutting off.
-/
import EventLayer.Proofs.Double.Nearest
import Mathlib.Data.Nat.Size

set_option autoImplicit false
set_option relaxedAutoImplicit false

namespace EventLayer

namespace Double

variable {q : Rat} {n m k : Nat} {a b : Int}

/-- The whole part of a quotient is the same after rounding.  Below `2 ^ 53` more than half a unit has to
be missing to the next whole number, and from there on the whole part has to be a number of units. -/
def KeepsWhole (m k : Nat) : Prop :=
  let n := m / k
  let missing := k - m % k
  if n < 2 ^ 53 then k < missing * 2 ^ (54 - n.size) ∨ (k = 2 * missing ∧ 2 ^ 52 ≤ n ∧ n % 2 = 0)
  else 2 ^ (n.size - 53) ∣ n

instance (m k : Nat) : Decidable (KeepsWhole m k) := by
  unfold KeepsWhole
  infer_instance

/-! ### The unit of a number with a given whole part -/

theorem exponentOf_of_floor (hn : 0 < n) (hlow : (n : Rat) ≤ |q|) (hhigh : |q| < n + 1) :
    exponentOf q = (n.size : Int) - 53 := by
  have hsize : 0 < n.size := Nat.size_pos.2 hn
  have hfirst : 2 ^ (n.size - 1) ≤ n := Nat.lt_size.1 (by omega)
  have hlast : n + 1 ≤ 2 ^ n.size := Nat.lt_size_self n
  have hexponent := exponentOf_eq (q := q) (k := (n.size - 1 : Nat)) ?_ ?_ (by omega)
  · omega
  · rw [twoPow_natCast]
    exact (Nat.cast_le.2 hfirst).trans hlow
  · rw [show ((n.size - 1 : Nat) : Int) + 1 = (n.size : Nat) by omega, twoPow_natCast]
    exact hhigh.trans_le (by exact_mod_cast hlast)

/-- Below `2 ^ 53` whole numbers are numbers of units. -/
theorem units_of_size_le (h : n.size ≤ 53) :
    (((n + 1) * 2 ^ (53 - n.size) : Nat) : Rat) * twoPow ((n.size : Int) - 53) = n + 1 := by
  have hinv : ((2 ^ (53 - n.size) : Nat) : Rat) * twoPow ((n.size : Int) - 53) = 1 := by
    rw [← twoPow_natCast, ← twoPow_add, show ((53 - n.size : Nat) : Int) + (n.size - 53) = (0 : Nat) by omega,
      twoPow_natCast]
    rfl
  rw [Nat.cast_mul, mul_assoc, hinv, mul_one, Nat.cast_add, Nat.cast_one]

/-- The next whole number is reached by rounding where no more than half a unit is missing. -/
theorem rounded_lt_succ_iff (h : n.size ≤ 53) (he : exponentOf q = (n.size : Int) - 53) :
    rounded q < n + 1 ↔ twoPow ((n.size : Int) - 53) < 2 * (n + 1 - |q|) ∨
      (twoPow ((n.size : Int) - 53) = 2 * (n + 1 - |q|) ∧ n.size = 53 ∧ n % 2 = 0) := by
  have hunit := twoPow_pos ((n.size : Int) - 53)
  have hnext := units_of_size_le h
  have hodd : ((n + 1) * 2 ^ (53 - n.size)) % 2 = 0 ↔ ¬(n.size = 53 ∧ n % 2 = 0) := by
    rcases h.lt_or_eq with hlt | heq
    · obtain ⟨j, hj⟩ : ∃ j, 53 - n.size = j + 1 := ⟨52 - n.size, by omega⟩
      rw [hj, pow_succ, ← Nat.mul_assoc]
      exact iff_of_true (Nat.mul_mod_left _ 2) fun h => by omega
    · rw [heq]
      omega
  have hreaches := le_unitsOf_iff (c := (n + 1) * 2 ^ (53 - n.size)) q
  rw [he, hnext] at hreaches
  rw [rounded, he]
  generalize twoPow ((n.size : Int) - 53) = unit at hunit hnext hreaches ⊢
  have hbelow : (unitsOf q : Rat) * unit < n + 1 ↔ ¬(n + 1) * 2 ^ (53 - n.size) ≤ unitsOf q := by
    rw [← hnext, mul_lt_mul_iff_left₀ hunit, Nat.cast_lt, not_le]
  rw [hbelow, hreaches, hodd]
  rcases lt_trichotomy unit (2 * (n + 1 - |q|)) with hless | hsame | hmore
  · refine iff_of_true ?_ (Or.inl hless)
    rintro (hlt | ⟨heq, -⟩) <;> linarith
  · constructor
    · intro h
      by_contra hnot
      exact h (Or.inr ⟨by linarith, fun hevent => hnot (Or.inr ⟨hsame, hevent⟩)⟩)
    · rintro (hlt | ⟨-, heven⟩) (hlt' | ⟨-, hnot⟩)
      · linarith
      · linarith
      · linarith
      · exact hnot heven
  · refine iff_of_false (fun h => h (Or.inl (by linarith))) ?_
    rintro (hlt | ⟨heq, -⟩) <;> linarith

/-! ### A quotient and the next whole numbers -/

/-- What a quotient has beyond its whole part, and what it lacks to the next one. -/
theorem div_bounds (hk : 0 < k) : ((m / k : Nat) : Rat) ≤ |(m : Rat) / k| ∧
    (((m / k : Nat) : Rat) + 1 - |(m : Rat) / k|) * k = (k - m % k : Nat) ∧
      |(m : Rat) / k| < (m / k : Nat) + 1 := by
  have hk' : (0 : Rat) < k := Nat.cast_pos.2 hk
  have hmod := Nat.mod_lt m hk
  have hsplit : ((m / k : Nat) : Rat) * k + (m % k : Nat) = m := by
    exact_mod_cast Nat.div_add_mod' m k
  have habs : |(m : Rat) / k| = m / k := abs_of_nonneg (div_nonneg (Nat.cast_nonneg m) hk'.le)
  have hmul : (m : Rat) / k * k = m := div_mul_cancel₀ _ hk'.ne'
  have hmissing : (((m / k : Nat) : Rat) + 1 - m / k) * k = (k - m % k : Nat) := by
    rw [sub_mul, add_mul, one_mul, hmul, Nat.cast_sub hmod.le]
    linarith
  rw [habs]
  refine ⟨?_, hmissing, ?_⟩
  · rw [le_div_iff₀ hk']
    have := Nat.cast_nonneg (α := Rat) (m % k)
    linarith
  · have hpos : (0 : Rat) < (k - m % k : Nat) := Nat.cast_pos.2 (by omega)
    rw [← hmissing] at hpos
    have := (mul_pos_iff_of_pos_right hk').1 hpos
    linarith

/-- Below one half nothing is rounded to one. -/
theorem rounded_lt_one (h : |q| ≤ 1 / 2) : rounded q < 1 := by
  have habs : |(1 / 2 : Rat)| = 1 / 2 := abs_of_nonneg (by norm_num)
  have hexponent : exponentOf (1 / 2) = ((0 : Nat).size : Int) - 53 := by decide +kernel
  have hhalf : rounded (1 / 2) < ((0 : Nat) : Rat) + 1 := by
    refine (rounded_lt_succ_iff (by decide) hexponent).2 (Or.inl ?_)
    rw [habs]
    decide +kernel
  rw [Nat.cast_zero, zero_add] at hhalf
  exact (rounded_mono (h.trans_eq habs.symm)).trans_lt hhalf

/-- The unit of a quotient below `2 ^ 53` that is at least one half. -/
theorem exponentOf_div (hk : 0 < k) (h : 0 < m / k ∨ 1 / 2 ≤ |(m : Rat) / k|) :
    exponentOf ((m : Rat) / k) = ((m / k).size : Int) - 53 := by
  obtain ⟨hlow, -, hhigh⟩ := div_bounds (m := m) hk
  rcases Nat.eq_zero_or_pos (m / k) with hzero | hpos
  · rw [hzero, Nat.cast_zero, zero_add] at hhigh
    have hpower : twoPow (-1) = 1 / 2 := by decide +kernel
    have hhalf : twoPow (-1) ≤ |(m : Rat) / k| := hpower ▸ h.resolve_left (by omega)
    rw [exponentOf_eq hhalf hhigh (by decide), hzero]
    rfl
  · exact exponentOf_of_floor hpos hlow hhigh

/-- Below `2 ^ 53` a quotient keeps its whole part if rounding does not lead to the next one. -/
theorem rounded_lt_succ_of_lt (hk : 0 < k) (hn : m / k < 2 ^ 53) :
    rounded ((m : Rat) / k) < (m / k : Nat) + 1 ↔
      k < (k - m % k) * 2 ^ (54 - (m / k).size) ∨
        (k = 2 * (k - m % k) ∧ 2 ^ 52 ≤ m / k ∧ m / k % 2 = 0) := by
  obtain ⟨-, hmissing, -⟩ := div_bounds (m := m) hk
  have hk' : (0 : Rat) < k := Nat.cast_pos.2 hk
  have hsize : (m / k).size ≤ 53 := Nat.size_le.2 hn
  by_cases hsmall : 0 < m / k ∨ 1 / 2 ≤ |(m : Rat) / k|
  · -- what is missing is compared to half a unit, both as multiples of the divisor
    have hunit := twoPow_pos (((m / k).size : Int) - 53)
    have htwo : twoPow (((m / k).size : Int) - 53) * (2 ^ (54 - (m / k).size) : Nat) = 2 := by
      rw [← twoPow_natCast, ← twoPow_add,
        show ((m / k).size : Int) - 53 + (54 - (m / k).size : Nat) = (1 : Nat) by omega, twoPow_natCast]
      rfl
    have hfull : (m / k).size = 53 ↔ 2 ^ 52 ≤ m / k := by
      rw [← Nat.lt_size]
      omega
    rw [rounded_lt_succ_iff hsize (exponentOf_div hk hsmall), hfull]
    generalize twoPow (((m / k).size : Int) - 53) = unit at hunit htwo ⊢
    have hscaled : 2 * ((((m / k : Nat) : Rat) + 1 - |(m : Rat) / k|)) * k =
        unit * ((k - m % k) * 2 ^ (54 - (m / k).size) : Nat) := by
      rw [mul_assoc, hmissing, Nat.cast_mul, mul_comm ((k - m % k : Nat) : Rat), ← mul_assoc, htwo]
    have hlt : unit < 2 * (((m / k : Nat) : Rat) + 1 - |(m : Rat) / k|) ↔
        k < (k - m % k) * 2 ^ (54 - (m / k).size) := by
      rw [← mul_lt_mul_iff_left₀ hk', hscaled, mul_lt_mul_iff_right₀ hunit, Nat.cast_lt]
    have heq : unit = 2 * (((m / k : Nat) : Rat) + 1 - |(m : Rat) / k|) ↔
        k = (k - m % k) * 2 ^ (54 - (m / k).size) := by
      rw [← mul_left_inj' hk'.ne', hscaled, mul_right_inj' hunit.ne', Nat.cast_inj]
    rw [hlt, heq]
    refine or_congr_right (and_congr_left fun h => ?_)
    rw [hfull.2 h.1, show 54 - 53 = 1 from rfl, pow_one, Nat.mul_comm]
  · obtain ⟨hzero, hhalf⟩ := not_or.1 hsmall
    have hzero := Nat.eq_zero_of_not_pos hzero
    rw [hzero, Nat.cast_zero, zero_add] at hmissing ⊢
    refine iff_of_true (rounded_lt_one (not_le.1 hhalf).le) (Or.inl ?_)
    have hmore : (k : Rat) < ((k - m % k) * 2 : Nat) := by
      rw [Nat.cast_mul, ← hmissing]
      push_cast
      nlinarith
    rw [Nat.size_zero]
    exact (Nat.cast_lt.1 hmore).trans_le (Nat.mul_le_mul_left _ (by decide))

/-- From `2 ^ 53` on a quotient keeps its whole part if that is a number of units. -/
theorem floor_rounded_of_large (hk : 0 < k) (hn : 2 ^ 53 ≤ m / k) :
    ((m / k : Nat) : Rat) ≤ rounded ((m : Rat) / k) ∧ rounded ((m : Rat) / k) < (m / k : Nat) + 1 ↔
      2 ^ ((m / k).size - 53) ∣ m / k := by
  obtain ⟨hlow, -, hhigh⟩ := div_bounds (m := m) hk
  have hsize : 53 < (m / k).size := Nat.lt_size.2 hn
  have hexponent : exponentOf ((m : Rat) / k) = ((m / k).size - 53 : Nat) := by
    rw [exponentOf_of_floor (by omega) hlow hhigh]
    omega
  have hunits := fun c => le_unitsOf_iff (c := c) ((m : Rat) / k)
  rw [hexponent, twoPow_natCast] at hunits
  have htwo : 2 ≤ 2 ^ ((m / k).size - 53) := by
    refine Nat.le_self_pow ?_ 2
    omega
  rw [rounded, hexponent, twoPow_natCast, ← Nat.cast_mul]
  generalize 2 ^ ((m / k).size - 53) = unit at hunits htwo ⊢
  generalize m / k = n at hlow hhigh ⊢
  have hwhole : ((n : Rat) ≤ (unitsOf ((m : Rat) / k) * unit : Nat) ∧
      ((unitsOf ((m : Rat) / k) * unit : Nat) : Rat) < n + 1) ↔ unitsOf ((m : Rat) / k) * unit = n := by
    rw [← Nat.cast_succ, Nat.cast_le, Nat.cast_lt]
    omega
  rw [hwhole]
  constructor
  · exact fun h => ⟨_, by rw [← h, Nat.mul_comm]⟩
  · rintro ⟨c, rfl⟩
    have htwo' : (2 : Rat) ≤ unit := by exact_mod_cast htwo
    rw [Nat.cast_mul] at hlow hhigh
    have hle : c ≤ unitsOf ((m : Rat) / k) := (hunits c).2 (Or.inl (by linarith))
    have hlt : ¬c + 1 ≤ unitsOf ((m : Rat) / k) := by
      rw [hunits]
      push_cast
      rintro (hlt | ⟨heq, -⟩) <;> linarith
    rw [Nat.mul_comm, show unitsOf ((m : Rat) / k) = c by omega]

/-- **Which quotients keep their whole part.** -/
theorem floor_rounded_iff (hk : 0 < k) :
    ((m / k : Nat) : Rat) ≤ rounded ((m : Rat) / k) ∧ rounded ((m : Rat) / k) < (m / k : Nat) + 1 ↔
      KeepsWhole m k := by
  unfold KeepsWhole
  dsimp only
  split
  · next hn =>
      have hlow : ((m / k : Nat) : Rat) ≤ rounded ((m : Rat) / k) := by
        have hwhole : rounded (m / k : Nat) = (m / k : Nat) := by
          have hle : ((m / k : Nat) : Int).natAbs ≤ 2 ^ 53 := by rw [Int.natAbs_natCast]; exact hn.le
          rw [← abs_nearest, ← Int.cast_natCast, nearest_intCast hle, Int.cast_natCast]
          exact abs_of_nonneg (Nat.cast_nonneg _)
        rw [← hwhole]
        refine rounded_mono ?_
        rw [abs_of_nonneg (Nat.cast_nonneg _)]
        exact (div_bounds hk).1
      rw [and_iff_right hlow, rounded_lt_succ_of_lt hk hn]
  · next hn => exact floor_rounded_of_large hk (not_lt.1 hn)

/-- Enough is missing to the next whole number where the dividend has no more than fifty-three bits. -/
theorem lt_missing_of_le (hk : 0 < k) (hm : m ≤ 2 ^ 53) (hn : m / k < 2 ^ 53) :
    k < (k - m % k) * 2 ^ (54 - (m / k).size) := by
  have hsplit : m / k * k + m % k = m := Nat.div_add_mod' m k
  have hmod := Nat.mod_lt m hk
  rcases Nat.eq_zero_or_pos (m / k) with hzero | hpos
  · rw [hzero, Nat.zero_mul] at hsplit
    rw [hzero, Nat.size_zero]
    omega
  · have hsize : 0 < (m / k).size := Nat.size_pos.2 hpos
    have hmost : (m / k).size ≤ 53 := Nat.size_le.2 hn
    have hfirst : 2 ^ ((m / k).size - 1) ≤ m / k := Nat.lt_size.1 (by omega)
    have hproduct : 2 ^ (54 - (m / k).size) * 2 ^ ((m / k).size - 1) = 2 ^ 53 := by
      rw [← pow_add]
      congr 1
      omega
    have htwo : 2 ≤ 2 ^ (54 - (m / k).size) := Nat.le_self_pow (by omega) 2
    have hscaled : k * 2 ^ ((m / k).size - 1) ≤ m / k * k := by
      rw [Nat.mul_comm]
      exact Nat.mul_le_mul_right k hfirst
    have hle : k ≤ 2 ^ (54 - (m / k).size) := by
      refine Nat.le_of_mul_le_mul_right ?_ (Nat.two_pow_pos ((m / k).size - 1))
      omega
    rcases hle.lt_or_eq with hlt | heq
    · exact hlt.trans_le (Nat.le_mul_of_pos_left _ (by omega))
    · -- the dividend is then a multiple of the divisor, and all of the divisor is missing
      rw [← heq] at hproduct htwo ⊢
      have hrest : m % k = 0 := by omega
      rw [hrest, Nat.sub_zero]
      exact (Nat.lt_mul_iff_one_lt_left hk).2 htwo

/-- **The quotient of a number up to `2 ^ 53` keeps its whole part.** -/
theorem keepsWhole_of_le (hk : 0 < k) (hm : m ≤ 2 ^ 53) : KeepsWhole m k := by
  unfold KeepsWhole
  dsimp only
  split
  · next hn => exact Or.inl (lt_missing_of_le hk hm hn)
  · next hn =>
      have hle : m / k ≤ m := Nat.div_le_self m k
      obtain ⟨hn, -⟩ : m / k = 2 ^ 53 ∧ m = 2 ^ 53 := by omega
      rw [hn]
      decide +kernel

/-! ### Dividing and cutting off -/

theorem truncate_of_toRat? {x : Double} {r : Rat} (h : x.toRat? = some r) :
    x.truncate = .ok (r.num.tdiv r.den) := by
  cases x <;> cases h <;> rfl

/-- The whole part of a number, told by its bounds. -/
theorem natAbs_tdiv_eq_iff (r : Rat) (n : Nat) :
    (r.num.tdiv r.den).natAbs = n ↔ (n : Rat) ≤ |r| ∧ |r| < n + 1 := by
  have hden : (0 : Rat) < r.den := Nat.cast_pos.2 r.den_pos
  have hlow : n * r.den ≤ r.num.natAbs ↔ (n : Rat) ≤ |r| := by
    rw [← Nat.cast_le (α := Rat), Nat.cast_mul, natAbs_num, mul_le_mul_iff_left₀ hden]
  have hhigh : r.num.natAbs < (n + 1) * r.den ↔ |r| < n + 1 := by
    rw [← Nat.cast_lt (α := Rat), Nat.cast_mul, natAbs_num, mul_lt_mul_iff_left₀ hden, Nat.cast_succ]
  rw [Int.natAbs_tdiv, ← hlow, ← hhigh]
  change r.num.natAbs / r.den = n ↔ _
  rw [Nat.div_eq_iff r.den_pos, Nat.add_mul]
  have := r.den_pos
  omega

theorem tdiv_nonneg_of_div (h : 0 ≤ (a : Rat) / b) : 0 ≤ a.tdiv b := by
  rcases div_nonneg_iff.1 h with ⟨ha, hb⟩ | ⟨ha, hb⟩
  · exact Int.tdiv_nonneg (Int.cast_nonneg_iff.1 ha) (Int.cast_nonneg_iff.1 hb)
  · exact Int.tdiv_nonneg_of_nonpos_of_nonpos (Int.cast_nonpos.1 ha) (Int.cast_nonpos.1 hb)

theorem tdiv_nonpos_of_div (h : (a : Rat) / b ≤ 0) : a.tdiv b ≤ 0 := by
  have hneg : 0 ≤ (-a).tdiv b := tdiv_nonneg_of_div (by rw [Int.cast_neg, neg_div]; exact neg_nonneg.2 h)
  rw [Int.neg_tdiv] at hneg
  omega

theorem abs_div_intCast (a b : Int) : |(a : Rat) / b| = (a.natAbs : Rat) / b.natAbs := by
  rw [abs_div, Nat.cast_natAbs, Nat.cast_natAbs, Int.cast_abs, Int.cast_abs]

/-- The whole part of a rounded quotient has the right sign, so that its size decides. -/
theorem tdiv_nearest_eq_iff (hb : b ≠ 0) :
    (nearest ((a : Rat) / b)).num.tdiv (nearest ((a : Rat) / b)).den = a.tdiv b ↔
      KeepsWhole a.natAbs b.natAbs := by
  generalize hz : (nearest ((a : Rat) / b)).num.tdiv (nearest ((a : Rat) / b)).den = z
  have hsize : z.natAbs = (a.tdiv b).natAbs ↔ KeepsWhole a.natAbs b.natAbs := by
    rw [← hz, natAbs_tdiv_eq_iff, abs_nearest, ← rounded_abs, abs_div_intCast, Int.natAbs_tdiv]
    exact floor_rounded_iff (Int.natAbs_pos.2 hb)
  rw [← hsize]
  have hnearest : nearest 0 = 0 := nearest_intCast (n := 0) (by decide)
  have hwhole : ∀ r : Rat, r.num.tdiv r.den = z → (0 ≤ r → 0 ≤ z) ∧ (r ≤ 0 → z ≤ 0) := by
    rintro r rfl
    have hdiv : ((r.num : Int) : Rat) / ((r.den : Int) : Rat) = r := Rat.num_div_den r
    exact ⟨fun h => tdiv_nonneg_of_div (hdiv.symm ▸ h), fun h => tdiv_nonpos_of_div (hdiv.symm ▸ h)⟩
  obtain ⟨hnonneg, hnonpos⟩ := hwhole _ hz
  rcases le_total 0 ((a : Rat) / b) with h | h
  · have hle := hnonneg (hnearest ▸ nearest_mono h)
    have := tdiv_nonneg_of_div h
    omega
  · have hle := hnonpos (hnearest ▸ nearest_mono h)
    have := tdiv_nonpos_of_div h
    omega

/-- **What comes of dividing, rounding and cutting off.** -/
theorem truncate_quotient (hb : b ≠ 0) :
    if overflow * b.natAbs ≤ a.natAbs then quotient a b = .error .tooLarge
    else ∃ x z, quotient a b = .ok x ∧ x.truncate = .ok z ∧
      (z = a.tdiv b ↔ KeepsWhole a.natAbs b.natAbs) := by
  have hb' : (0 : Rat) < b.natAbs := Nat.cast_pos.2 (Int.natAbs_pos.2 hb)
  have hlarge : overflow * b.natAbs ≤ a.natAbs ↔ (overflow : Rat) ≤ |(a : Rat) / b| := by
    rw [abs_div_intCast, le_div_iff₀ hb', ← Nat.cast_mul, Nat.cast_le]
  split
  · next h =>
      unfold quotient
      rw [ofRat_eq_infinite_iff.2 ⟨hlarge.1 h, rfl⟩]
  · next h =>
      rw [hlarge] at h
      refine ⟨_, _, ?_, truncate_of_toRat? (toRat?_ofRat (not_le.1 h)), tdiv_nearest_eq_iff hb⟩
      unfold quotient
      split
      · next negative hinfinite => exact absurd (ofRat_eq_infinite_iff.1 hinfinite).1 h
      · rfl

end Double

end EventLayer
