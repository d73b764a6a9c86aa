/-
**What variable commands compute with whole numbers.**

Sums, differences, products and remainders of whole numbers are exact, however large the numbers are.  A
quotient is rounded to a floating-point number before it is cut off.  It is exact if it keeps its whole part,
as the quotient of a number up to `2 ^ 53` does, and where it is too large for a floating-point number the
command fails.  A command changes the variables of its range one by one, each by its own old value.

Main definitions:

* `VariableOp.IsExact` — the whole number that an operation is to give;
* `VariableOp.Fits`, `VariableOp.Keeps` — a quotient is not too large, and keeps its whole part.

Main results:

* `VariableOp.isExact_divide_iff` — the quotient, said without a division;
* `VariableOp.apply_int` — what an operation gives for whole numbers;
* `VariableOp.fits_and_keeps_of_le` — **every operation on a number up to `2 ^ 53` is exact**;
* `Play.returns_changeVariables_int` — **which variable commands are exact**.
-/
import EventLayer.Proofs.Double.WholePart
import EventLayer.Proofs.Returns
import EventLayer.Proofs.Store.Writes

set_option autoImplicit false
set_option relaxedAutoImplicit false

namespace EventLayer

namespace VariableOp

variable {op : VariableOp} {a b q r : Int}

/-- The whole number that an operation is to give.  A quotient is cut off toward zero, a remainder has the
sign of the divisor, and dividing by zero changes nothing. -/
def IsExact (op : VariableOp) (a b r : Int) : Prop :=
  match op with
  | .set => r = b
  | .add => r = a + b
  | .subtract => r = a - b
  | .multiply => r = a * b
  | .divide => if b = 0 then r = a
    else |r * b| ≤ |a| ∧ |a - r * b| < |b| ∧ (r = 0 ∨ r.sign = (a * b).sign)
  | .modulo => if b = 0 then r = a else b ∣ a - r ∧ ((0 ≤ r ∧ r < b) ∨ (b < r ∧ r ≤ 0))
  | .keep => r = a

/-- A quotient is not too large for a floating-point number. -/
def Fits (op : VariableOp) (a b : Int) : Prop :=
  op = .divide → b ≠ 0 → a.natAbs < Double.overflow * b.natAbs

/-- A quotient keeps its whole part. -/
def Keeps (op : VariableOp) (a b : Int) : Prop :=
  op = .divide → b ≠ 0 → Double.KeepsWhole a.natAbs b.natAbs

/-! ### Quotients and remainders -/

/-- The size of a quotient, said without a division. -/
theorem natAbs_eq_div (hb : b ≠ 0) (hle : |q * b| ≤ |a|) (hlt : |a - q * b| < |b|)
    (hsign : q = 0 ∨ q.sign = (a * b).sign) : q.natAbs = a.natAbs / b.natAbs := by
  -- the multiple of the divisor lies on the same side of zero as the dividend
  have hside : q * b = 0 ∨ (q * b).sign = a.sign := by
    rcases hsign with rfl | hsign
    · exact Or.inl (Int.zero_mul b)
    · refine Or.inr ?_
      have hsquare : b.sign * b.sign = 1 := by
        rcases Int.lt_or_gt_of_ne hb with hneg | hpos
        · rw [Int.sign_eq_neg_one_of_neg hneg]
          rfl
        · rw [Int.sign_eq_one_of_pos hpos]
          rfl
      rw [Int.sign_mul, hsign, Int.sign_mul, Int.mul_assoc, hsquare, Int.mul_one]
  rw [Int.abs_eq_natAbs, Int.abs_eq_natAbs] at hle hlt
  have hsame : (a - q * b).natAbs = a.natAbs - (q * b).natAbs := by
    rcases hside with hzero | hside
    · rw [hzero]
      omega
    · rcases lt_trichotomy a 0 with hneg | rfl | hpos
      · rw [Int.sign_eq_neg_one_of_neg hneg, Int.sign_eq_neg_one_iff_neg] at hside
        omega
      · omega
      · rw [Int.sign_eq_one_of_pos hpos, Int.sign_eq_one_iff_pos] at hside
        omega
  rw [hsame, Int.natAbs_mul] at hlt
  rw [Int.natAbs_mul] at hle
  have hpos := Int.natAbs_pos.2 hb
  refine (Nat.div_eq_of_lt_le ?_ ?_).symm
  · omega
  · rw [Nat.add_mul]
    omega

/-- **The quotient, said without a division.** -/
theorem isExact_divide_iff (hb : b ≠ 0) : IsExact .divide a b q ↔ q = a.tdiv b := by
  rw [IsExact, if_neg hb]
  constructor
  · rintro ⟨hle, hlt, hsign⟩
    have hsize : (a.tdiv b).natAbs = q.natAbs := by
      rw [natAbs_eq_div hb hle hlt hsign, Int.natAbs_tdiv]
      rfl
    rcases eq_or_ne q 0 with rfl | hq
    · exact (Int.natAbs_eq_zero.1 hsize).symm
    · have hsign := hsign.resolve_left hq
      have hmore : ¬a.natAbs < b.natAbs := by
        intro hless
        have hzero := natAbs_eq_div hb hle hlt (Or.inr hsign)
        rw [Nat.div_eq_of_lt hless] at hzero
        exact hq (Int.natAbs_eq_zero.1 hzero)
      have hsame : (a.tdiv b).sign = q.sign := by
        rw [Int.sign_tdiv, if_neg hmore, hsign, Int.sign_mul]
      rw [← Int.sign_mul_natAbs (a.tdiv b), hsame, hsize, Int.sign_mul_natAbs]
  · rintro rfl
    have hrest : a - a.tdiv b * b = a.tmod b := by
      have := Int.mul_tdiv_add_tmod a b
      rw [Int.mul_comm]
      omega
    refine ⟨?_, ?_, ?_⟩
    · rw [Int.abs_eq_natAbs, Int.abs_eq_natAbs, Int.natAbs_mul, Int.natAbs_tdiv]
      exact_mod_cast Nat.div_mul_le_self a.natAbs b.natAbs
    · rw [hrest, Int.abs_eq_natAbs, Int.abs_eq_natAbs, Int.natAbs_tmod]
      exact_mod_cast Nat.mod_lt _ (Int.natAbs_pos.2 hb)
    · by_cases hless : a.natAbs < b.natAbs
      · refine Or.inl (Int.natAbs_eq_zero.1 ?_)
        rw [Int.natAbs_tdiv]
        exact Nat.div_eq_of_lt hless
      · rw [Int.sign_tdiv, if_neg hless, Int.sign_mul]
        exact Or.inr rfl

/-- **The remainder has the sign of the divisor.** -/
theorem isExact_fmod (hb : b ≠ 0) : IsExact .modulo a b (a.fmod b) := by
  rw [IsExact, if_neg hb]
  refine ⟨⟨a.fdiv b, by rw [Int.fmod_def]; omega⟩, ?_⟩
  rcases Int.lt_or_gt_of_ne hb with hneg | hpos
  · have hturned := Int.neg_fmod_neg (-a) (-b)
    rw [neg_neg, neg_neg] at hturned
    have hlow := Int.fmod_nonneg_of_pos (-a) (neg_pos.2 hneg)
    have hhigh := Int.fmod_lt_of_pos (-a) (neg_pos.2 hneg)
    omega
  · exact Or.inl ⟨Int.fmod_nonneg_of_pos a hpos, Int.fmod_lt_of_pos a hpos⟩

/-! ### What an operation gives -/

/-- All operations but division are exact. -/
theorem apply_int_of_ne (h : op ≠ .divide) (a b : Int) :
    ∃ r, op.apply (.int a) (.int b) = .ok (.int r) ∧ op.IsExact a b r := by
  cases op with
  | set | add | subtract | multiply | keep => exact ⟨_, rfl, rfl⟩
  | divide => exact absurd rfl h
  | modulo =>
      by_cases hb : b = 0
      · rw [hb]
        exact ⟨a, rfl, by rw [IsExact, if_pos rfl]⟩
      · refine ⟨a.fmod b, ?_, isExact_fmod hb⟩
        rw [apply, if_pos (by simpa [Json.truthy] using hb), Json.modulo_int]

theorem apply_divide_int (hb : b ≠ 0) :
    if Double.overflow * b.natAbs ≤ a.natAbs then apply .divide (.int a) (.int b) = .error .tooLarge
    else ∃ r, apply .divide (.int a) (.int b) = .ok (.int r) ∧
      (r = a.tdiv b ↔ Double.KeepsWhole a.natAbs b.natAbs) := by
  have hquotient := Double.truncate_quotient (a := a) hb
  have happly : apply .divide (.int a) (.int b) =
      (do return .int (← (← Double.quotient a b).truncate)) := by
    rw [apply, if_pos (by simpa [Json.truthy] using hb)]
    rfl
  rw [happly]
  split
  · next hlarge =>
      rw [if_pos hlarge] at hquotient
      rw [hquotient]
      rfl
  · next hlarge =>
      rw [if_neg hlarge] at hquotient
      obtain ⟨x, z, hx, hz, hkeeps⟩ := hquotient
      refine ⟨z, ?_, hkeeps⟩
      rw [hx, Except.ok_bind, hz]
      rfl

/-- **What an operation gives for whole numbers.** -/
theorem apply_int (op : VariableOp) (a b : Int) :
    (op.Fits a b → ∃ r, op.apply (.int a) (.int b) = .ok (.int r) ∧ (op.IsExact a b r ↔ op.Keeps a b)) ∧
      (¬op.Fits a b → op.apply (.int a) (.int b) = .error .tooLarge) := by
  by_cases h : op = .divide ∧ b ≠ 0
  · obtain ⟨rfl, hb⟩ := h
    have hdivide := apply_divide_int (a := a) hb
    constructor
    · intro hfits
      rw [if_neg (not_le.2 (hfits rfl hb))] at hdivide
      obtain ⟨r, happly, hkeeps⟩ := hdivide
      refine ⟨r, happly, ?_⟩
      rw [isExact_divide_iff hb, hkeeps]
      exact ⟨fun h _ _ => h, fun h => h rfl hb⟩
    · intro hfits
      have hlarge : Double.overflow * b.natAbs ≤ a.natAbs :=
        not_lt.1 fun hlt => hfits fun _ _ => hlt
      rwa [if_pos hlarge] at hdivide
  · have hfits : op.Fits a b := fun hop hb => absurd ⟨hop, hb⟩ h
    have hkeeps : op.Keeps a b := fun hop hb => absurd ⟨hop, hb⟩ h
    refine ⟨fun _ => ?_, fun hnot => absurd hfits hnot⟩
    rcases eq_or_ne op .divide with rfl | hop
    · obtain rfl : b = 0 := not_not.1 fun hb => h ⟨rfl, hb⟩
      exact ⟨a, apply_divide_zero _, iff_of_true (by rw [IsExact, if_pos rfl]) hkeeps⟩
    · obtain ⟨r, happly, hexact⟩ := apply_int_of_ne hop a b
      exact ⟨r, happly, iff_of_true hexact hkeeps⟩

/-- **Every operation on a number up to `2 ^ 53` is exact.** -/
theorem fits_and_keeps_of_le (h : a.natAbs ≤ 2 ^ 53) (op : VariableOp) (b : Int) :
    op.Fits a b ∧ op.Keeps a b := by
  refine ⟨fun _ hb => ?_, fun _ hb => Double.keepsWhole_of_le (Int.natAbs_pos.2 hb) h⟩
  have hlt : a.natAbs < Double.overflow := Nat.cast_lt.1 (Double.natCast_lt_overflow h)
  exact hlt.trans_le (Nat.le_mul_of_pos_right _ (Int.natAbs_pos.2 hb))

end VariableOp

/-! ### Reading a variable that was written -/

theorem SelfKey.beq_int_iff (scope : Scope) (m n : Int) :
    (scope.key (.int m) == scope.key (.int n)) = true ↔ m = n := by
  rw [SelfKey.beq_iff]
  simp [Scope.key, SelfKey.of, SelfKey.form, Json.keyForm]

/-- Only numbers from one on can be written, and each stands for itself. -/
theorem ScopedTable.value_put (t : ScopedTable) (store : SelfStore) (scope : Scope) (id id' : Int)
    (v d : Json) : (t.put store scope id v).1.value (t.put store scope id v).2 scope (some id') d =
      if 0 < id ∧ id = id' then v else t.value store scope (some id') d := by
  by_cases hpos : 0 < id
  · rw [put, if_neg (by omega)]
    by_cases hself : t.isSelf id = true
    · rw [if_pos hself]
      simp only [value, SelfStore.value_put, SelfKey.beq_int_iff, hpos, true_and]
      by_cases hid : id = id'
      · rw [if_pos hid, if_pos hid, ← hid, if_pos hself]
      · rw [if_neg hid, if_neg hid]
    · have hother : ({ t with values := t.values.insert id v } : ScopedTable).isSelf id' = t.isSelf id' := rfl
      rw [if_neg hself]
      simp only [value, hother, OrderedMap.getD, OrderedMap.get?_insert, beq_iff_eq, hpos, true_and]
      by_cases hid : id = id'
      · rw [if_pos hid, if_pos hid, ← hid, if_neg hself]
        rfl
      · rw [if_neg hid, if_neg hid]
  · rw [put_nonpos (by omega), if_neg fun h => hpos h.1]

namespace Session

theorem variableValue_setVariable (s : Session) (id id' : Int) (v : Json) :
    (s.setVariable id v).variableValue (some id') =
      if 0 < id ∧ id = id' then v else s.variableValue (some id') :=
  ScopedTable.value_put ..

end Session

namespace Play

open Session

/-- Where nothing is named, no variable has changed. -/
theorem Writing.variableValue_eq {s t : Session} {d : Nat} {own : Scope}
    (h : Writing .idle d s.currentScope own s.stores t) (slot : SlotRef) :
    t.variableValue slot = s.variableValue slot := by
  have hvalues : ∀ id, t.stores.variableTable.values.get? id = s.stores.variableTable.values.get? id :=
    fun id => by_contra fun hne => (h.stores.variableValues id hne).2.1
  have hself : ∀ key, t.stores.selfVariables.slots.get? key = s.stores.selfVariables.slots.get? key := by
    refine fun key => by_contra fun hne => ?_
    obtain ⟨id, -, hnames, -⟩ := h.stores.selfVariables key hne
    exact hnames
  unfold variableValue Stores.variableFor
  rw [h.scope_eq]
  cases slot with
  | none => rfl
  | some id =>
      simp only [ScopedTable.value, ScopedTable.isSelf, h.stores.selfIds.2, SelfStore.value,
        OrderedMap.getD, hvalues, hself]
      rfl

theorem nodup_numbers (lo hi : Int) : (numbers lo hi).Nodup :=
  List.nodup_range.map fun i j h => by simpa using h

/-- A command has changed the variables with certain numbers by a whole number, each as exactly as its
quotient allows.  Only numbers from one on have a variable. -/
structure Computes (op : VariableOp) (b : Int) (ids : List Int) (s u : Session) : Prop where
  named : ∀ id ∈ ids, 0 < id → ∃ a r, s.variableValue (some id) = .int a ∧
    u.variableValue (some id) = .int r ∧ (op.IsExact a b r ↔ op.Keeps a b)
  others : ∀ id, ¬(0 < id ∧ id ∈ ids) → u.variableValue (some id) = s.variableValue (some id)

/-- One variable is changed, and then the rest of them. -/
theorem Computes.cons {op : VariableOp} {a b r id : Int} {ids : List Int} {s u : Session} (hid : id ∉ ids)
    (ha : s.variableValue (some id) = .int a) (hexact : op.IsExact a b r ↔ op.Keeps a b)
    (h : Computes op b ids (s.setVariable id (.int r)) u) : Computes op b (id :: ids) s u where
  named id' hmem hpos := by
    rcases List.mem_cons.1 hmem with rfl | hmem
    · refine ⟨a, r, ha, ?_, hexact⟩
      rw [h.others id' fun hin => hid hin.2, variableValue_setVariable, if_pos ⟨hpos, rfl⟩]
    · obtain ⟨a', r', ha', hr', hexact'⟩ := h.named id' hmem hpos
      rw [variableValue_setVariable, if_neg] at ha'
      · exact ⟨a', r', ha', hr', hexact'⟩
      · rintro ⟨-, rfl⟩
        exact hid hmem
  others id' hnot := by
    rw [h.others id' fun hin => hnot ⟨hin.1, List.mem_cons_of_mem _ hin.2⟩, variableValue_setVariable, if_neg]
    rintro ⟨hpos, rfl⟩
    exact hnot ⟨hpos, List.mem_cons_self⟩

/-- Each variable is changed by its own old value, whatever was written to the ones before it. -/
theorem returns_changeEach_int (op : VariableOp) (b : Int) {ids : List Int} (hids : ids.Nodup) {s : Session}
    (hold : ∀ id ∈ ids, ∃ a, s.variableValue (some id) = .int a) :
    (changeEach op (.int b) ids).Returns s
      (∀ id ∈ ids, ∀ a, s.variableValue (some id) = .int a → op.Fits a b) fun _ u =>
        Computes op b ids s u := by
  induction ids generalizing s with
  | nil =>
      have hnothing : Computes op b [] s s := ⟨List.forall_mem_nil _, fun _ _ => rfl⟩
      have hreturns : (pure () : Play Unit).Returns s True fun _ u => Computes op b [] s u :=
        returns_of_ok rfl hnothing
      exact hreturns.iff (iff_of_true trivial (List.forall_mem_nil _))
  | cons id rest ih =>
      obtain ⟨hnotin, hrest⟩ := List.nodup_cons.1 hids
      obtain ⟨⟨a, ha⟩, hold⟩ := List.forall_mem_cons.1 hold
      have hother : ∀ id' ∈ rest, ∀ v,
          (s.setVariable id v).variableValue (some id') = s.variableValue (some id') := by
        intro id' hid' v
        rw [variableValue_setVariable, if_neg]
        rintro ⟨-, rfl⟩
        exact hnotin hid'
      have hblank : (Json.int a).orElse (.int 0) = .int a := by
        unfold Json.orElse
        split
        · rfl
        · next h => rw [show a = 0 by simpa [Json.truthy] using h]
      obtain ⟨hfits, hlarge⟩ := op.apply_int a b
      have hcondition :
          (op.Fits a b ∧ ∀ id' ∈ rest, ∀ a', s.variableValue (some id') = .int a' → op.Fits a' b) ↔
          ∀ id' ∈ id :: rest, ∀ a', s.variableValue (some id') = .int a' → op.Fits a' b := by
        rw [List.forall_mem_cons, ha]
        refine and_congr_left fun _ => ⟨fun h a' ha' => ?_, fun h => h a rfl⟩
        rwa [← Json.int.inj ha']
      refine Returns.iff (returns_getBind ?_) hcondition
      rw [ha, hblank]
      by_cases hfit : op.Fits a b
      · obtain ⟨r, happly, hexact⟩ := hfits hfit
        have hwrite : (modify (setVariable id (.int r)) : Play PUnit) s =
            .ok ⟨⟩ (s.setVariable id (.int r)) := rfl
        have hthen := ih (s := s.setVariable id (.int r)) hrest fun id' hid' => by
          rw [hother id' hid']
          exact hold id' hid'
        refine ((returns_exceptBind happly (returns_bind_of_ok hwrite hthen)).mono ?_).iff ?_
        · exact fun _ u hu => hu.cons hnotin ha hexact
        · rw [and_iff_right hfit]
          exact forall₂_congr fun id' hid' => by rw [hother id' hid']
      · refine ⟨fun h => absurd h.1 hfit, fun _ => ⟨.tooLarge, s, ?_⟩⟩
        rw [hlarge hfit]
        rfl

/-- **Which variable commands are exact.**  A command whose operand comes to a whole number, and whose
variables hold whole numbers, comes to an end exactly if no quotient is too large, and then each variable is
exact exactly if its quotient keeps its whole part. -/
theorem returns_changeVariables_int {s t : Session} {lo hi b : Int} {first last : Json}
    (d : Nat) (op : VariableOp) {source : VariableSource} (hfirst : rangeBound first = .ok lo)
    (hlast : rangeBound last = .ok hi) (hsource : sourceValue source s = .ok (.int b) t)
    (hold : ∀ id ∈ numbers lo hi, ∃ a, s.variableValue (some id) = .int a) :
    (carryOutPlain d (.changeVariables first last op source)).Returns s
      (∀ id ∈ numbers lo hi, ∀ a, s.variableValue (some id) = .int a → op.Fits a b) fun _ u =>
        Computes op b (numbers lo hi) s u := by
  have hsame : ∀ slot, t.variableValue slot = s.variableValue slot := by
    have hwriting := (preserves_sourceValue_writing (i := .idle) (d := d) source).of_ok
      ⟨.refl .idle s.currentScope (s.resolve d) s.stores, rfl, rfl⟩ hsource
    exact hwriting.variableValue_eq
  have hcomputes := returns_changeEach_int op b (nodup_numbers lo hi) (s := t) fun id hid => by
    rw [hsame]
    exact hold id hid
  simp only [hsame] at hcomputes
  refine returns_bind_of_ok hsource (returns_exceptBind hfirst (returns_exceptBind hlast ?_))
  refine Returns.first hcomputes fun _ u hu => returns_of_ok rfl ?_
  exact ⟨fun id hid hpos => hsame (some id) ▸ hu.named id hid hpos,
    fun id hnot => (hu.others id hnot).trans (hsame (some id))⟩

/-! ### Two variables -/

/-- A game where the first two variables hold whole numbers. -/
def holding (m n : Int) : Session := ((Session.begin {} {}).setVariable 1 (.int m)).setVariable 2 (.int n)

/-- The command that divides both of them. -/
def divideBoth (b : Int) : Play Unit :=
  carryOutPlain 0 (.changeVariables (.int 1) (.int 2) .divide (.operand (.constant (.int b))))

/-- Small numbers are divided exactly. -/
theorem returns_divideBoth_small : (divideBoth (-2)).Returns (holding 7 0)
    (∀ id ∈ numbers 1 2, ∀ a, (holding 7 0).variableValue (some id) = .int a → VariableOp.divide.Fits a (-2))
    fun _ u => Computes .divide (-2) (numbers 1 2) (holding 7 0) u :=
  returns_changeVariables_int 0 .divide rfl rfl rfl fun id hid => by
    have hid' := mem_numbers hid
    obtain rfl | rfl : id = 1 ∨ id = 2 := by omega
    · exact ⟨7, rfl⟩
    · exact ⟨0, rfl⟩

/-- A third of `10 ^ 17` is rounded down, although no quotient is too large; and a third of `2 ^ 1026` is too
large. -/
theorem not_exact_divideBoth :
    (divideBoth 3).succeeds (holding 100000000000000000 9) = true ∧
    (((divideBoth 3).after (holding 100000000000000000 9)).variableValue (some 1)).whole? =
      some 33333333333333332 ∧
    ¬VariableOp.divide.IsExact 100000000000000000 3 33333333333333332 ∧
    (divideBoth 3).succeeds (holding ((2 ^ 1026 : Nat) : Int) 9) = false := by
  refine ⟨by decide +kernel, by decide +kernel, ?_, by decide +kernel⟩
  rw [VariableOp.isExact_divide_iff (by decide)]
  decide +kernel

end Play

end EventLayer
