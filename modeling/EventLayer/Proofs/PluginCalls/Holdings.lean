/-
**What the party holds.**

The party's gold and its counts of things are whole numbers, or fractions that have been rounded.  To add
a zero to them changes nothing.  An amount that a text denotes can always be added, and an amount of zero
leaves whatever is within its limits.

Main definitions:

* `Json.Number.IsHeld`, `Party.IsHeld` — numbers that a party can hold, and a party that holds such;
* `Party.SameWithin` — parties that hold the same, as far as it is within its limits.

Main results:

* `Session.Reachable.isHeld` — **the party of every reachable session holds such numbers**;
* `Party.exists_gainOf`, `Party.exists_gainGold` — what is in range can be given;
* `Party.sameWithin_gainOf_zero`, `Party.sameWithin_gainGold_zero` — **to give nothing changes nothing**.
-/
import EventLayer.Proofs.Double.Rounding
import EventLayer.Proofs.Saving.Tidy

set_option autoImplicit false
set_option relaxedAutoImplicit false

namespace EventLayer

/-! ### Numbers -/

namespace Double

/-- A number that is finite has been rounded. -/
def IsRounded (x : Double) : Prop := ∀ q, x = .finite q → ofRat q = .finite q

theorem isRounded_ofRat (q : Rat) : (ofRat q).IsRounded := fun _ h => ofRat_of_rounded h

theorem isRounded_infinite (negative : Bool) : (infinite negative).IsRounded := nofun

theorem isRounded_nan : nan.IsRounded := nofun

/-- A sum has been rounded, if its first part has been and is no zero with a sign. -/
theorem isRounded_add {x : Double} (hx : x.IsRounded) (hzero : x ≠ .negZero) (y : Double) :
    (x + y).IsRounded := by
  change (add x y).IsRounded
  cases x with
  | nan => exact isRounded_nan
  | negZero => exact absurd rfl hzero
  | infinite a =>
      cases y with
      | nan => exact isRounded_nan
      | infinite b =>
          change (if a = b then infinite a else nan).IsRounded
          split
          · exact isRounded_infinite a
          · exact isRounded_nan
      | negZero => exact isRounded_infinite a
      | finite b => exact isRounded_infinite a
  | finite a =>
      cases y with
      | nan => exact isRounded_nan
      | infinite b => exact isRounded_infinite b
      | negZero => exact hx
      | finite b => exact isRounded_ofRat (a + b)

/-- A number greater than zero is neither zero. -/
theorem isNonzero_of_zero_less {x : Double} (h : compare? (.finite 0) x = some .lt) :
    x.isNonzero = true := by
  cases x with
  | nan => cases h
  | infinite negative => cases negative <;> rfl
  | negZero => cases h
  | finite q =>
      have hpos : 0 < q := by
        have hlt : (if 0 < q then Ordering.lt else if 0 = q then .eq else .gt) = .lt :=
          Option.some.inj h
        by_contra hq
        rw [if_neg hq] at hlt
        split at hlt <;> cases hlt
      simp [isNonzero, sameValue, compare?, toRat?, not_lt.mpr hpos.le, hpos.ne']

end Double

namespace Json.Number

/-- A number that a party can hold: a whole one, or a fraction that has been rounded. -/
def IsHeld (n : Number) : Prop := ∀ x, n = .float x → ∃ q, x = .finite q ∧ Double.ofRat q = .finite q

variable {a b n : Number}

theorem isHeld_int (m : Int) : (Number.int m).IsHeld := nofun

/-! ### Sums -/

/-- As a floating-point number it has been rounded as well. -/
theorem IsHeld.toDouble (h : a.IsHeld) {x : Double} (hx : a.toDouble = .ok x) :
    x.IsRounded ∧ x ≠ .negZero := by
  cases a with
  | int m =>
      have hround : x = Double.ofInt m := by
        change Double.ofIntChecked m = .ok x at hx
        unfold Double.ofIntChecked at hx
        split at hx
        · cases hx
        · cases hx
          rfl
      rw [hround]
      exact ⟨Double.isRounded_ofRat m, Double.ofInt_ne_negZero m⟩
  | float y =>
      cases hx
      obtain ⟨q, rfl, hq⟩ := h _ rfl
      refine ⟨?_, nofun⟩
      rintro _ ⟨⟩
      exact hq

/-- A sum of floating-point numbers. -/
theorem plus_of_not_int (h : ¬∃ k m, a = .int k ∧ b = .int m) :
    a.plus b = (do return .float ((← a.toDouble) + (← b.toDouble)) : Except Fault Number) := by
  cases a with
  | int k =>
      cases b with
      | int m => exact absurd ⟨k, m, rfl, rfl⟩ h
      | float y => rfl
  | float x => rfl

/-- A sum is whole or has been rounded. -/
theorem IsHeld.plus (h : a.IsHeld) (hn : a.plus b = .ok n) {x : Double} (hx : n = .float x) :
    x.IsRounded := by
  subst hx
  by_cases hint : ∃ k m, a = .int k ∧ b = .int m
  · obtain ⟨k, m, rfl, rfl⟩ := hint
    cases hn
  · rw [plus_of_not_int hint] at hn
    obtain ⟨y, hy, hn⟩ := Except.bind_eq_ok hn
    obtain ⟨z, -, hn⟩ := Except.bind_eq_ok hn
    cases hn
    obtain ⟨hrounded, hzero⟩ := h.toDouble hy
    exact Double.isRounded_add hrounded hzero z

/-- **To add a zero changes nothing.** -/
theorem IsHeld.plus_zero (h : a.IsHeld) : a.plus (.int 0) = .ok a := by
  cases a with
  | int m => rw [plus_int, Int.add_zero]
  | float x =>
      obtain ⟨q, rfl, hq⟩ := h x rfl
      have hzero : (Number.int 0).toDouble = .ok (.finite 0) := by
        simp [Number.toDouble, Double.ofIntChecked, Double.ofInt]
      have hsum : (Double.finite q) + (.finite 0) = .finite q := by
        change Double.ofRat (q + 0) = .finite q
        rw [add_zero, hq]
      rw [plus_of_not_int (by simp), hzero]
      change Except.ok (Number.float (Double.finite q + .finite 0)) = _
      rw [hsum]

/-- What is in range can be added. -/
theorem exists_plus {m : Int} (a : Number) (h : ∃ x, Double.ofIntChecked m = .ok x) :
    ∃ n, a.plus (.int m) = .ok n := by
  obtain ⟨x, hx⟩ := h
  cases a with
  | int k => exact ⟨_, plus_int k m⟩
  | float y =>
      refine ⟨.float (y + x), ?_⟩
      rw [plus_of_not_int (by simp), show (Number.int m).toDouble = .ok x from hx]
      rfl

/-! ### Limits -/

/-- A number greater than zero counts as given. -/
theorem truthy_of_zero_below (h : (Number.int 0).below n = true) : n.toJson.truthy = true := by
  cases n with
  | int m =>
      rw [below_int, decide_eq_true_eq] at h
      exact bne_iff_ne.mpr h.ne'
  | float x => exact Double.isNonzero_of_zero_less (by simpa [below, compare?] using h)

end Json.Number

/-! ### Parties -/

namespace Party

open Json (Number)

variable {p q : Party} {n : Number} {limit : Int}

/-- What a limit leaves is one of the limits, or a number between them. -/
theorem clamp_cases (limit : Int) (n : Number) :
    clamp limit n = .int 0 ∨ clamp limit n = .int limit ∨
      (clamp limit n = n ∧ (Number.int 0).below n = true ∧ (Number.int limit).below n = false) := by
  unfold clamp Number.larger Number.smaller
  by_cases hlimit : (Number.int limit).below n = true
  · rw [if_pos hlimit]
    split
    · exact Or.inr (Or.inl rfl)
    · exact Or.inl rfl
  · rw [if_neg hlimit]
    split
    · next hpos => exact Or.inr (Or.inr ⟨rfl, hpos, Bool.eq_false_iff.mpr hlimit⟩)
    · exact Or.inl rfl

/-- What a limit leaves of a rounded number can be held. -/
theorem isHeld_clamp (limit : Int) (h : ∀ x, n = .float x → x.IsRounded) : (clamp limit n).IsHeld := by
  rcases clamp_cases limit n with hzero | hlimit | ⟨hsame, hpos, hle⟩
  · rw [hzero]
    exact Number.isHeld_int 0
  · rw [hlimit]
    exact Number.isHeld_int limit
  · rw [hsame]
    rintro x rfl
    cases x with
    | nan => cases hpos
    | negZero => cases hpos
    | infinite negative =>
        cases negative with
        | true => cases hpos
        | false => cases hle
    | finite q => exact ⟨q, rfl, h _ rfl q rfl⟩

/-- What a limit leaves is a zero or counts as given. -/
theorem truthy_clamp (hlimit : limit ≠ 0) (n : Number) :
    (clamp limit n).toJson.truthy = true ∨ clamp limit n = .int 0 := by
  rcases clamp_cases limit n with hzero | htop | ⟨hsame, hpos, -⟩
  · exact Or.inr hzero
  · rw [htop]
    exact Or.inl (bne_iff_ne.mpr hlimit)
  · rw [hsame]
    exact Or.inl (Number.truthy_of_zero_below hpos)

/-- A party that holds rounded numbers. -/
structure IsHeld (p : Party) : Prop where
  gold : p.gold.IsHeld
  counts : ∀ n ∈ p.items.values, n.IsHeld

theorem IsHeld.count (h : p.IsHeld) (key : ItemKey) : (p.count key).IsHeld := by
  unfold Party.count OrderedMap.getD
  cases hfound : p.items.get? key with
  | none => exact Number.isHeld_int 0
  | some n => exact h.counts n (OrderedMap.mem_values_of_get? hfound)

theorem IsHeld.hold (h : p.IsHeld) (key : ItemKey) (hn : n.IsHeld) : (p.hold key n).IsHeld := by
  refine ⟨h.gold, ?_⟩
  intro m hm
  unfold Party.hold at hm
  dsimp only at hm
  split at hm
  · rcases OrderedMap.mem_values_insert hm with hold | rfl
    · exact h.counts m hold
    · exact hn
  · obtain ⟨e, he, rfl⟩ := List.mem_map.mp hm
    exact h.counts _ (List.mem_map_of_mem (OrderedMap.mem_of_mem_drop he))

theorem IsHeld.gainOf {entry amount : Json} (h : p.IsHeld) (hgain : p.gainOf entry amount = .ok q) :
    q.IsHeld := by
  obtain ⟨key?, -, hgain⟩ := Except.bind_eq_ok hgain
  cases key? with
  | none =>
      cases hgain
      exact h
  | some key =>
      obtain ⟨n, -, hgain⟩ := Except.bind_eq_ok hgain
      obtain ⟨m, hm, hgain⟩ := Except.bind_eq_ok hgain
      cases hgain
      exact h.hold key (isHeld_clamp _ fun _ hx => (h.count key).plus hm hx)

theorem IsHeld.gainGold {amount : Number} (h : p.IsHeld) (hgain : p.gainGold amount = .ok q) :
    q.IsHeld := by
  obtain ⟨m, hm, hgain⟩ := Except.bind_eq_ok hgain
  cases hgain
  exact ⟨isHeld_clamp _ fun _ hx => h.gold.plus hm hx, h.counts⟩

theorem isHeld_new (members : List Json) : ({ members } : Party).IsHeld := by
  refine ⟨Number.isHeld_int 0, ?_⟩
  intro n hn
  cases hn

theorem isHeld_readRow {items more : OrderedMap ItemKey Number} {row : Json}
    (hitems : ∀ n ∈ items.values, n.IsHeld) (h : readRow items row = .ok more) :
    ∀ n ∈ more.values, n.IsHeld := by
  unfold readRow at h
  split at h
  · obtain ⟨count, -, h⟩ := Except.bind_eq_ok h
    obtain ⟨id, -, h⟩ := Except.bind_eq_ok h
    cases h
    intro n hn
    rcases OrderedMap.mem_values_insert hn with hold | rfl
    · exact hitems n hold
    · exact Number.isHeld_int count
  · cases h
    exact hitems

/-- A save holds whole numbers. -/
theorem isHeld_read {data : Json} (h : Party.read data = .ok p) : p.IsHeld := by
  obtain ⟨_, -, h⟩ := Except.bind_eq_ok h
  obtain ⟨_, -, h⟩ := Except.bind_eq_ok h
  obtain ⟨_, -, h⟩ := Except.bind_eq_ok h
  obtain ⟨gold, -, h⟩ := Except.bind_eq_ok h
  obtain ⟨_, -, h⟩ := Except.bind_eq_ok h
  obtain ⟨_, -, h⟩ := Except.bind_eq_ok h
  obtain ⟨items, hitems, h⟩ := Except.bind_eq_ok h
  cases h
  refine ⟨Number.isHeld_int gold, ?_⟩
  refine Except.foldlM_keeps (P := fun items => ∀ n ∈ items.values, n.IsHeld) ?_ ?_ hitems
  · intro _ _ _ hs
    exact isHeld_readRow hs
  · intro n hn
    cases hn

/-! ### What can be given -/

theorem exists_gainOf {entry : Json} {m : Int} (p : Party)
    (hentry : ∃ key?, ItemKey.ofEntry? entry = .ok key?) (hm : ∃ x, Double.ofIntChecked m = .ok x) :
    ∃ q, p.gainOf entry (.int m) = .ok q := by
  obtain ⟨key?, hkey⟩ := hentry
  unfold gainOf
  rw [hkey, Except.ok_bind]
  cases key? with
  | none => exact ⟨p, rfl⟩
  | some key =>
      obtain ⟨n, hn⟩ := Number.exists_plus (p.count key) hm
      refine ⟨p.hold key (clamp maxCount n), ?_⟩
      change gain p key (.int m) = _
      rw [gain, hn]
      rfl

theorem exists_gainGold {m : Int} (p : Party) (hm : ∃ x, Double.ofIntChecked m = .ok x) :
    ∃ q, p.gainGold (.int m) = .ok q := by
  obtain ⟨n, hn⟩ := Number.exists_plus p.gold hm
  rw [gainGold, hn]
  exact ⟨_, rfl⟩

/-! ### Nothing given -/

/-- A party that holds the same as another, as far as that is within its limits. -/
structure SameWithin (p q : Party) : Prop where
  members : q.members = p.members
  gold : clamp maxGold p.gold = p.gold → q.gold = p.gold
  count : ∀ key, clamp maxCount (p.count key) = p.count key → q.count key = p.count key

theorem SameWithin.refl (p : Party) : p.SameWithin p :=
  ⟨rfl, fun _ => rfl, fun _ _ => rfl⟩

theorem count_hold_of_ne {key other : ItemKey} (h : key ≠ other) (n : Number) :
    (p.hold key n).count other = p.count other := by
  have hne : (key == other) = false := beq_eq_false_iff_ne.mpr h
  unfold Party.hold Party.count OrderedMap.getD
  dsimp only
  split
  · rw [OrderedMap.get?_insert, if_neg (by simp [hne])]
  · rw [OrderedMap.get?_erase_of_ne _ hne]

/-- **To give nothing of a thing changes nothing.** -/
theorem sameWithin_gainOf_zero {entry : Json} (h : p.IsHeld) (hdistinct : p.items.Distinct)
    (hgain : p.gainOf entry (.int 0) = .ok q) : p.SameWithin q := by
  obtain ⟨key?, -, hgain⟩ := Except.bind_eq_ok hgain
  cases key? with
  | none =>
      cases hgain
      exact .refl p
  | some key =>
      change p.gain key (.int 0) = _ at hgain
      rw [gain, (h.count key).plus_zero] at hgain
      cases hgain
      refine ⟨rfl, fun _ => rfl, ?_⟩
      intro other hwithin
      by_cases hkey : key = other
      · subst hkey
        rw [count_hold_self hdistinct (truthy_clamp (by decide) _)]
        exact hwithin
      · exact count_hold_of_ne hkey _

/-- **To give no gold changes nothing.** -/
theorem sameWithin_gainGold_zero (h : p.IsHeld) (hgain : p.gainGold (.int 0) = .ok q) :
    p.SameWithin q := by
  rw [gainGold, h.gold.plus_zero] at hgain
  cases hgain
  exact ⟨rfl, id, fun _ _ => rfl⟩

end Party

/-! ### Every session -/

namespace Play

theorem enduring_isHeld : Enduring fun s => s.stores.party.IsHeld where
  aside := fun _ _ _ _ h _ => h
  setReserved := fun _ h => h
  setSwitch := fun _ _ h => h
  setVariable := fun _ _ h => h
  setSelfSwitch := fun _ _ h => h
  requestRefresh := fun h => h
  recordOrigin := fun _ _ _ h => h
  setBehavior := fun _ h => h
  gain := by
    rintro s t party hs (⟨entry, amount, hgain⟩ | ⟨amount, hgain⟩) _
    · exact hs.gainOf hgain
    · exact hs.gainGold hgain
  forceRoute := by
    intro s who route h
    cases who <;> exact h
  eraseEvent := preserves_eraseEvent (fun _ _ h => h) fun _ _ _ h => h
  onFrame := fun _ _ _ h => h
  await := fun _ _ h => h

theorem lasting_isHeld : Lasting fun s => s.stores.party.IsHeld :=
  { enduring_isHeld.sustained (fun _ h => h) fun _ h => h with
    onCharacter := by
      intro s who f _ h
      cases who <;> exact h
    onParty := fun _ _ _ h => h
    onMap := fun _ _ h => h
    commonEvents := preserves_commonEvents fun _ _ _ h => h
    clear := fun h => h
    setupInterpreter := preserves_setupInterpreter (fun _ _ h => h) fun _ _ h => h
    jump := fun _ _ h => h
    enterScopes := fun _ h => h
    setSelfVariable := fun _ _ h => h
    setMembers := fun _ h => ⟨h.gold, h.counts⟩
    newStores := fun members _ => Party.isHeld_new members
    savedStores := by
      intro s t save stores _ hread _
      obtain ⟨data, hparty⟩ := (Stores.readInPlaceOf_ofSave hread).party
      exact Party.isHeld_read hparty }

end Play

/-- **The party of every reachable session holds rounded numbers.** -/
theorem Session.Reachable.isHeld {g : Game} {s : Session} (h : Reachable g s) :
    s.stores.party.IsHeld := by
  refine h.lasting ?_ Play.lasting_isHeld
  intro draws
  exact Party.isHeld_new []

end EventLayer
