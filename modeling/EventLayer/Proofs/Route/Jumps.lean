/-
**The jumps of a body.**

The pass over the markers of a route keeps a stack of open chains and links a chain when it is
closed.  Over the steps of a body it comes back with the stack it had, and every marker of the body
has got its jumps: to the next marker of its own chain, and to the end of it.  What carries the
induction over the tree is that the pass never finds a jump for a position twice: the positions that
a body adds lie inside it, apart from the markers of chains that are still open.

Main definitions:

* `Pairing.Pass.along` — the pass over a part of a route;
* `Pairing.Fresh`, `Pairing.Extends` — positions without jumps, and jumps that were added;
* `RouteBody.JumpsAt` — what the jumps of a body have to be.

Main results:

* `RouteBody.along_steps` — the pass over a body;
* `RouteBody.jumpsAt_ofKinds` — **the pairing of a route gives a body its jumps**.
-/
import EventLayer.Proofs.Route.Tree

set_option autoImplicit false
set_option relaxedAutoImplicit false

namespace EventLayer

/-! ### Jumps that were found -/

namespace Pairing

/-- A position for which no jump has been found. -/
def Fresh (q : Pairing) (k : Nat) : Prop := q.next.lookup k = none ∧ q.ends.lookup k = none

/-- Jumps have been added. -/
def Extends (q q' : Pairing) : Prop :=
  (∃ l, q'.next = q.next ++ l) ∧ ∃ l, q'.ends = q.ends ++ l

theorem Extends.refl (q : Pairing) : q.Extends q := ⟨⟨[], by simp⟩, ⟨[], by simp⟩⟩

theorem Extends.trans {q q' q'' : Pairing} (h : q.Extends q') (h' : q'.Extends q'') :
    q.Extends q'' := by
  obtain ⟨⟨l, hl⟩, ⟨m, hm⟩⟩ := h
  obtain ⟨⟨l', hl'⟩, ⟨m', hm'⟩⟩ := h'
  exact ⟨⟨l ++ l', by rw [hl', hl, List.append_assoc]⟩, ⟨m ++ m', by rw [hm', hm, List.append_assoc]⟩⟩

theorem Extends.next {q q' : Pairing} (h : q.Extends q') {k n : Nat}
    (hk : q.next.lookup k = some n) : q'.next.lookup k = some n := by
  obtain ⟨⟨l, hl⟩, -⟩ := h
  rw [hl, List.lookup_append, hk]
  rfl

theorem Extends.ends {q q' : Pairing} (h : q.Extends q') {k n : Nat}
    (hk : q.ends.lookup k = some n) : q'.ends.lookup k = some n := by
  obtain ⟨-, ⟨l, hl⟩⟩ := h
  rw [hl, List.lookup_append, hk]
  rfl

/-! ### Linking a chain -/

theorem lookup_zip_of_not_mem {k : Nat} {l l' : List Nat} (h : k ∉ l) :
    (l.zip l').lookup k = none := by
  rw [List.lookup_eq_none_iff]
  intro e he
  have hmem : e.1 ∈ l := (List.of_mem_zip he).1
  rw [bne_iff_ne]
  rintro rfl
  exact h hmem

/-- In a chain without repetitions each position leads to the one behind it. -/
theorem lookup_zip_tail {front back : List Nat} {a b : Nat}
    (h : (front ++ a :: b :: back).Nodup) :
    ((front ++ a :: b :: back).zip (front ++ a :: b :: back).tail).lookup a = some b := by
  induction front with
  | nil => simp
  | cons c front ih =>
      rw [List.cons_append, List.nodup_cons] at h
      have hne : (a == c) = false := by
        rw [beq_eq_false_iff_ne]
        rintro rfl
        exact h.1 (by simp)
      have := ih h.2
      cases front with
      | nil => simp [List.lookup_cons, hne]
      | cons d front => simpa [List.lookup_cons, hne] using this

theorem lookup_map_const {k stop : Nat} {chain : List Nat} :
    (chain.map fun i => (i, stop)).lookup k = if k ∈ chain then some stop else none := by
  induction chain with
  | nil => rfl
  | cons c rest ih =>
      rw [List.map_cons, List.lookup_cons, ih]
      by_cases hk : k = c
      · simp [hk]
      · have hne : (k == c) = false := beq_eq_false_iff_ne.2 hk
        simp [hk, hne]

theorem extends_link (q : Pairing) (chain : List Nat) (stop : Nat) : q.Extends (q.link chain stop) :=
  ⟨⟨_, rfl⟩, ⟨_, rfl⟩⟩

theorem Fresh.link {q : Pairing} {k : Nat} (h : q.Fresh k) {chain : List Nat} (hk : k ∉ chain)
    (stop : Nat) : (q.link chain stop).Fresh k := by
  refine ⟨?_, ?_⟩
  · simp only [Pairing.link, List.lookup_append, h.1, lookup_zip_of_not_mem hk, Option.or]
  · simp only [Pairing.link, List.lookup_append, h.2, lookup_map_const, hk, if_false, Option.or]

/-- The jumps of the positions of a chain. -/
structure Linked (q : Pairing) (chain : List Nat) (stop : Nat) : Prop where
  next : ∀ front a b back, chain = front ++ a :: b :: back → q.next.lookup a = some b
  ends : ∀ a ∈ chain, q.ends.lookup a = some stop

theorem linked_link {q : Pairing} {chain : List Nat} {stop : Nat} (hd : chain.Nodup)
    (hf : ∀ k ∈ chain, q.Fresh k) : (q.link chain stop).Linked chain stop := by
  refine ⟨fun front a b back hc => ?_, fun a ha => ?_⟩
  · have ha : q.Fresh a := hf a (by simp [hc])
    subst hc
    simp only [Pairing.link, List.lookup_append, ha.1, lookup_zip_tail hd, Option.or]
  · simp only [Pairing.link, List.lookup_append, (hf a ha).2, lookup_map_const, ha, if_true,
      Option.or]

theorem Linked.mono {q q' : Pairing} {chain : List Nat} {stop : Nat} (h : q.Linked chain stop)
    (hq : q.Extends q') : q'.Linked chain stop :=
  ⟨fun front a b back hc => hq.next (h.next front a b back hc), fun a ha => hq.ends (h.ends a ha)⟩

/-! ### The pass over a part of a route -/

/-- The pass over the steps from position `i` on. -/
def Pass.along (p : Pass) (i : Nat) : List RouteStep → Pass
  | [] => p
  | s :: rest =>
    let p := match s.marker? with
      | none => p
      | some kind => p.step (i, kind)
    p.along (i + 1) rest

theorem Pass.along_append (p : Pass) (i : Nat) (l l' : List RouteStep) :
    p.along i (l ++ l') = (p.along i l).along (i + l.length) l' := by
  induction l generalizing p i with
  | nil => rfl
  | cons s rest ih =>
      simp only [List.cons_append, along, ih, List.length_cons]
      congr 1
      omega

theorem foldl_positions (p : Pass) (i : Nat) (steps : List RouteStep) :
    (((steps.map RouteStep.marker?).zipIdx i).filterMap fun e => e.1.map fun k => (e.2, k)).foldl
      Pass.step p = p.along i steps := by
  induction steps generalizing p i with
  | nil => rfl
  | cons s rest ih =>
      simp only [List.map_cons, List.zipIdx_cons, Pass.along]
      cases hs : s.marker? with
      | none => simpa using ih p (i + 1)
      | some kind => simpa using ih (p.step (i, kind)) (i + 1)

/-- The pairing of a route is the pass over all of it. -/
theorem ofKinds_marker? (steps : List RouteStep) :
    ofKinds (steps.map RouteStep.marker?) =
      (Pass.along {} 0 steps).finish (steps.map RouteStep.marker?).length := by
  rw [ofKinds, positions, foldl_positions]

end Pairing

/-! ### The jumps of a body -/

/-- The positions of the markers of alternatives that stand from position `j` on. -/
def RouteArms.markers : RouteArms → Nat → List Nat
  | .done, _ => []
  | .arm _ branch others, j => j :: others.markers (j + 1 + branch.size)

mutual

/-- The jumps of a body that stands from position `i` on. -/
def RouteBody.JumpsAt (q : Pairing) : RouteBody → Nat → Prop
  | .nil, _ => True
  | .move _ rest, i => rest.JumpsAt q (i + 1)
  | .effect _ _ rest, i => rest.JumpsAt q (i + 1)
  | .chain _ branch arms rest, i =>
    let j := i + 1 + branch.size
    q.Linked (i :: (arms.markers j ++ [j + arms.size])) (j + arms.size) ∧
      branch.JumpsAt q (i + 1) ∧ arms.BranchesAt q j ∧ rest.JumpsAt q (j + arms.size + 1)

/-- The jumps of the branches of alternatives that stand from position `j` on. -/
def RouteArms.BranchesAt (q : Pairing) : RouteArms → Nat → Prop
  | .done, _ => True
  | .arm _ branch others, j =>
    branch.JumpsAt q (j + 1) ∧ others.BranchesAt q (j + 1 + branch.size)

end

mutual

theorem RouteBody.JumpsAt.mono {q q' : Pairing} (hq : q.Extends q') :
    {b : RouteBody} → {i : Nat} → b.JumpsAt q i → b.JumpsAt q' i
  | .nil, _, _ => trivial
  | .move _ rest, _, h => RouteBody.JumpsAt.mono hq (b := rest) h
  | .effect _ _ rest, _, h => RouteBody.JumpsAt.mono hq (b := rest) h
  | .chain _ _ _ _, _, ⟨hl, hb, ha, hr⟩ =>
    ⟨hl.mono hq, RouteBody.JumpsAt.mono hq hb, RouteArms.BranchesAt.mono hq ha,
      RouteBody.JumpsAt.mono hq hr⟩

theorem RouteArms.BranchesAt.mono {q q' : Pairing} (hq : q.Extends q') :
    {a : RouteArms} → {j : Nat} → a.BranchesAt q j → a.BranchesAt q' j
  | .done, _, _ => trivial
  | .arm _ _ _, _, ⟨hb, ho⟩ => ⟨RouteBody.JumpsAt.mono hq hb, RouteArms.BranchesAt.mono hq ho⟩

end

/-- The markers of alternatives stand inside them, one behind the other. -/
theorem RouteArms.markers_sorted : (a : RouteArms) → (j : Nat) →
    (a.markers j).Pairwise (· < ·) ∧ ∀ k ∈ a.markers j, j ≤ k ∧ k < j + a.size
  | .done, _ => ⟨List.Pairwise.nil, by simp [markers]⟩
  | .arm c branch others, j => by
    obtain ⟨hs, hm⟩ := others.markers_sorted (j + 1 + branch.size)
    refine ⟨List.pairwise_cons.2 ⟨fun k hk => ?_, hs⟩, fun k hk => ?_⟩
    · have := hm k hk
      omega
    · rw [size_arm]
      rcases List.mem_cons.1 hk with rfl | hk
      · omega
      · have := hm k hk
        omega

/-- The positions of a chain do not repeat. -/
theorem RouteArms.chain_nodup (a : RouteArms) {i j : Nat} (h : i < j) :
    (i :: (a.markers j ++ [j + a.size])).Nodup := by
  obtain ⟨hs, hm⟩ := a.markers_sorted j
  have hchain : (i :: (a.markers j ++ [j + a.size])).Pairwise (· < ·) := by
    refine List.pairwise_cons.2 ⟨fun k hk => ?_, List.pairwise_append.2 ⟨hs, by simp, ?_⟩⟩
    · rcases List.mem_append.1 hk with hk | hk
      · have := hm k hk
        omega
      · simp only [List.mem_singleton] at hk
        omega
    · intro k hk e he
      simp only [List.mem_singleton] at he
      exact he ▸ (hm k hk).2
  exact hchain.imp Nat.ne_of_lt

/-- A marker of a chain stands neither in its first branch nor in one of its alternatives. -/
theorem RouteArms.of_mem_chain (a : RouteArms) {i j k : Nat} (h : i < j)
    (hk : k ∈ i :: (a.markers j ++ [j + a.size])) :
    (i ≤ k ∧ k < j + a.size + 1) ∧ ¬(i + 1 ≤ k ∧ k < j) ∧
      ¬(j ≤ k ∧ k < j + a.size ∧ k ∉ a.markers j) := by
  simp only [List.mem_cons, List.mem_append, List.not_mem_nil, or_false] at hk
  rcases hk with rfl | hk | rfl
  · exact ⟨by omega, by omega, by omega⟩
  · have := (a.markers_sorted j).2 k hk
    exact ⟨by omega, by omega, fun hn => hn.2.2 hk⟩
  · exact ⟨by omega, by omega, by omega⟩

/-! ### The pass over a body -/

namespace Pairing.Pass

/-- Jumps have been added, and for none but certain positions. -/
structure Adds (p p' : Pass) (here : Nat → Prop) : Prop where
  found : p.found.Extends p'.found
  fresh : ∀ k, p.found.Fresh k → ¬here k → p'.found.Fresh k

end Pairing.Pass

/-- Closing the innermost chain. -/
theorem Pairing.Pass.step_closing {p : Pairing.Pass} {chain : List Nat} {outer : List (List Nat)}
    (h : p.chains = chain :: outer) (e : Nat) :
    p.step (e, .closing) =
      { p with chains := outer, found := p.found.link (chain ++ [e]) e } := by
  simp only [Pairing.Pass.step, h]

/-- An alternative of the innermost chain. -/
theorem Pairing.Pass.step_alternative {p : Pairing.Pass} {chain : List Nat}
    {outer : List (List Nat)} (h : p.chains = chain :: outer) (j : Nat) :
    p.step (j, .alternative) = { p with chains := (chain ++ [j]) :: outer } := by
  simp only [Pairing.Pass.step, h]

mutual

/-- The pass over a body comes back with the chains that were open, and the body has its jumps. -/
theorem RouteBody.along_steps : (b : RouteBody) → {p : Pairing.Pass} → {i : Nat} →
    (∀ k, i ≤ k → p.found.Fresh k) →
    (p.along i b.steps).chains = p.chains ∧
      p.Adds (p.along i b.steps) (fun k => i ≤ k ∧ k < i + b.size) ∧
      b.JumpsAt (p.along i b.steps).found i
  | .nil, p, i, _ => ⟨rfl, ⟨.refl _, fun _ hf _ => hf⟩, trivial⟩
  | .move m rest, p, i, hf => by
    obtain ⟨hc, ha, hj⟩ := rest.along_steps (p := p) (i := i + 1) fun k hk => hf k (by omega)
    refine ⟨hc, ⟨ha.found, fun k hk hn => ha.fresh k hk fun hin => hn ?_⟩, hj⟩
    rw [RouteBody.size_move]
    omega
  | .effect line plain rest, p, i, hf => by
    obtain ⟨hc, ha, hj⟩ := rest.along_steps (p := p) (i := i + 1) fun k hk => hf k (by omega)
    have halong : p.along i (RouteBody.effect line plain rest).steps = p.along (i + 1) rest.steps := by
      simp only [RouteBody.steps, Pairing.Pass.along, RouteStep.marker?, plain]
    rw [halong]
    refine ⟨hc, ⟨ha.found, fun k hk hn => ha.fresh k hk fun hin => hn ?_⟩, hj⟩
    rw [RouteBody.size_effect]
    omega
  | .chain c branch arms rest, p, i, hf => by
    have halong : p.along i (RouteBody.chain c branch arms rest).steps =
        ((((p.step (i, .opening)).along (i + 1) branch.steps).along (i + 1 + branch.size)
          arms.steps).step (i + 1 + branch.size + arms.size, .closing)).along
          (i + 1 + branch.size + arms.size + 1) rest.steps := by
      simp only [RouteBody.steps, Pairing.Pass.along, RouteStep.marker?, RouteInstruction.marker?,
        Pairing.Pass.along_append, RouteBody.size, RouteArms.size]
    rw [halong]
    obtain ⟨hc, ha, hb⟩ := branch.along_steps (p := p.step (i, .opening)) (i := i + 1)
      fun k hk => hf k (by omega)
    generalize (p.step (i, .opening)).along (i + 1) branch.steps = p₂ at hc ha hb ⊢
    have hf₂ : ∀ k, p.found.Fresh k → ¬(i + 1 ≤ k ∧ k < i + 1 + branch.size) → p₂.found.Fresh k :=
      ha.fresh
    obtain ⟨hc', ha', hb'⟩ := arms.along_steps (p := p₂) (j := i + 1 + branch.size)
      (fun k hk => hf₂ k (hf k (by omega)) (by omega)) hc
    generalize hj : i + 1 + branch.size = j at *
    generalize p₂.along j arms.steps = p₃ at hc' ha' hb' ⊢
    have hij : i < j := by omega
    have hchain := arms.chain_nodup hij
    -- the markers of the chain have no jumps before it is closed
    have hopen : ∀ k ∈ i :: (arms.markers j ++ [j + arms.size]), p₃.found.Fresh k := by
      intro k hk
      obtain ⟨⟨hik, -⟩, hbranch, harms⟩ := arms.of_mem_chain hij hk
      exact ha'.fresh k (hf₂ k (hf k hik) hbranch) harms
    have hf₄ : ∀ k, p.found.Fresh k → ¬(i ≤ k ∧ k < j + arms.size + 1) →
        (p₃.found.link (i :: (arms.markers j ++ [j + arms.size])) (j + arms.size)).Fresh k := by
      intro k hk hn
      refine (ha'.fresh k (hf₂ k hk (by omega)) (by omega)).link ?_ _
      exact fun hin => hn (arms.of_mem_chain hij hin).1
    rw [Pairing.Pass.step_closing hc', List.append_assoc, List.singleton_append]
    obtain ⟨hc₅, ha₅, hb₅⟩ := rest.along_steps
      (p := { p₃ with chains := p.chains, found := p₃.found.link _ (j + arms.size) })
      (i := j + arms.size + 1) fun k hk => hf₄ k (hf k (by omega)) (by omega)
    have hlink := (Pairing.extends_link p₃.found (i :: (arms.markers j ++ [j + arms.size]))
      (j + arms.size)).trans ha₅.found
    refine ⟨hc₅, ⟨ha.found.trans (ha'.found.trans hlink), fun k hk hn => ?_⟩, ?_⟩
    · rw [RouteBody.size_chain] at hn
      exact ha₅.fresh k (hf₄ k hk (by omega)) (by omega)
    · simp only [RouteBody.JumpsAt, hj]
      exact ⟨(Pairing.linked_link hchain hopen).mono ha₅.found, hb.mono (ha'.found.trans hlink),
        hb'.mono hlink, hb₅⟩

/-- The pass over alternatives adds their markers to the innermost open chain. -/
theorem RouteArms.along_steps : (a : RouteArms) → {p : Pairing.Pass} → {j : Nat} →
    {chain : List Nat} → {outer : List (List Nat)} → (∀ k, j ≤ k → p.found.Fresh k) →
    p.chains = chain :: outer →
    (p.along j a.steps).chains = (chain ++ a.markers j) :: outer ∧
      p.Adds (p.along j a.steps) (fun k => j ≤ k ∧ k < j + a.size ∧ k ∉ a.markers j) ∧
      a.BranchesAt (p.along j a.steps).found j
  | .done, p, j, chain, outer, _, hc =>
    ⟨by simpa [RouteArms.markers, RouteArms.steps, Pairing.Pass.along] using hc,
      ⟨.refl _, fun _ hf _ => hf⟩, trivial⟩
  | .arm c branch others, p, j, chain, outer, hf, hc => by
    have halong : p.along j (RouteArms.arm c branch others).steps =
        (({ p with chains := (chain ++ [j]) :: outer } : Pairing.Pass).along (j + 1)
          branch.steps).along (j + 1 + branch.size) others.steps := by
      rw [← Pairing.Pass.step_alternative hc]
      simp only [RouteArms.steps, Pairing.Pass.along, RouteStep.marker?, RouteInstruction.marker?,
        Pairing.Pass.along_append, RouteBody.size]
    rw [halong]
    obtain ⟨hc₂, ha₂, hb₂⟩ := branch.along_steps
      (p := { p with chains := (chain ++ [j]) :: outer }) (i := j + 1) fun k hk => hf k (by omega)
    generalize ({ p with chains := (chain ++ [j]) :: outer } : Pairing.Pass).along (j + 1)
      branch.steps = p₂ at hc₂ ha₂ hb₂ ⊢
    have hf₂ : ∀ k, p.found.Fresh k → ¬(j + 1 ≤ k ∧ k < j + 1 + branch.size) → p₂.found.Fresh k :=
      ha₂.fresh
    obtain ⟨hc₃, ha₃, hb₃⟩ := others.along_steps (p := p₂) (j := j + 1 + branch.size)
      (fun k hk => hf₂ k (hf k (by omega)) (by omega)) hc₂
    obtain ⟨-, hmarkers⟩ := others.markers_sorted (j + 1 + branch.size)
    refine ⟨?_, ⟨ha₂.found.trans ha₃.found, fun k hk hn => ?_⟩, hb₂.mono ha₃.found, hb₃⟩
    · rw [hc₃, RouteArms.markers, List.append_assoc, List.singleton_append]
    · rw [RouteArms.size_arm, RouteArms.markers, List.mem_cons] at hn
      refine ha₃.fresh k (hf₂ k hk fun hin => hn ⟨by omega, by omega, ?_⟩)
        fun hin => hn ⟨by omega, by omega, ?_⟩
      · rintro (rfl | hm)
        · omega
        · have := hmarkers k hm
          omega
      · rintro (rfl | hm)
        · omega
        · exact hin.2.2 hm

end

/-- **The pairing of a route gives a body its jumps.** -/
theorem RouteBody.jumpsAt_ofKinds (b : RouteBody) {tail : List RouteStep}
    (h : ∀ s ∈ tail, s.marker? = none) :
    b.JumpsAt (Pairing.ofKinds ((b.steps ++ tail).map RouteStep.marker?)).found 0 := by
  obtain ⟨hc, -, hb⟩ := b.along_steps (p := {}) (i := 0) fun _ _ => ⟨rfl, rfl⟩
  have htail : ∀ (p : Pairing.Pass) (i : Nat), p.along i tail = p := by
    intro p i
    induction tail generalizing i with
    | nil => rfl
    | cons s rest ih =>
        rw [Pairing.Pass.along, h s (by simp)]
        exact ih (fun s hs => h s (by simp [hs])) (i + 1)
  rw [Pairing.ofKinds_marker?, Pairing.Pass.along_append, htail, Pairing.Pass.finish, hc]
  exact hb

end EventLayer
