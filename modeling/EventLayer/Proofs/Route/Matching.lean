/-
**Markers are paired as brackets are.**

The pass over the markers of a route finds just the jumps that bracket matching prescribes, for any
sequence of markers.  Its invariant has two halves: the stack holds the chains that are open, the
innermost first, each with the markers that it has so far, and the jumps of all the chains that have
begun and are no longer open have been found.

Main definitions:

* `Pairing.Settles` — the jumps found are those of all chains but some;
* `Pairing.Pass.Reached` — what the pass has found before a position.

Main results:

* `Pairing.Pass.Reached.succ` — one marker more;
* `Pairing.ofKinds_next`, `Pairing.ofKinds_ends` — **the jumps found are those prescribed**;
* `Pairing.reported_iff` — the markers reported are those outside every chain.
-/
import EventLayer.Proofs.Route.Brackets
import EventLayer.Proofs.Route.Jumps

set_option autoImplicit false
set_option relaxedAutoImplicit false

namespace EventLayer.Pairing

/-! ### Linking a whole chain -/

section Link

variable {kinds : List (Option MarkerKind)} {o i j k stop : Nat} {q : Pairing} {c : List Nat}

/-- In a sorted chain each position leads to the next one. -/
theorem lookup_zip_tail_iff (h : c.Pairwise (· < ·)) :
    (c.zip c.tail).lookup i = some j ↔ i ∈ c ∧ j ∈ c ∧ i < j ∧ ∀ k ∈ c, k ≤ i ∨ j ≤ k := by
  induction c with
  | nil => simp
  | cons a c ih =>
      cases c with
      | nil =>
          simp only [List.tail_cons, List.zip_nil_right, List.lookup_nil, List.mem_singleton]
          refine ⟨nofun, ?_⟩
          rintro ⟨rfl, rfl, hlt, -⟩
          exact absurd hlt (lt_irrefl _)
      | cons b c =>
          obtain ⟨ha, hc⟩ := List.pairwise_cons.1 h
          have hab : a < b := ha b (by simp)
          rw [List.tail_cons, List.zip_cons_cons, List.lookup_cons]
          by_cases hia : i = a
          · subst hia
            rw [beq_self_eq_true, Option.some_inj]
            constructor
            · rintro rfl
              refine ⟨by simp, by simp, hab, fun k hk => ?_⟩
              rcases List.mem_cons.1 hk with rfl | hk
              · exact .inl le_rfl
              · rcases List.mem_cons.1 hk with rfl | hk
                · exact .inr le_rfl
                · exact .inr ((List.pairwise_cons.1 hc).1 k hk).le
            · rintro ⟨-, hj, hlt, hnone⟩
              have hjb : b ≤ j := by
                rcases List.mem_cons.1 hj with rfl | hj
                · exact absurd hlt (lt_irrefl _)
                · rcases List.mem_cons.1 hj with rfl | hj
                  · exact le_rfl
                  · exact ((List.pairwise_cons.1 hc).1 j hj).le
              rcases hnone b (by simp) with hb | hb
              · exact absurd hab (by omega)
              · omega
          · have hne : (i == a) = false := beq_eq_false_iff_ne.2 hia
            rw [hne]
            refine (ih hc).trans ⟨fun ⟨hi, hj, hlt, hnone⟩ => ?_, fun ⟨hi, hj, hlt, hnone⟩ => ?_⟩
            · refine ⟨List.mem_cons_of_mem a hi, List.mem_cons_of_mem a hj, hlt, fun k hk => ?_⟩
              rcases List.mem_cons.1 hk with rfl | hk
              · exact .inl (ha i hi).le
              · exact hnone k hk
            · have hi' : i ∈ b :: c := (List.mem_cons.1 hi).resolve_left hia
              have hj' : j ∈ b :: c := by
                refine (List.mem_cons.1 hj).resolve_left ?_
                rintro rfl
                exact absurd hlt (by have := ha i hi'; omega)
              exact ⟨hi', hj', hlt, fun k hk => hnone k (List.mem_cons_of_mem a hk)⟩

theorem link_next_of_not_mem (h : i ∉ c) : (q.link c stop).next.lookup i = q.next.lookup i := by
  simp only [link, List.lookup_append, lookup_zip_of_not_mem h, Option.or_none]

theorem link_ends_of_not_mem (h : i ∉ c) : (q.link c stop).ends.lookup i = q.ends.lookup i := by
  simp only [link, List.lookup_append, lookup_map_const, h, if_false, Option.or_none]

theorem Fresh.link_next (h : q.Fresh i) :
    (q.link c stop).next.lookup i = (c.zip c.tail).lookup i := by
  simp only [Pairing.link, List.lookup_append, h.1, Option.none_or]

theorem Fresh.link_ends (h : q.Fresh i) (hi : i ∈ c) : (q.link c stop).ends.lookup i = some stop := by
  simp only [Pairing.link, List.lookup_append, h.2, lookup_map_const, hi, if_true, Option.none_or]

/-- The markers before position `k` of the chain that opens at `o`, in order. -/
structure Members (kinds : List (Option MarkerKind)) (o k : Nat) (c : List Nat) : Prop where
  sorted : c.Pairwise (· < ·)
  mem_iff : ∀ j, j ∈ c ↔ Belongs kinds o j ∧ j < k

theorem Members.succ (h : Members kinds o k c) (hk : ¬Belongs kinds o k) :
    Members kinds o (k + 1) c := by
  refine ⟨h.sorted, fun j => (h.mem_iff j).trans ⟨fun ⟨hj, hlt⟩ => ⟨hj, by omega⟩, ?_⟩⟩
  rintro ⟨hj, hlt⟩
  rcases Nat.lt_or_eq_of_le (Nat.le_of_lt_succ hlt) with hlt | rfl
  · exact ⟨hj, hlt⟩
  · exact absurd hj hk

theorem Members.snoc (h : Members kinds o k c) (hk : Belongs kinds o k) :
    Members kinds o (k + 1) (c ++ [k]) := by
  refine ⟨List.pairwise_append.2 ⟨h.sorted, by simp, fun j hj l hl => ?_⟩, fun j => ?_⟩
  · rw [List.mem_singleton] at hl
    exact hl ▸ ((h.mem_iff j).1 hj).2
  · rw [List.mem_append, List.mem_singleton, h.mem_iff j]
    constructor
    · rintro (⟨hj, hlt⟩ | rfl)
      · exact ⟨hj, by omega⟩
      · exact ⟨hk, Nat.lt_succ_self j⟩
    · rintro ⟨hj, hlt⟩
      rcases Nat.lt_or_eq_of_le (Nat.le_of_lt_succ hlt) with hlt | rfl
      · exact .inl ⟨hj, hlt⟩
      · exact .inr rfl

/-- The jumps found are those of all chains but some. -/
structure Settles (kinds : List (Option MarkerKind)) (left : Nat → Prop) (q : Pairing) : Prop where
  fresh : ∀ i, (∀ o, Belongs kinds o i → left o) → q.Fresh i
  next : ∀ o i, Belongs kinds o i → ¬left o → ∀ j, q.next.lookup i = some j ↔ IsNext kinds i j
  ends : ∀ o i, Belongs kinds o i → ¬left o → ∀ e, q.ends.lookup i = some e ↔ IsEnd kinds i e

theorem Settles.congr {left left' : Nat → Prop} (h : Settles kinds left q)
    (hl : ∀ o, kindAt kinds o = some .opening → (left o ↔ left' o)) : Settles kinds left' q where
  fresh i hi := h.fresh i fun o ho => (hl o ho.opening).2 (hi o ho)
  next o i ho hn := h.next o i ho fun hleft => hn ((hl o ho.opening).1 hleft)
  ends o i ho hn := h.ends o i ho fun hleft => hn ((hl o ho.opening).1 hleft)

/-- Linking all the markers of a chain settles it. -/
theorem Settles.link {left : Nat → Prop} (h : Settles kinds left q) (stop : Nat) (hleft : left o)
    (hc : Members kinds o k c) (hall : ∀ i, Belongs kinds o i → i < k)
    (hstop : ∀ i, Belongs kinds o i → ∀ e, IsEnd kinds i e ↔ e = stop) :
    Settles kinds (fun o' => left o' ∧ o' ≠ o) (q.link c stop) := by
  have hmem : ∀ i, i ∈ c ↔ Belongs kinds o i := fun i =>
    (hc.mem_iff i).trans ⟨And.left, fun hi => ⟨hi, hall i hi⟩⟩
  have hfresh : ∀ i, Belongs kinds o i → q.Fresh i := fun i hi =>
    h.fresh i fun o' ho' => ho'.unique hi ▸ hleft
  have hother : ∀ o' i, Belongs kinds o' i → o' ≠ o → i ∉ c := fun o' i hi hne hin =>
    hne (hi.unique ((hmem i).1 hin))
  refine ⟨fun i hi => ?_, fun o' i hi hn j => ?_, fun o' i hi hn e => ?_⟩
  · refine (h.fresh i fun o' ho' => (hi o' ho').1).link ?_ _
    exact fun hin => (hi o ((hmem i).1 hin)).2 rfl
  · by_cases ho : o' = o
    · subst ho
      rw [(hfresh i hi).link_next, lookup_zip_tail_iff hc.sorted]
      simp only [hmem]
      refine ⟨fun hj => ⟨o', hj⟩, ?_⟩
      rintro ⟨o'', hi', hj⟩
      obtain rfl := hi'.unique hi
      exact ⟨hi', hj⟩
    · rw [link_next_of_not_mem (hother o' i hi ho)]
      exact h.next o' i hi (fun hl => hn ⟨hl, ho⟩) j
  · by_cases ho : o' = o
    · subst ho
      rw [(hfresh i hi).link_ends ((hmem i).2 hi), hstop i hi, Option.some_inj, eq_comm]
    · rw [link_ends_of_not_mem (hother o' i hi ho)]
      exact h.ends o' i hi (fun hl => hn ⟨hl, ho⟩) e

end Link

/-! ### The pass over the markers -/

section Pass

variable {kinds : List (Option MarkerKind)} {o k : Nat} {p : Pass}

/-- The chains that are open before position `k`, the innermost first, with the markers they have
so far. -/
inductive Stack (kinds : List (Option MarkerKind)) (k : Nat) : List (List Nat) → Prop
  | nil : Stack kinds k []
  | cons {o : Nat} {c : List Nat} {rest : List (List Nat)} (opened : OpenAt kinds o k)
      (depth_eq : depth kinds o = rest.length) (members : Members kinds o k c)
      (outer : Stack kinds k rest) : Stack kinds k (c :: rest)

/-- Chains that stay open at a marker of another chain. -/
theorem Stack.succ {cs : List (List Nat)} (h : Stack kinds k cs)
    (hd : cs.length ≤ depth kinds (k + 1))
    (hk : ∀ o, Belongs kinds o k → OpenAt kinds o k → cs.length ≤ depth kinds o) :
    Stack kinds (k + 1) cs := by
  induction h with
  | nil => exact .nil
  | @cons o c rest opened depth_eq members outer ih =>
      rw [List.length_cons] at hd hk
      refine .cons (opened.succ (by omega)) depth_eq (members.succ fun ho => ?_)
        (ih (by omega) fun o ho hopen => ?_)
      · have := hk o ho opened
        omega
      · have := hk o ho hopen
        omega

/-- What the pass has found before position `k`. -/
structure Pass.Reached (kinds : List (Option MarkerKind)) (k : Nat) (p : Pass) : Prop where
  stack : Stack kinds k p.chains
  length : p.chains.length = depth kinds k
  settled : Settles kinds (fun o => OpenAt kinds o k ∨ k ≤ o) p.found

/-- The pass over the markers before a position. -/
def passTo (kinds : List (Option MarkerKind)) (k : Nat) : Pass :=
  (positions (kinds.take k)).foldl Pass.step {}

theorem passTo_succ (kinds : List (Option MarkerKind)) (k : Nat) :
    passTo kinds (k + 1) = match kindAt kinds k with
      | none => passTo kinds k
      | some kind => (passTo kinds k).step (k, kind) := by
  by_cases hk : k < kinds.length
  · have hat : kindAt kinds k = kinds[k] := by
      rw [kindAt, List.getElem?_eq_getElem hk, Option.join_some]
    have hlen : (kinds.take k).length = k := by
      rw [List.length_take]
      omega
    rw [passTo, List.take_succ_eq_append_getElem hk, positions, List.zipIdx_append, hlen,
      Nat.zero_add, List.filterMap_append, List.foldl_append, hat]
    cases kinds[k] <;> rfl
  · have hnone : kindAt kinds k = none := by
      rw [kindAt, List.getElem?_eq_none (by omega), Option.join_none]
    rw [hnone, passTo, passTo, List.take_of_length_le (by omega), List.take_of_length_le (by omega)]

theorem ofKinds_eq (kinds : List (Option MarkerKind)) :
    ofKinds kinds = (passTo kinds kinds.length).finish kinds.length := by
  rw [ofKinds, passTo, List.take_length]

/-- A step that closes no chain leaves the jumps as they are. -/
theorem Pass.Reached.settled_succ (h : p.Reached kinds k)
    (hle : depth kinds k ≤ depth kinds (k + 1)) :
    Settles kinds (fun o => OpenAt kinds o (k + 1) ∨ k + 1 ≤ o) p.found := by
  refine h.settled.congr fun o ho => ?_
  constructor
  · rintro (hopen | hle')
    · exact .inl (hopen.succ (hopen.depth_lt.trans_le hle))
    · rcases Nat.lt_or_eq_of_le hle' with hlt | rfl
      · exact .inr hlt
      · exact .inl (openAt_succ_self ho)
  · rintro (hopen | hle')
    · rcases Nat.lt_or_ge o k with hlt | hge
      · exact .inl (hopen.mono hlt (Nat.le_succ k))
      · exact .inr hge
    · exact .inr (by omega)

/-- A chain opens. -/
theorem Pass.Reached.opens (h : p.Reached kinds k) (hk : kindAt kinds k = some .opening) :
    (p.step (k, .opening)).Reached kinds (k + 1) := by
  have hd := depth_succ_opening hk
  have hmembers : Members kinds k (k + 1) [k] := by
    refine ⟨by simp, fun j => ?_⟩
    rw [List.mem_singleton]
    refine ⟨?_, fun ⟨hj, hlt⟩ => ?_⟩
    · rintro rfl
      exact ⟨belongs_self hk, Nat.lt_succ_self j⟩
    · have := hj.le
      omega
  refine ⟨.cons (openAt_succ_self hk) h.length.symm hmembers (h.stack.succ ?_ ?_), ?_,
    h.settled_succ (by omega)⟩
  · rw [h.length]
    omega
  · rintro o (⟨-, rfl⟩ | ⟨hne, -⟩) hopen
    · exact absurd hopen.before (lt_irrefl _)
    · rw [hk] at hne
      rcases hne with hne | hne <;> cases hne
  · change (p.chains.length + 1) = _
    rw [h.length, hd]

/-- The innermost open chain goes on. -/
theorem Pass.Reached.goesOn (h : p.Reached kinds k) (hk : kindAt kinds k = some .alternative) :
    (p.step (k, .alternative)).Reached kinds (k + 1) := by
  have hd := depth_succ_alternative hk
  obtain ⟨chains, found, notices⟩ := p
  cases chains with
  | nil => exact ⟨.nil, h.length.trans hd.symm, h.settled_succ hd.ge⟩
  | cons c rest =>
      have hsettled := h.settled_succ hd.ge
      obtain ⟨_ | ⟨opened, hdepth, members, outer⟩, hlength, -⟩ := h
      rw [List.length_cons] at hlength
      have hin : Innermost kinds _ k := innermost_iff.2 ⟨opened, by omega⟩
      have hbelongs : Belongs kinds _ k := .inr ⟨.inl hk, hin⟩
      refine ⟨.cons (opened.succ (hd ▸ opened.depth_lt)) hdepth (members.snoc hbelongs)
        (outer.succ (by omega) fun o ho _ => ?_), hlength.trans hd.symm, hsettled⟩
      rw [ho.unique hbelongs, hdepth]

/-- A closing marker is the end of all markers of its chain. -/
theorem isEnd_iff_of_closing {i e : Nat} (hbelongs : Belongs kinds o k)
    (hk : kindAt kinds k = some .closing) (hi : Belongs kinds o i) : IsEnd kinds i e ↔ e = k := by
  constructor
  · rintro ⟨o', hi', he⟩
    obtain rfl := hi'.unique hi
    exact IsEnd.eq_of_closing ⟨o', hbelongs, he⟩ hk
  · rintro rfl
    exact ⟨o, hi, .inl ⟨hbelongs, hk⟩⟩

/-- Of the chains that are open or begin later, a closing marker leaves all but the innermost. -/
theorem open_or_later_succ {o' : Nat} (opened : OpenAt kinds o k) (hin : Innermost kinds o k)
    (hk : kindAt kinds k = some .closing) (hclosed : ¬OpenAt kinds o (k + 1))
    (ho' : kindAt kinds o' = some .opening) :
    (OpenAt kinds o' k ∨ k ≤ o') ∧ o' ≠ o ↔ OpenAt kinds o' (k + 1) ∨ k + 1 ≤ o' := by
  have hd := depth_succ_closing hk
  have hbefore := opened.before
  have hdepth := (innermost_iff.1 hin).2
  constructor
  · rintro ⟨hopen | hle, hne⟩
    · have hlt : o' < o := lt_of_le_of_ne (hin.2 o' hopen) hne
      have := hopen.depth_lt_depth opened hlt
      exact .inl (hopen.succ (by omega))
    · refine .inr (Nat.lt_of_le_of_ne hle ?_)
      rintro rfl
      rw [hk] at ho'
      cases ho'
  · rintro (hopen | hle)
    · have hne : o' ≠ o := by
        rintro rfl
        exact hclosed hopen
      refine ⟨?_, hne⟩
      rcases Nat.lt_or_ge o' k with hlt | hge
      · exact .inl (hopen.mono hlt (Nat.le_succ k))
      · exact .inr hge
    · exact ⟨.inr (by omega), by omega⟩

/-- The innermost open chain is closed, and all its markers are linked. -/
theorem Pass.Reached.closes (h : p.Reached kinds k) (hk : kindAt kinds k = some .closing) :
    (p.step (k, .closing)).Reached kinds (k + 1) := by
  have hd := depth_succ_closing hk
  obtain ⟨chains, found, notices⟩ := p
  cases chains with
  | nil =>
      have hzero : depth kinds k = 0 := h.length.symm
      exact ⟨.nil, by rw [hd, hzero]; rfl, h.settled_succ (by omega)⟩
  | cons c rest =>
      have hsettled := h.settled
      obtain ⟨_ | @⟨o, _, _, opened, hdepth, members, outer⟩, hlength, -⟩ := h
      rw [List.length_cons] at hlength
      have hin : Innermost kinds o k := innermost_iff.2 ⟨opened, by omega⟩
      have hbelongs : Belongs kinds o k := .inr ⟨.inr hk, hin⟩
      have hclosed : ¬OpenAt kinds o (k + 1) :=
        not_openAt_of_closing hbelongs hk (Nat.lt_succ_self k)
      have hall : ∀ i, Belongs kinds o i → i < k + 1 := fun i hi =>
        hi.lt hclosed (Nat.lt_succ_of_lt opened.before)
      refine ⟨outer.succ (by omega) fun o' ho' _ => by rw [ho'.unique hbelongs, hdepth],
        by change rest.length = _; omega, ?_⟩
      exact (hsettled.link k (.inl opened) (members.snoc hbelongs) hall fun i hi e =>
        isEnd_iff_of_closing hbelongs hk hi).congr fun o' ho' =>
          open_or_later_succ opened hin hk hclosed ho'

/-- **One marker more**: the invariant of the pass. -/
theorem Pass.Reached.succ {kind : MarkerKind} (h : p.Reached kinds k)
    (hk : kindAt kinds k = some kind) : (p.step (k, kind)).Reached kinds (k + 1) := by
  cases kind with
  | opening => exact h.opens hk
  | alternative => exact h.goesOn hk
  | closing => exact h.closes hk

/-- What the pass has found before every position. -/
theorem reached_passTo (kinds : List (Option MarkerKind)) (k : Nat) :
    (passTo kinds k).Reached kinds k := by
  induction k with
  | zero =>
      refine ⟨.nil, rfl, fun i _ => ⟨rfl, rfl⟩, fun o i _ hn => ?_, fun o i _ hn => ?_⟩ <;>
        exact absurd (.inr (Nat.zero_le o)) hn
  | succ k ih =>
      rw [passTo_succ]
      cases hk : kindAt kinds k with
      | none =>
          have hd := depth_succ_none hk
          refine ⟨ih.stack.succ (by rw [ih.length, hd]) fun o ho _ => ?_, by rw [ih.length, hd],
            ih.settled_succ hd.ge⟩
          obtain ⟨kind, hkind⟩ := ho.exists_kind
          rw [hk] at hkind
          cases hkind
      | some kind => exact ih.succ hk

/-- What is said of a marker outside every chain. -/
def strayNotice (i : Nat) : MarkerKind → Notice
  | .closing => .endWithoutIf i
  | _ => .elseWithoutIf i

/-- The markers outside every chain are noticed, and nothing else on the way. -/
theorem mem_notices_passTo {n : Notice} :
    n ∈ (passTo kinds k).notices ↔
      ∃ i kind, i < k ∧ kindAt kinds i = some kind ∧ Stray kinds i ∧ n = strayNotice i kind := by
  induction k with
  | zero => exact ⟨nofun, fun ⟨i, _, hi, _⟩ => absurd hi (Nat.not_lt_zero i)⟩
  | succ k ih =>
      have hlength := (reached_passTo kinds k).length
      have hrest : (∃ i kind, i < k + 1 ∧ kindAt kinds i = some kind ∧ Stray kinds i ∧
          n = strayNotice i kind) ↔ n ∈ (passTo kinds k).notices ∨
            ∃ kind, kindAt kinds k = some kind ∧ Stray kinds k ∧ n = strayNotice k kind := by
        rw [ih]
        constructor
        · rintro ⟨i, kind, hi, h⟩
          rcases Nat.lt_or_eq_of_le (Nat.le_of_lt_succ hi) with hi | rfl
          · exact .inl ⟨i, kind, hi, h⟩
          · exact .inr ⟨kind, h⟩
        · rintro (⟨i, kind, hi, h⟩ | ⟨kind, h⟩)
          · exact ⟨i, kind, by omega, h⟩
          · exact ⟨k, kind, Nat.lt_succ_self k, h⟩
      have hnone : (passTo kinds k).chains = [] ↔ ∀ o, ¬OpenAt kinds o k := by
        rw [← depth_eq_zero_iff, ← hlength, List.length_eq_zero_iff]
      rw [hrest, passTo_succ]
      cases hk : kindAt kinds k with
      | none => simp
      | some kind =>
          generalize passTo kinds k = p at hnone ⊢
          obtain ⟨chains, found, notices⟩ := p
          cases kind with
          | opening => simp [Pass.step, Stray, hk]
          | alternative =>
              cases chains with
              | nil =>
                  have hstray : Stray kinds k := ⟨.inl hk, hnone.1 rfl⟩
                  simp [Pass.step, hstray, strayNotice]
              | cons c rest =>
                  have hstray : ¬Stray kinds k := fun h => List.cons_ne_nil _ _ (hnone.2 h.2)
                  simp [Pass.step, hstray]
          | closing =>
              cases chains with
              | nil =>
                  have hstray : Stray kinds k := ⟨.inr hk, hnone.1 rfl⟩
                  simp [Pass.step, hstray, strayNotice]
              | cons c rest =>
                  have hstray : ¬Stray kinds k := fun h => List.cons_ne_nil _ _ (hnone.2 h.2)
                  simp [Pass.step, hstray]

/-! ### The end of the markers -/

/-- The chains that are open at the end of a route lead there. -/
theorem settles_finish {cs : List (List Nat)} {q : Pairing}
    (h : Stack kinds kinds.length cs)
    (hq : Settles kinds (fun o => OpenAt kinds o kinds.length ∨ kinds.length ≤ o) q) :
    Settles kinds
      (fun o => (OpenAt kinds o kinds.length ∧ cs.length ≤ depth kinds o) ∨ kinds.length ≤ o)
      (cs.foldr (fun c q => q.link c kinds.length) q) := by
  induction h with
  | nil => exact hq.congr fun o _ => by simp
  | @cons o c rest opened depth_eq members outer ih =>
      have hall : ∀ i, Belongs kinds o i → i < kinds.length := by
        intro i hi
        obtain ⟨kind, hkind⟩ := hi.exists_kind
        exact lt_length_of_kindAt hkind
      have hnone : ∀ i, Belongs kinds o i → kindAt kinds i ≠ some .closing := fun i hi hclosing =>
        not_openAt_of_closing hi hclosing (hall i hi) opened
      refine (ih.link _ (.inl ⟨opened, depth_eq.ge⟩) members hall fun i hi e => ?_).congr
        fun o' _ => ?_
      · constructor
        · rintro ⟨o', hi', ⟨he, hclosing⟩ | ⟨rfl, -⟩⟩
          · obtain rfl := hi'.unique hi
            exact absurd hclosing (hnone e he)
          · rfl
        · rintro rfl
          exact ⟨o, hi, .inr ⟨rfl, hnone⟩⟩
      · rw [List.length_cons]
        constructor
        · rintro ⟨⟨hopen, hle⟩ | hle, hne⟩
          · refine .inl ⟨hopen, Nat.lt_of_le_of_ne hle fun heq => hne ?_⟩
            -- of two open chains of one depth neither opened first
            rcases Nat.lt_trichotomy o o' with hlt | heq | hgt
            · have := opened.depth_lt_depth hopen hlt
              omega
            · exact heq.symm
            · have := hopen.depth_lt_depth opened hgt
              omega
          · exact .inr hle
        · rintro (⟨hopen, hle⟩ | hle)
          · refine ⟨.inl ⟨hopen, by omega⟩, ?_⟩
            rintro rfl
            omega
          · have := opened.before
            exact ⟨.inr hle, by omega⟩

/-- What the end of a route adds. -/
theorem finish_eq (p : Pass) (n : Nat) :
    (p.finish n).found = p.chains.foldr (fun c q => q.link c n) p.found ∧
      (p.finish n).notices = p.notices ++
        (p.chains.reverse.map fun c => (c.head?.map Notice.ifNeverClosed).toList).flatten := by
  have hfold : ∀ (cs : List (List Nat)) (p : Pass),
      (cs.foldl (fun p chain =>
        { p with
          found := p.found.link chain n
          notices := p.notices ++ (chain.head?.map Notice.ifNeverClosed).toList }) p).found =
        cs.foldl (fun q c => q.link c n) p.found ∧
      (cs.foldl (fun p chain =>
        { p with
          found := p.found.link chain n
          notices := p.notices ++ (chain.head?.map Notice.ifNeverClosed).toList }) p).notices =
        p.notices ++ (cs.map fun c => (c.head?.map Notice.ifNeverClosed).toList).flatten := by
    intro cs
    induction cs with
    | nil => simp
    | cons c cs ih =>
        intro p
        obtain ⟨hfound, hnotices⟩ := ih { p with
          found := p.found.link c n
          notices := p.notices ++ (c.head?.map Notice.ifNeverClosed).toList }
        simp only [List.foldl_cons]
        refine ⟨hfound, hnotices.trans ?_⟩
        simp
  obtain ⟨hfound, hnotices⟩ := hfold p.chains.reverse p
  refine ⟨hfound.trans ?_, hnotices⟩
  rw [List.foldl_reverse]

/-- All the jumps of a route are found. -/
theorem settles_ofKinds (kinds : List (Option MarkerKind)) :
    Settles kinds (fun _ => False) (ofKinds kinds).found := by
  have h := reached_passTo kinds kinds.length
  rw [ofKinds_eq, (finish_eq _ _).1]
  refine (settles_finish h.stack h.settled).congr fun o ho => ?_
  simp only [iff_false, not_or, not_and, h.length]
  refine ⟨fun hopen => ?_, ?_⟩
  · have := hopen.depth_lt
    omega
  · have := lt_length_of_kindAt ho
    omega

end Pass

section Found

variable {kinds : List (Option MarkerKind)} {i j e : Nat}

/-- **A marker leads to the next one of its chain**, and no other position leads on. -/
theorem ofKinds_next : (ofKinds kinds).found.next.lookup i = some j ↔ IsNext kinds i j := by
  have h := settles_ofKinds kinds
  by_cases hi : ∃ o, Belongs kinds o i
  · obtain ⟨o, ho⟩ := hi
    exact h.next o i ho not_false j
  · rw [(h.fresh i fun o ho => hi ⟨o, ho⟩).1]
    exact ⟨nofun, fun ⟨o, ho, _⟩ => absurd ⟨o, ho⟩ hi⟩

/-- **A marker knows the end of its chain**, and no other position has one. -/
theorem ofKinds_ends : (ofKinds kinds).found.ends.lookup i = some e ↔ IsEnd kinds i e := by
  have h := settles_ofKinds kinds
  by_cases hi : ∃ o, Belongs kinds o i
  · obtain ⟨o, ho⟩ := hi
    exact h.ends o i ho not_false e
  · rw [(h.fresh i fun o ho => hi ⟨o, ho⟩).2]
    exact ⟨nofun, fun ⟨o, ho, _⟩ => absurd ⟨o, ho⟩ hi⟩

/-- A marker outside every chain leads nowhere. -/
theorem Stray.fresh (h : Stray kinds i) : (ofKinds kinds).found.Fresh i :=
  (settles_ofKinds kinds).fresh i fun _ ho => absurd ho h.not_belongs

/-- Every marker of a chain has an end. -/
theorem exists_isEnd {o : Nat} (h : Belongs kinds o i) : ∃ e, IsEnd kinds i e := by
  by_cases he : ∃ e, Belongs kinds o e ∧ kindAt kinds e = some .closing
  · obtain ⟨e, he⟩ := he
    exact ⟨e, o, h, .inl he⟩
  · exact ⟨kinds.length, o, h, .inr ⟨rfl, fun k hk hc => he ⟨k, hk, hc⟩⟩⟩

/-- **The markers reported are those outside every chain.** -/
theorem reported_iff :
    (Notice.elseWithoutIf i ∈ (ofKinds kinds).notices ∨
      Notice.endWithoutIf i ∈ (ofKinds kinds).notices) ↔ Stray kinds i := by
  have hmem : ∀ n, (∀ j, n ≠ Notice.ifNeverClosed j) → (n ∈ (ofKinds kinds).notices ↔
      ∃ j kind, j < kinds.length ∧ kindAt kinds j = some kind ∧ Stray kinds j ∧
        n = strayNotice j kind) := by
    intro n hn
    rw [ofKinds_eq, (finish_eq _ _).2, List.mem_append, mem_notices_passTo, or_iff_left]
    rw [List.mem_flatten]
    rintro ⟨_, hc, hin⟩
    obtain ⟨c, -, rfl⟩ := List.mem_map.1 hc
    cases hc : c.head? with
    | none => simp [hc] at hin
    | some j =>
        simp only [hc, Option.map_some, Option.toList_some, List.mem_singleton] at hin
        exact hn j hin
  rw [hmem _ fun _ => by simp, hmem _ fun _ => by simp]
  constructor
  · rintro (⟨j, kind, -, -, hstray, heq⟩ | ⟨j, kind, -, -, hstray, heq⟩) <;> cases kind <;>
      cases heq <;> exact hstray
  · intro h
    rcases h.1 with hk | hk
    · exact .inl ⟨i, _, lt_length_of_kindAt hk, hk, h, rfl⟩
    · exact .inr ⟨i, _, lt_length_of_kindAt hk, hk, h, rfl⟩

end Found

end EventLayer.Pairing
