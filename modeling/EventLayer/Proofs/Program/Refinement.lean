/-
**Running what the editor writes is running the tree.**

The list of a block leads from its first position to the one behind it as the tree runs.  What the
list remembers is told apart from what the tree does by two facts that hold at every position at
which a block of the tree begins.  Every choice that is remembered was made further out: at a
smaller indentation where the block may hold choices, and at no greater one where it is a body.  And
the outcome of a conditional is read only by its own alternative, between which nothing of the same
indentation stands.  Behind a block the choices are those that were remembered before it.

Main definitions:

* `Spot.Ready`, `Spot.Arrives` — where a block begins, and where it leaves the list;
* `Program.Laid` — a block stands in a list, and its choices in the jump table;
* `Program.Runs` — between two positions a list does what an operation does.

Main results:

* `Program.runs_branch`, `Program.runs_choice` — conditionals and random choices;
* `Program.Block.runs` — a block leads to the position behind it as the tree runs;
* `Program.runUntilStopped_flatten` — **running what the editor writes is running the tree**.
-/
import EventLayer.Proofs.Program.Carry
import EventLayer.Proofs.Program.Reading

set_option autoImplicit false
set_option relaxedAutoImplicit false

namespace EventLayer

/-- A spot at which a block can begin. -/
structure Spot.Ready (choices : Bool) (d : Int) (p : Spot) : Prop where
  awake : p.waitCount ≤ 0
  within : ∀ e ∈ p.selections.entries, e.1 ≤ d
  below : choices = true → ∀ e ∈ p.selections.entries, e.1 < d

/-- Where a block leaves the list that it was begun at `p`. -/
structure Spot.Arrives (p : Spot) (d : Int) (n : Nat) (q : Spot) : Prop where
  index : q.index = n
  awake : q.waitCount ≤ 0
  selections : q.selections = p.selections
  outcomes : ∀ k < d, q.outcomes.get? k = p.outcomes.get? k

namespace Play

/-! ### What is remembered -/

theorem forgetDeeper_of_le {d : Int} {m : OrderedMap Int Nat} (h : ∀ e ∈ m.entries, e.1 ≤ d) :
    forgetDeeper d m = m := by
  obtain ⟨l⟩ := m
  rw [forgetDeeper, List.filter_eq_self.2 fun e he => decide_eq_true (h e he)]

variable {d : Int} {m : OrderedMap Int Nat} (h : ∀ e ∈ m.entries, e.1 < d)
include h

/-- A choice is remembered beside those further out. -/
theorem entries_insert (chosen : Nat) :
    (m.insert d chosen).entries = m.entries ++ [(d, chosen)] := by
  apply OrderedMap.put_of_new
  intro e he
  have := h e he
  simp
  omega

theorem le_of_mem_insert (chosen : Nat) : ∀ e ∈ (m.insert d chosen).entries, e.1 ≤ d := by
  intro e he
  rw [entries_insert h] at he
  rcases List.mem_append.1 he with he | he
  · exact Int.le_of_lt (h e he)
  · obtain rfl := List.mem_singleton.1 he
    exact Int.le_refl d

/-- To forget a choice is to be left with those further out. -/
theorem forgetFrom_insert (chosen : Nat) : forgetFrom d (m.insert d chosen) = m := by
  have hkeep : m.entries.filter (fun e => e.1 < d) = m.entries :=
    List.filter_eq_self.2 fun e he => decide_eq_true (h e he)
  rw [forgetFrom, entries_insert h, List.filter_append, hkeep]
  simp

theorem get?_of_lt : m.get? d = none := by
  apply OrderedMap.find_eq_none
  intro e he
  have := h e he
  simp
  omega

end Play

/-! ### Beginning and arriving -/

section Spots

variable {choices : Bool} {d : Int} {n n' : Nat} {p q r : Spot}

theorem Spot.Ready.forgetDeeper (h : p.Ready choices d) :
    Play.forgetDeeper d p.selections = p.selections := Play.forgetDeeper_of_le h.within

/-- A body may follow where a block may. -/
theorem Spot.Ready.body (h : p.Ready choices d) : p.Ready false d := ⟨h.awake, h.within, nofun⟩

/-- A block inside may hold choices again. -/
theorem Spot.Ready.inside (h : p.Ready choices d) : p.Ready true (d + 1) := by
  have hlt : ∀ e ∈ p.selections.entries, e.1 < d + 1 := fun e he => by
    have := h.within e he
    omega
  exact ⟨h.awake, fun e he => Int.le_of_lt (hlt e he), fun _ => hlt⟩

/-- A command that is carried out leaves the list behind it. -/
theorem Spot.Ready.past (h : p.Ready choices d) (n : Nat) : p.Arrives d n (p.past d n) :=
  ⟨rfl, h.awake, h.forgetDeeper, fun _ _ => rfl⟩

/-- A leaf leaves the list behind it. -/
theorem Spot.Ready.behind (h : p.Ready choices d) (hq : p.Behind d n q) : p.Arrives d n q := by
  obtain ⟨w, hw, rfl⟩ := hq
  exact ⟨rfl, hw, h.forgetDeeper, fun _ _ => rfl⟩

theorem Spot.Arrives.trans (h : p.Arrives d n q) (h' : q.Arrives d n' r) : p.Arrives d n' r :=
  ⟨h'.index, h'.awake, h'.selections.trans h.selections,
    fun k hk => (h'.outcomes k hk).trans (h.outcomes k hk)⟩

/-- Where a block arrives, the next one can begin. -/
theorem Spot.Arrives.ready (h : p.Arrives d n q) (hp : p.Ready choices d) : q.Ready choices d :=
  ⟨h.awake, by rw [h.selections]; exact hp.within, by rw [h.selections]; exact hp.below⟩

/-- What a block inside leaves, a block leaves. -/
theorem Spot.Arrives.outside (h : p.Arrives (d + 1) n q) : p.Arrives d n q :=
  ⟨h.index, h.awake, h.selections, fun k hk => h.outcomes k (by omega)⟩

/-- The outcome of a conditional is nothing to what stands further out. -/
theorem Spot.Arrives.noting (h : p.Arrives d n q) (holds : Bool) :
    p.Arrives d n (q.noting d holds) := by
  refine ⟨h.index, h.awake, h.selections, fun k hk => ?_⟩
  have hne : (d == k) = false := by
    rw [beq_eq_false_iff_ne]
    omega
  rw [← h.outcomes k hk, Spot.noting, OrderedMap.get?_insert, hne]
  rfl

theorem Spot.get?_noting (p : Spot) (d : Int) (holds : Bool) :
    (p.noting d holds).outcomes.get? d = some holds := OrderedMap.get?_insert_self ..

end Spots

namespace Program

open Play

variable {g : Frame} {s t : Session} {p q : Spot} {d : Int}

/-! ### Blocks in a list -/

/-- Commands stand in a list from position `i` on, with their sets in its jump table after `n`
others, and their markers. -/
structure Laid (g : Frame) (i n : Nat) (commands : List EventCommand) (sets : List BranchSet)
    (markers : List Marker) : Prop where
  list : Stands g.list i commands
  sets : Stands g.table.sets n sets
  markers : ∀ m ∈ markers, m ∈ g.table.markers

namespace Laid

variable {i n : Nat} {c : EventCommand} {commands commands' : List EventCommand} {set : BranchSet}
  {sets sets' : List BranchSet} {m : Marker} {markers markers' : List Marker}

/-- Two parts that stand one behind the other. -/
theorem append (h : Laid g i n (commands ++ commands') (sets ++ sets') (markers ++ markers')) :
    Laid g i n commands sets markers ∧
      Laid g (i + commands.length) (n + sets.length) commands' sets' markers' :=
  ⟨⟨h.list.append.1, h.sets.append.1, fun m hm => h.markers m (List.mem_append_left _ hm)⟩,
    ⟨h.list.append.2, h.sets.append.2, fun m hm => h.markers m (List.mem_append_right _ hm)⟩⟩

/-- Behind a command that the jump table knows nothing of. -/
theorem tail (h : Laid g i n (c :: commands) sets markers) : Laid g (i + 1) n commands sets markers :=
  ⟨h.list.tail, h.sets, h.markers⟩

/-- The set that opens first. -/
theorem pastSet (h : Laid g i n commands (set :: sets) markers) :
    g.table.sets[n]? = some set ∧ Laid g i (n + 1) commands sets markers :=
  ⟨h.sets.head, h.list, h.sets.tail, h.markers⟩

/-- The first marker. -/
theorem pastMarker (h : Laid g i n commands sets (m :: markers)) :
    m ∈ g.table.markers ∧ Laid g i n commands sets markers :=
  ⟨h.markers m List.mem_cons_self, h.list, h.sets,
    fun m hm => h.markers m (List.mem_cons_of_mem _ hm)⟩

end Laid

/-- What stands between two positions of a list is no line of a text. -/
theorem textLines_drop {i : Nat} {c : EventCommand} {l : List EventCommand}
    (h : Stands g.list i (c :: l)) (hc : ∀ rest, textLines (c :: rest) = .ok []) :
    textLines (g.list.drop i) = .ok [] := by
  rw [h.drop]
  exact hc _

/-- Between two positions the list does what an operation does. -/
def Runs (g : Frame) (choices : Bool) (d : Int) (i j : Nat) (act : Play Unit) : Prop :=
  ∀ ⦃p : Spot⦄ ⦃s : Session⦄, p.index = i → p.Ready choices d → s.running g = s →
    Leads g s p (act (s.running g)) (p.Arrives d j)

theorem runs_pure (g : Frame) (choices : Bool) (d : Int) (i : Nat) :
    Runs g choices d i i (pure ()) := by
  intro p s hi hp hs
  rw [hs]
  exact leads_here hs ⟨hi, hp.awake, rfl, fun _ _ => rfl⟩

theorem Runs.bind {choices : Bool} {i j k : Nat} {x y : Play Unit} (hx : Runs g choices d i j x)
    (hy : Runs g choices d j k y) : Runs g choices d i k (x >>= fun _ => y) := by
  intro p s hi hp hs
  refine (hx hi hp hs).bind fun t q ht hq => ?_
  exact (hy hq.index (hq.ready hp) ht).mono fun r hr => hq.trans hr

/-- What is inside is followed by its own end. -/
theorem Runs.inside {choices : Bool} {i j : Nat} {act : Play Unit}
    (h : Runs g true (d + 1) i j act) (hend : g.list[j]? = some (idleAt (d + 1)))
    (hi : p.index = i) (hp : p.Ready choices d) (hs : s.running g = s) :
    Leads g s p (act (s.running g)) (p.Arrives (d + 1) (j + 1)) := by
  refine (h hi hp.inside hs).before fun t q _ hq => ?_
  obtain ⟨hj, hawake, -, -⟩ := id hq
  subst hj
  exact ⟨_, hq.trans ((hq.ready hp.inside).past _), reaches_idle hend hawake⟩

/-! ### Leaves -/

theorem Leaf.runs {choices : Bool} {l : Leaf} {i : Nat} (hl : Stands g.list i (l.commands d))
    (hnext : textLines (g.list.drop (i + l.size)) = .ok []) :
    Runs g choices d i (i + l.size) l.run := by
  intro p s hi hp hs
  subst hi
  exact (leads_leaf hl hnext hp.awake hs).mono fun q hq => hp.behind hq

/-! ### Conditionals -/

/-- An alternative that is not wanted is passed over. -/
theorem Otherwise.reaches {o : Otherwise} {i : Nat} {choices : Bool}
    (hl : Stands g.list i (o.commands d ++ [idleAt d])) (hi : p.index = i) (hp : p.Ready choices d)
    (hout : p.outcomes.get? d ≠ some false) :
    ∃ q, p.Arrives d (i + o.size) q ∧ Reaches g s p s q := by
  subst hi
  cases o with
  | absent => exact ⟨p, ⟨rfl, hp.awake, rfl, fun _ _ => rfl⟩, .refl s p⟩
  | present b =>
      have hinside : ∀ c ∈ b.commands (d + 1) ++ [idleAt (d + 1)], Within (d + 1) c :=
        within_append (b.commands_within (d + 1)) (within_cons ⟨rfl, Int.le_refl _⟩ (by simp))
      have hpast := reaches_passed (s := s) (c := idleAt d) hl hinside rfl hp.awake hout
      have hsize : p.index + (Otherwise.present b).size =
          p.index + 1 + (b.commands (d + 1) ++ [idleAt (d + 1)]).length := by
        simp only [Otherwise.size, List.length_append, Block.length_commands, List.length_cons,
          List.length_nil]
        omega
      rw [hsize]
      exact ⟨_, hp.past _, hpast⟩

/-- What follows the first arm of a conditional stands at the indentation of the conditional. -/
theorem Otherwise.head_commands (d : Int) (o : Otherwise) :
    ∃ c rest, o.commands d ++ [idleAt d] = c :: rest ∧ c.indent? = .ok d := by
  cases o with
  | absent => exact ⟨idleAt d, [], rfl, rfl⟩
  | present b =>
      exact ⟨otherwiseAt d, b.commands (d + 1) ++ [idleAt (d + 1)] ++ [idleAt d], rfl, rfl⟩

section Conditional

variable {choices : Bool} {params : Json} {yes : Block true} {no : Otherwise} {i : Nat}

/-- Both arms come to the end of the conditional, which does nothing. -/
theorem leads_closed {j : Nat} {r : EStateM.Result Fault Session Unit}
    (hend : g.list[j]? = some (idleAt d)) (hp : p.Ready choices d)
    (hlead : Leads g t q r (p.Arrives d j)) : Leads g t q r (p.Arrives d (j + 1)) := by
  refine hlead.before fun u q' _ hq' => ?_
  have hidle := reaches_idle (g := g) (s := u) (p := q') (by rw [hq'.index]; exact hend) hq'.awake
  rw [hq'.index] at hidle
  exact ⟨_, hq'.trans ((hq'.ready hp).past _), hidle⟩

/-- A conditional that holds runs its first arm; the alternative is passed over. -/
theorem leads_holds (hl : Stands g.list p.index (branchAt d params ::
      (yes.commands (d + 1) ++ idleAt (d + 1) :: (no.commands d ++ [idleAt d]))))
    (hyes : Runs g true (d + 1) (p.index + 1) (p.index + 1 + yes.size) (yes.run (d + 1)))
    (hp : p.Ready choices d) (htest : test 0 (conditionOf params) (s.running g) = .ok true t)
    (ht : t.running g = t) :
    Leads g s p (yes.run (d + 1) (t.running g))
      (p.Arrives d (p.index + 1 + yes.size + 1 + no.size)) := by
  have hafter := hl.tail.append.2
  rw [Block.length_commands] at hafter
  have hq := (hp.past (p.index + 1)).noting true
  have hinside := hyes.inside hafter.head rfl (hq.ready hp) ht
  refine (hinside.before fun u r hu hr => ?_).after (reaches_holds hl.head hp.awake htest)
  have hout : r.outcomes.get? d ≠ some false := by
    rw [hr.outcomes d (by omega), Spot.get?_noting]
    simp
  obtain ⟨r', hr', hreach⟩ := Otherwise.reaches (s := u) hafter.tail hr.index
    ((hq.trans hr.outside).ready hp) hout
  exact ⟨r', (hq.trans hr.outside).trans hr', hreach⟩

/-- A conditional that fails passes its first arm over and notes for the alternative that it
failed. -/
theorem leads_fails (hl : Stands g.list p.index (branchAt d params ::
      (yes.commands (d + 1) ++ idleAt (d + 1) :: (no.commands d ++ [idleAt d]))))
    (hno : ∀ {p s}, p.index = i → p.Ready choices d → p.outcomes.get? d = some false →
      s.running g = s → Leads g s p (no.run d (s.running g)) (p.Arrives d (i + no.size)))
    (hi : i = p.index + 1 + yes.size + 1) (hp : p.Ready choices d)
    (htest : test 0 (conditionOf params) (s.running g) = .ok false t) (ht : t.running g = t) :
    Leads g s p (no.run d (t.running g)) (p.Arrives d (i + no.size)) := by
  obtain ⟨c, rest, hrest, hc⟩ := no.head_commands d
  have hinside : ∀ c ∈ yes.commands (d + 1) ++ [idleAt (d + 1)], Within (d + 1) c :=
    within_append (yes.commands_within (d + 1)) (within_cons ⟨rfl, Int.le_refl _⟩ (by simp))
  have hstand : Stands g.list p.index
      (branchAt d params :: (yes.commands (d + 1) ++ [idleAt (d + 1)] ++ [c])) := by
    rw [hrest] at hl
    refine Stands.left rest ?_
    simpa using hl
  have hreach := reaches_fails hstand hinside hc hp.awake htest
  have hlength : p.index + 1 + (yes.commands (d + 1) ++ [idleAt (d + 1)]).length = i := by
    simp only [List.length_append, Block.length_commands, List.length_cons, List.length_nil]
    omega
  rw [hlength] at hreach
  have hq := (hp.past i).noting false
  have hlead := hno hq.index (hq.ready hp) (Spot.get?_noting _ d false) ht
  exact (hlead.mono fun r hr => hq.trans hr).after hreach

/-- **A conditional** runs one arm, and the other is passed over. -/
theorem runs_branch
    (hl : Stands g.list i (branchAt d params ::
      (yes.commands (d + 1) ++ idleAt (d + 1) :: (no.commands d ++ [idleAt d]))))
    (hyes : Runs g true (d + 1) (i + 1) (i + 1 + yes.size) (yes.run (d + 1)))
    (hno : ∀ {p s}, p.index = i + 1 + yes.size + 1 → p.Ready choices d →
      p.outcomes.get? d = some false → s.running g = s →
        Leads g s p (no.run d (s.running g)) (p.Arrives d (i + 1 + yes.size + 1 + no.size))) :
    Runs g choices d i (i + 1 + yes.size + 1 + no.size + 1) (do
      let holds ← test 0 (conditionOf params)
      if holds then yes.run (d + 1) else no.run d) := by
  intro p s hi hp hs
  subst hi
  have hafter := hl.tail.append.2
  rw [Block.length_commands] at hafter
  have hend : g.list[p.index + 1 + yes.size + 1 + no.size]? = some (idleAt d) := by
    have := hafter.tail.append.2.head
    rwa [Otherwise.length_commands] at this
  rw [bind_apply]
  cases htest : test 0 (conditionOf params) (s.running g) with
  | error e t => exact leads_test_error hl.head hp.awake htest
  | ok holds t =>
      have ht := (blind_test _).running_of_ok htest
      have hlead : Leads g s p ((if holds then yes.run (d + 1) else no.run d) (t.running g))
          (p.Arrives d (p.index + 1 + yes.size + 1 + no.size)) := by
        cases holds with
        | true => exact leads_holds hl hyes hp htest ht
        | false => exact leads_fails hl hno rfl hp htest ht
      rw [ht] at hlead
      exact leads_closed hend hp hlead

end Conditional

/-! ### Random choices -/

theorem Arms.le_of_mem_positions : (a : Arms) → {i j : Nat} → j ∈ a.positions i → i ≤ j
  | .done, i, j, h => by
    rw [Arms.positions] at h
    cases h
  | .arm _ body others, i, j, h => by
    rw [Arms.positions] at h
    rcases List.mem_cons.1 h with rfl | h
    · exact Nat.le_refl _
    · have := others.le_of_mem_positions h
      omega

theorem Arms.length_positions : (a : Arms) → (i : Nat) →
    (a.positions i).length = a.weights.length
  | .done, _ => rfl
  | .arm _ body others, i => by
    rw [Arms.positions, Arms.weights, List.length_cons, List.length_cons,
      others.length_positions]

/-- What stands at the weight of a body. -/
theorem weightAt_of_mem (hg : InOrder g.table) {weight : Json} {i stop own : Nat} {set : BranchSet}
    (hc : g.list[i]? = some (weightAt d weight))
    (hm : (⟨i, d, false, some own, stop⟩ : Marker) ∈ g.table.markers)
    (hset : g.table.sets[own]? = some set) (hlt : i < stop) :
    WeightAt g d weight ⟨i, d, false, some own, stop⟩ set :=
  ⟨hc, marker?_of_mem hg hm, hset, hlt⟩

/-- Bodies that were not chosen are passed over. -/
theorem Arms.reaches (hg : InOrder g.table) : (a : Arms) → {i n own : Nat} → {set : BranchSet} → {chosen : Nat} →
    Stands g.list i (a.commands d) → (∀ m ∈ a.markers d own i n, m ∈ g.table.markers) →
    g.table.sets[own]? = some set → chosen ∈ set.branches → chosen ∉ a.positions i →
    {p : Spot} → p.index = i → p.Ready false d → p.selections.get? d = some chosen →
    ∃ q, p.Arrives d (i + a.size) q ∧ Reaches g s p s q
  | .done, i, n, own, set, chosen, _, _, _, _, _, p, hi, hp, _ =>
    ⟨p, ⟨hi, hp.awake, rfl, fun _ _ => rfl⟩, .refl s p⟩
  | .arm weight body others, i, n, own, set, chosen, hl, hm, hset, hmem, hnot, p, hi, hp, hsel => by
    rw [Arms.positions, List.mem_cons, not_or] at hnot
    rw [Arms.markers] at hm
    have hlt : i < i + 1 + body.size := by omega
    have hat := weightAt_of_mem hg hl.head (hm _ List.mem_cons_self) hset hlt
    have hreach := reaches_weight (s := s) hat hi hp.awake (by rwa [hp.forgetDeeper]) hmem
    rw [hi, stopOf, if_neg hnot.1] at hreach
    have hq := hp.past (i + 1 + body.size)
    have hl' := (Stands.append hl.tail).2
    rw [Block.length_commands] at hl'
    have hm' : ∀ m ∈ others.markers d own (i + 1 + body.size)
        (n + (body.sets d (i + 1)).length), m ∈ g.table.markers :=
      fun m h => hm m (List.mem_cons_of_mem _ (List.mem_append_right _ h))
    obtain ⟨r, hr, hrest⟩ := others.reaches hg hl' hm' hset hmem hnot.2 hq.index (hq.ready hp)
      (by rwa [hq.selections])
    have hsize : i + (Arms.arm weight body others).size = i + 1 + body.size + others.size := by
      rw [Arms.size]
      omega
    rw [hsize]
    exact ⟨r, hq.trans hr, hreach.trans hrest⟩

/-- Behind the weight on which a choice fell stands the body that the tree runs; the bodies after it
are passed over. -/
theorem leads_chosen {weight : Json} {body : Block false} {others : Arms} {i k chosen : Nat}
    (hbody : Runs g false d (i + 1) (i + 1 + body.size) (body.run d))
    (hskip : ∀ {p : Spot} {s : Session}, p.index = i + 1 + body.size → p.Ready false d →
      p.selections.get? d = some chosen → chosen ∉ others.positions (i + 1 + body.size) →
      ∃ q, p.Arrives d (i + 1 + body.size + others.size) q ∧ Reaches g s p s q)
    (hothers : ∀ {p : Spot} {s : Session} {k : Nat}, p.index = i + 1 + body.size →
      p.Ready false d → p.selections.get? d = some chosen → s.running g = s →
      (others.positions (i + 1 + body.size))[k]? = some chosen →
      Leads g s p (others.run d k (s.running g)) (p.Arrives d (i + 1 + body.size + others.size)))
    (hk : ((Arms.arm weight body others).positions i)[k]? = some chosen)
    (hi : q.index = stopOf chosen i (i + 1 + body.size)) (hq : q.Ready false d)
    (hsel : q.selections.get? d = some chosen) (hs : s.running g = s) :
    Leads g s q ((Arms.arm weight body others).run d k (s.running g))
      (q.Arrives d (i + 1 + body.size + others.size)) := by
  cases k with
  | zero =>
      obtain rfl : i = chosen := by simpa [Arms.positions] using hk
      rw [stopOf, if_pos rfl] at hi
      refine (hbody hi hq hs).before fun t r _ hr => ?_
      have hnot : i ∉ others.positions (i + 1 + body.size) := fun h => by
        have := others.le_of_mem_positions h
        omega
      obtain ⟨r', hr', hreach⟩ :=
        hskip (s := t) hr.index (hr.ready hq) (by rwa [hr.selections]) hnot
      exact ⟨r', hr.trans hr', hreach⟩
  | succ k =>
      have hk' : (others.positions (i + 1 + body.size))[k]? = some chosen := by
        simpa [Arms.positions] using hk
      have hle := others.le_of_mem_positions (List.mem_of_getElem? hk')
      rw [stopOf, if_neg (by omega)] at hi
      exact hothers hi hq hsel hs hk'

/-- What is remembered once a choice has been made beside those further out. -/
theorem selections_choosing (hp : p.Ready true d) (n chosen : Nat) :
    ((p.past d n).choosing d chosen).selections = p.selections.insert d chosen := by
  rw [Spot.choosing]
  exact congrArg (OrderedMap.insert · d chosen) hp.forgetDeeper

/-- The end of a choice forgets it. -/
theorem reaches_forgetting {n j chosen : Nat} (hp : p.Ready true d)
    (hend : g.list[j]? = some (endAt d)) (hq : ((p.past d n).choosing d chosen).Arrives d j q) :
    ∃ r, p.Arrives d (j + 1) r ∧ Reaches g s q s r := by
  have hbelow := hp.below rfl
  have hkept : forgetDeeper d q.selections = p.selections.insert d chosen := by
    rw [hq.selections, selections_choosing hp, forgetDeeper_of_le (le_of_mem_insert hbelow chosen)]
  have hkey : ∃ k ∈ (forgetDeeper d q.selections).keys, d ≤ k := by
    refine ⟨d, ?_, Int.le_refl d⟩
    rw [hkept, OrderedMap.keys, entries_insert hbelow]
    simp
  have hreach := reaches_end (s := s) (by rwa [hq.index]) hq.awake hkey
  refine ⟨(q.past d (q.index + 1)).forgetting d, ⟨?_, hq.awake, ?_, fun k hk => ?_⟩, hreach⟩
  · change q.index + 1 = _
    rw [hq.index]
  · change forgetFrom d (forgetDeeper d q.selections) = _
    rw [hkept, forgetFrom_insert hbelow]
  · exact hq.outcomes k hk

/-- **A choice** draws once and runs the body that the draw falls on. -/
theorem runs_choice (hg : InOrder g.table) {weight : Json} {body : Block false} {more : Arms} {i n : Nat}
    (hl : Stands g.list i (weightAt d weight :: (body.commands d ++ (more.commands d ++ [endAt d]))))
    (hset : g.table.sets[n]? = some (choiceSet d i weight body more))
    (hm : (⟨i, d, false, some n, i + 1 + body.size⟩ : Marker) ∈ g.table.markers)
    (hchosen : ∀ {q : Spot} {s : Session} {k chosen : Nat},
      ((Arms.arm weight body more).positions i)[k]? = some chosen →
      q.index = stopOf chosen i (i + 1 + body.size) → q.Ready false d →
      q.selections.get? d = some chosen → s.running g = s →
      Leads g s q ((Arms.arm weight body more).run d k (s.running g))
        (q.Arrives d (i + 1 + body.size + more.size))) :
    Runs g true d i (i + 1 + body.size + more.size + 1) (do
      let k ← pick d (weightOf weight :: more.weights)
      (Arms.arm weight body more).run d k) := by
  intro p s hi hp hs
  have hbelow := hp.below rfl
  obtain ⟨k, hk, t, hpick⟩ :=
    pick_eq_ok d (List.cons_ne_nil (weightOf weight) more.weights) (s.running g)
  have ht := (blind_pick _).running_of_ok hpick
  have hlength : (choiceSet d i weight body more).branches.length =
      (choiceSet d i weight body more).weights.length := by
    simp only [choiceSet, List.length_cons, Arms.length_positions]
  have hat := weightAt_of_mem hg hl.head hm hset (by omega)
  have hreach := reaches_draw hat hi hp.awake rfl hlength (by simp [choiceSet])
    (by rw [hp.forgetDeeper]; exact get?_of_lt hbelow) hpick
  obtain ⟨chosen, hc⟩ : ∃ chosen, ((Arms.arm weight body more).positions i)[k]? = some chosen :=
    ⟨_, List.getElem?_eq_getElem (by
      rw [Arms.length_positions]
      exact hk)⟩
  have hgetD : (choiceSet d i weight body more).branches.getD k 0 = chosen := by
    rw [List.getD_eq_getElem?_getD]
    change (((Arms.arm weight body more).positions i)[k]?).getD 0 = _
    rw [hc]
    rfl
  rw [hgetD, hi] at hreach
  -- the choice is remembered beside those further out, until the end forgets it
  have hq : ((p.past d (stopOf chosen i (i + 1 + body.size))).choosing d chosen).Ready false d := by
    refine ⟨hp.awake, ?_, nofun⟩
    rw [selections_choosing hp]
    exact le_of_mem_insert hbelow chosen
  have hsel : ((p.past d (stopOf chosen i (i + 1 + body.size))).choosing d chosen).selections.get? d =
      some chosen := OrderedMap.get?_insert_self ..
  have hlead := hchosen hc rfl hq hsel ht
  rw [ht] at hlead
  rw [bind_of_ok hpick]
  have hend : g.list[i + 1 + body.size + more.size]? = some (endAt d) := by
    have := hl.tail.append.2.append.2.head
    rwa [Block.length_commands, Arms.length_commands] at this
  exact (hlead.before fun u r _ hr => reaches_forgetting hp hend hr).after hreach

/-! ### Blocks -/

theorem Arms.textLines_commands (d : Int) (a : Arms) {rest : List EventCommand}
    (h : textLines rest = .ok []) : textLines (a.commands d ++ rest) = .ok [] := by
  cases a with
  | done => exact h
  | arm weight body others => rfl

mutual

/-- **A block** that stands in a list leads to the position behind it as the tree runs. -/
theorem Block.runs (hg : InOrder g.table) (d : Int) : {choices : Bool} → (b : Block choices) → {i n : Nat} →
    Laid g i n (b.commands d) (b.sets d i) (b.markers d i n) →
    textLines (g.list.drop (i + b.size)) = .ok [] → Runs g choices d i (i + b.size) (b.run d)
  | _, .nil, i, _, _, _ => runs_pure g _ d i
  | choices, .leaf l rest, i, n, hlaid, hnext => by
    obtain ⟨hl, hsets, hm⟩ := hlaid
    rw [Block.size, ← Nat.add_assoc] at hnext ⊢
    obtain ⟨hleaf, hrest⟩ := Stands.append hl
    rw [Leaf.length_commands] at hrest
    have hbetween : textLines (g.list.drop (i + l.size)) = .ok [] := by
      rw [hrest.drop, Block.length_commands]
      exact rest.textLines_commands d hnext
    exact Runs.bind (Leaf.runs hleaf hbetween) (rest.runs hg d ⟨hrest, hsets, hm⟩ hnext)
  | choices, .branch params yes no rest, i, n, hlaid, hnext => by
    rw [Block.commands, Block.sets, Block.markers] at hlaid
    have hsize : i + (Block.branch params yes no rest : Block choices).size =
        i + 1 + yes.size + 1 + no.size + 1 + rest.size := by
      rw [Block.size]
      omega
    rw [hsize] at hnext ⊢
    have hwhole : Stands g.list i (branchAt d params ::
        (yes.commands (d + 1) ++ idleAt (d + 1) :: (no.commands d ++ [idleAt d]))) := by
      refine Stands.left (rest.commands d) ?_
      simpa using hlaid.list
    obtain ⟨hyes, hafter⟩ := hlaid.tail.append
    rw [Block.length_commands] at hafter
    obtain ⟨hno, hclose⟩ := hafter.tail.append
    rw [Otherwise.length_commands] at hclose
    have hcond : Runs g choices d i (i + 1 + yes.size + 1 + no.size + 1) (do
        let holds ← test 0 (conditionOf params)
        if holds then yes.run (d + 1) else no.run d) := runs_branch hwhole
      (yes.runs hg (d + 1) hyes (textLines_drop hafter.list fun _ => rfl)) (no.leads hg d hno)
    have := hcond.bind (rest.runs hg d hclose.tail hnext)
    rw [bind_assoc] at this
    exact this
  | _, .choice weight body more rest, i, n, hlaid, hnext => by
    rw [Block.commands, Block.sets, Block.markers] at hlaid
    have hsize : i + (Block.choice weight body more rest).size =
        i + 1 + body.size + more.size + 1 + rest.size := by
      rw [Block.size]
      omega
    rw [hsize] at hnext ⊢
    have hwhole : Stands g.list i
        (weightAt d weight :: (body.commands d ++ (more.commands d ++ [endAt d]))) := by
      refine Stands.left (rest.commands d) ?_
      simpa using hlaid.list
    obtain ⟨hset, hlaid⟩ := hlaid.pastSet
    obtain ⟨hm, hlaid⟩ := hlaid.pastMarker
    obtain ⟨hbody, hafter⟩ := hlaid.tail.append
    rw [Block.length_commands] at hafter
    obtain ⟨hmore, hclose⟩ := hafter.append
    rw [Arms.length_commands] at hclose
    have hmem : ∀ {k chosen : Nat}, ((Arms.arm weight body more).positions i)[k]? = some chosen →
        chosen ∈ (choiceSet d i weight body more).branches := List.mem_of_getElem?
    have hend : textLines (g.list.drop (i + 1 + body.size + more.size)) = .ok [] :=
      textLines_drop hclose.list fun _ => rfl
    have hbetween : textLines (g.list.drop (i + 1 + body.size)) = .ok [] := by
      rw [hmore.list.drop, Arms.length_commands]
      exact more.textLines_commands d hend
    have hbodyRuns := body.runs hg d hbody hbetween
    have hchoice := runs_choice hg hwhole hset hm
      fun hk hi hp hsel hs => leads_chosen hbodyRuns
        (fun hi hp hsel hnot => more.reaches hg hmore.list hmore.markers hset (hmem hk) hnot hi hp
          hsel)
        (fun hi hp hsel hs hk' => more.leads hg d hmore hset (hmem hk) hend hk' hi hp hsel hs)
        hk hi hp hsel hs
    have hrest := rest.runs hg d hclose.pastMarker.2.tail hnext
    have hrun : (Block.choice weight body more rest).run d = (do
        let k ← pick d (weightOf weight :: more.weights)
        (Arms.arm weight body more).run d k) >>= fun _ => rest.run d := by
      rw [bind_assoc]
      refine bind_congr fun k => ?_
      cases k <;> rfl
    rw [hrun]
    exact hchoice.bind hrest

/-- The alternative to a conditional that has failed. -/
theorem Otherwise.leads (hg : InOrder g.table) (d : Int) : (o : Otherwise) → {i n : Nat} →
    Laid g i n (o.commands d) (o.sets d i) (o.markers d i n) →
    {choices : Bool} → {p : Spot} → {s : Session} → p.index = i → p.Ready choices d →
    p.outcomes.get? d = some false → s.running g = s →
      Leads g s p (o.run d (s.running g)) (p.Arrives d (i + o.size))
  | .absent, i, n, _, choices, p, s, hi, hp, _, hs => runs_pure g choices d i hi hp hs
  | .present b, i, n, hlaid, choices, p, s, hi, hp, hout, hs => by
    rw [Otherwise.commands, Otherwise.sets, Otherwise.markers] at hlaid
    subst hi
    obtain ⟨hb, hclose⟩ := hlaid.list.tail.append
    rw [Block.length_commands] at hclose
    have hruns := b.runs hg (d + 1) ⟨hb, hlaid.sets, hlaid.markers⟩
      (textLines_drop hclose fun _ => rfl)
    have hq := hp.past (p.index + 1)
    have hlead := hruns.inside hclose.head rfl (hq.ready hp) hs
    have hsize : p.index + (Otherwise.present b).size = p.index + 1 + b.size + 1 := by
      rw [Otherwise.size]
      omega
    rw [hsize]
    exact (hlead.mono fun r hr => hq.trans hr.outside).after
      (reaches_otherwise hlaid.list.head hp.awake hout)

/-- The body of a choice that was chosen. -/
theorem Arms.leads (hg : InOrder g.table) (d : Int) : (a : Arms) → {i n own : Nat} → {set : BranchSet} →
    {chosen : Nat} → Laid g i n (a.commands d) (a.sets d i) (a.markers d own i n) →
    g.table.sets[own]? = some set → chosen ∈ set.branches →
    textLines (g.list.drop (i + a.size)) = .ok [] → {k : Nat} →
    (a.positions i)[k]? = some chosen → {p : Spot} → {s : Session} → p.index = i →
    p.Ready false d → p.selections.get? d = some chosen → s.running g = s →
      Leads g s p (a.run d k (s.running g)) (p.Arrives d (i + a.size))
  | .done, i, n, own, set, chosen, _, _, _, _, k, hk, p, s, _, _, _, _ => by
    rw [Arms.positions] at hk
    cases hk
  | .arm weight body others, i, n, own, set, chosen, hlaid, hset, hmem, hnext, k, hk, p, s, hi, hp,
      hsel, hs => by
    rw [Arms.commands, Arms.sets, Arms.markers] at hlaid
    have hsize : i + (Arms.arm weight body others).size = i + 1 + body.size + others.size := by
      rw [Arms.size]
      omega
    rw [hsize] at hnext ⊢
    have hweight := hlaid.list.head
    obtain ⟨hm, hlaid⟩ := hlaid.pastMarker
    obtain ⟨hbody, hothers⟩ := hlaid.tail.append
    rw [Block.length_commands] at hothers
    have hbetween : textLines (g.list.drop (i + 1 + body.size)) = .ok [] := by
      rw [hothers.list.drop, Arms.length_commands]
      exact others.textLines_commands d hnext
    have hbodyRuns := body.runs hg d hbody hbetween
    have hlt : i < i + 1 + body.size := by omega
    have hat := weightAt_of_mem hg hweight hm hset hlt
    have hreach := reaches_weight (s := s) hat hi hp.awake (by rwa [hp.forgetDeeper]) hmem
    rw [hi] at hreach
    have hq := hp.past (stopOf chosen i (i + 1 + body.size))
    have hlead := leads_chosen hbodyRuns
      (fun hi hp hsel hnot => others.reaches hg hothers.list hothers.markers hset hmem hnot hi hp
        hsel)
      (fun hi hp hsel hs hk' => others.leads hg d hothers hset hmem hnext hk' hi hp hsel hs)
      hk hq.index (hq.ready hp) (by rwa [hq.selections]) hs
    exact (hlead.mono fun r hr => hq.trans hr).after hreach

end

/-! ### Whole programs -/

/-- A command list that holds a whole tree comes to the end that the tree comes to. -/
theorem Block.comesTo (b : Block true) (hrun : g.isRunning = true) (hfree : g.awaited = none)
    (hlist : g.list = b.commands d) (htable : g.table = WeightTable.build (b.commands d))
    (outer : Option Nat) (hs : s.running g = s) :
    ∃ r, ComesTo g outer s {} r ∧
      onSession Session.bare r = onSession Session.bare
        (between id (fun _ t => { t with active := outer }) (b.run d) s) ∧
      ∀ t, r = .ok () t → t.interpreter.isRunning = false := by
  have hstand : ∀ {α : Type} (l : List α), Stands l 0 l := fun l => List.prefix_refl l
  have hlaid : Laid g 0 0 (b.commands d) (b.sets d 0) (b.markers d 0 0) := by
    rw [Block.build_commands] at htable
    refine ⟨?_, ?_, fun m hm => ?_⟩
    · rw [hlist]
      exact hstand _
    · rw [htable]
      exact hstand _
    · rwa [htable]
  have hg : InOrder g.table := by
    rw [htable]
    exact b.inOrder_build d
  have hsize : g.list.length = b.size := by rw [hlist, Block.length_commands]
  have hnext : textLines (g.list.drop (0 + b.size)) = .ok [] := by
    rw [Nat.zero_add, ← hsize, List.drop_length]
    rfl
  have hready : ({} : Spot).Ready true d := ⟨Int.le_refl 0, by simp, by simp⟩
  have hlead := b.runs hg d hlaid hnext (p := {}) rfl hready hs
  rw [hs] at hlead
  cases hr : b.run d s with
  | ok a t =>
      rw [hr] at hlead
      obtain ⟨-, q, hq, hreach⟩ := hlead
      have hend : q.index = g.list.length := by rw [hq.index, hsize, Nat.zero_add]
      refine ⟨_, hreach.comesTo hrun hfree (comesTo_of_end hrun hfree hq.awake hend), ?_, ?_⟩
      · rw [between, id, hr]
        rfl
      · intro v hv
        cases hv
        rfl
  | error e t =>
      rw [hr] at hlead
      obtain ⟨-, u, q, f, hreach, hawake, hplace, hstep⟩ := hlead
      refine ⟨_, hreach.comesTo hrun hfree (comesTo_of_error hrun hfree hawake hplace hstep), ?_, ?_⟩
      · rw [between, id, hr]
        rfl
      · intro v hv
        cases hv

/-- Setting up the list of a tree opens a list of its commands. -/
theorem setupInterpreter_flatten (b : Block true) (d event : Int) (s : Session) :
    ∃ u g, setupInterpreter (.arr (b.flatten d)) event s = .ok () u ∧
      u = { u.running g with active := u.active } ∧ g.isRunning = true ∧ g.awaited = none ∧
      g.list = b.commands d ∧ g.table = WeightTable.build (b.commands d) ∧ g.at {} = g := by
  have hread := b.readList_flatten d
  have hlift := lift_reading_of_ok hread (s.updateInterpreter Interpreter.clear)
  have hopen : openFrame (.arr (b.flatten d)) event (s.updateInterpreter Interpreter.clear) =
      .ok
        { map := s.map.id
          event := event
          commands := some (b.commands d)
          table := WeightTable.build (b.commands d) }
        { s.updateInterpreter Interpreter.clear with
          notices := s.notices ++ (EventCommand.readList (.arr (b.flatten d))).notices } := by
    rw [openFrame, get_bind_apply]
    exact bind_of_ok hlift
  have hsetup := modify_bind_apply (Session.updateInterpreter Interpreter.clear) (fun _ => do
    let frame ← openFrame (.arr (b.flatten d)) event
    modify (Session.updateInterpreter fun _ => { root := frame })) s
  rw [bind_of_ok hopen] at hsetup
  exact ⟨_, _, hsetup, rfl, rfl, rfl, rfl, rfl, rfl⟩

/-- **Running what the editor writes is running the tree.**  The command list of a tree is set up,
and it is run until it has ended, in however many frames its waits take.  What this does to the game
is what the tree does, in one go; where the tree fails, it fails with the same fault. -/
theorem runUntilStopped_flatten (b : Block true) (d event : Int) (s : Session) :
    ∃ u, setupInterpreter (.arr (b.flatten d)) event s = .ok () u ∧
      ∃ enough, ∀ frames ≥ enough,
        onSession Session.bare (runUntilStopped frames u) =
          onSession Session.bare (asActive 0 (b.run d) u) ∧
        ∀ t, runUntilStopped frames u = .ok () t → t.interpreter.isRunning = false := by
  obtain ⟨u, g, hsetup, hu, hrun, hfree, hlist, htable, hat⟩ := setupInterpreter_flatten b d event s
  obtain ⟨r, hcomes, hbare, hstopped⟩ := b.comesTo hrun hfree hlist htable u.active
    (s := u.running g) rfl
  obtain ⟨enough, henough⟩ := hcomes.runUntilStopped hrun
  refine ⟨u, hsetup, enough, fun frames hframes => ?_⟩
  have hruns := henough frames hframes
  rw [Session.running_running, hat, ← hu] at hruns
  rw [hruns]
  refine ⟨?_, hstopped⟩
  have hactive := asActive_running (b.run d) u g u.active
  rw [← hu] at hactive
  rw [hactive]
  exact hbare

end Program

end EventLayer
