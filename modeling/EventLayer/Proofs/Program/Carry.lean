/-
**Carrying out the commands of a tree.**

At a spot of a list that was written from a tree there stands a leaf, a conditional, an alternative,
a weight, or a command that ends something.  This module says for each of them where the list goes
on and what it remembers.  A step that fails does so in a session in which the operation that the
tree carries out there fails as well.

Main definitions:

* `Program.Leads` — what a list does from a spot on, and what the tree does;
* `Spot.past` — a spot at which a command of an indentation has been carried out.

Main results:

* `Program.Leads.bind` — one part of a tree after the other;
* `Program.leads_leaf` — leaves;
* `Program.reaches_holds`, `Program.reaches_fails` — conditionals;
* `Program.reaches_otherwise`, `Program.reaches_passed` — alternatives;
* `Program.reaches_draw`, `Program.reaches_weight`, `Program.reaches_end` — random choices.
-/
import EventLayer.Proofs.OrderedMap
import EventLayer.Proofs.Program.Frames
import EventLayer.Proofs.Program.Leaf
import EventLayer.Proofs.Program.Table
import EventLayer.Proofs.Stands

set_option autoImplicit false
set_option relaxedAutoImplicit false

namespace EventLayer

/-- A spot at which a command of an indentation has been carried out, and `n` is the position of the
next one. -/
def Spot.past (p : Spot) (d : Int) (n : Nat) : Spot :=
  { p with index := n, indent := d, selections := Play.forgetDeeper d p.selections }

/-- Where a leaf leaves the list: behind it, with nothing left to wait for. -/
def Spot.Behind (p : Spot) (d : Int) (n : Nat) (q : Spot) : Prop :=
  ∃ w ≤ 0, q = (p.past d n).waiting w

/-- The outcome of a conditional is remembered at its indentation. -/
def Spot.noting (p : Spot) (d : Int) (holds : Bool) : Spot :=
  { p with outcomes := p.outcomes.insert d holds }

/-- A choice is remembered at its indentation, with the position of the weight it fell on. -/
def Spot.choosing (p : Spot) (d : Int) (chosen : Nat) : Spot :=
  { p with selections := p.selections.insert d chosen }

/-- The choices made at an indentation and beyond are over. -/
def Spot.forgetting (p : Spot) (d : Int) : Spot :=
  { p with selections := Play.forgetFrom d p.selections }

namespace Program

open Play

variable {g : Frame} {s t u : Session} {p q : Spot}

/-! ### What the list does and what the tree does -/

/-- From a spot on, the list comes to a spot of a kind with the session that a part of the tree
leaves, or fails where that part fails. -/
def Leads (g : Frame) (s : Session) (p : Spot) (r : EStateM.Result Fault Session Unit)
    (arrives : Spot → Prop) : Prop :=
  match r with
  | .ok _ t => t.running g = t ∧ ∃ q, arrives q ∧ Reaches g s p t q
  | .error e t => t.running g = t ∧ ∃ u q f, Reaches g s p u q ∧ q.waitCount ≤ 0 ∧
      q.index ≤ g.list.length ∧ step 0 (u.running (g.at q)) = .error e (t.running f)

variable {arrives arrives' : Spot → Prop} {r : EStateM.Result Fault Session Unit}

/-- A part that does nothing, where the list is there already. -/
theorem leads_here (hs : s.running g = s) (hp : arrives p) : Leads g s p (.ok () s) arrives :=
  ⟨hs, p, hp, .refl s p⟩

/-- What the list does before the part makes no difference to the session. -/
theorem Leads.after (h : Reaches g s p t q) (h' : Leads g t q r arrives) :
    Leads g s p r arrives := by
  cases r with
  | ok a v =>
      obtain ⟨hv, q', hq', hr⟩ := h'
      exact ⟨hv, q', hq', h.trans hr⟩
  | error e v =>
      obtain ⟨hv, u, q', f, hr, hrest⟩ := h'
      exact ⟨hv, u, q', f, h.trans hr, hrest⟩

/-- What the list does after the part makes no difference to the session. -/
theorem Leads.before (h : Leads g s p r arrives)
    (h' : ∀ t q, t.running g = t → arrives q → ∃ q', arrives' q' ∧ Reaches g t q t q') :
    Leads g s p r arrives' := by
  cases r with
  | ok a t =>
      obtain ⟨ht, q, hq, hr⟩ := h
      obtain ⟨q', hq', hr'⟩ := h' t q ht hq
      exact ⟨ht, q', hq', hr.trans hr'⟩
  | error e t => exact h

theorem Leads.mono (h : Leads g s p r arrives) (h' : ∀ q, arrives q → arrives' q) :
    Leads g s p r arrives' := h.before fun t q _ hq => ⟨q, h' q hq, .refl t q⟩

/-- **One part of a tree after the other.** -/
theorem Leads.bind {x y : Play Unit} (hx : Leads g s p (x (s.running g)) arrives)
    (hy : ∀ t q, t.running g = t → arrives q → Leads g t q (y (t.running g)) arrives') :
    Leads g s p ((x >>= fun _ => y) (s.running g)) arrives' := by
  rw [bind_apply]
  cases hr : x (s.running g) with
  | ok a t =>
      rw [hr] at hx
      obtain ⟨ht, q, hq, hreach⟩ := hx
      have := hy t q ht hq
      rw [ht] at this
      exact this.after hreach
  | error e t =>
      rw [hr] at hx
      exact hx

/-! ### A step -/

section Step

variable {c : EventCommand}

/-- The next command of a list at a spot is carried out there. -/
theorem step_at (hc : g.list[p.index]? = some c) (hcmd : c.indent? = .ok c.indent) :
    step 0 (s.running (g.at p)) = (do
      let next ← carryOut 0 c.instruction
      modify (Session.updateFrame 0 fun f => { f with index := next }) : Play Unit)
        (s.running (g.at (p.enter c))) := by
  have hplace : (g.at p).place = p.index := Frame.place_of_nonneg rfl
  have hlist : (g.at p).list = g.list := rfl
  have hframe : (s.running (g.at p)).frame 0 = g.at p := rfl
  have hshown : c.instruction ≠ .blank ∧ c.instruction ≠ .faulty .notAnObject := by
    constructor
    · intro h
      rw [EventCommand.indent?, h] at hcmd
      cases hcmd
    · intro h
      rw [EventCommand.indent?, h] at hcmd
      cases hcmd
  have hcurrent : (g.at p).current? = some c := by
    rw [Frame.current?, hplace, hlist, hc, Option.filter_some, if_pos]
    cases hi : c.instruction <;> first | rfl | exact absurd hi hshown.1
  rw [step, get_bind_apply, hframe, hcurrent]
  dsimp only
  rw [if_neg]
  · rfl
  · intro h
    split at h
    · rename_i hi
      exact hshown.2 hi
    · cases h

/-- A command that is carried out moves the list on. -/
theorem reaches_command (hc : g.list[p.index]? = some c) (hcmd : c.indent? = .ok c.indent)
    (hw : p.waitCount ≤ 0) {n : Nat} (hn : p.index < n)
    (hcarry : carryOut 0 c.instruction (s.running (g.at (p.enter c))) = .ok n (t.running (g.at q))) :
    Reaches g s p t { q with index := n } := by
  have hplace : p.index < g.list.length := (List.getElem?_eq_some_iff.1 hc).1
  refine .step hplace hw ?_ hn (.refl t _)
  rw [step_at hc hcmd, bind_of_ok hcarry]
  rfl

/-- A command that fails. -/
theorem leads_error (hc : g.list[p.index]? = some c) (hcmd : c.indent? = .ok c.indent)
    (hw : p.waitCount ≤ 0) {e : Fault} {f : Frame} (ht : t.running g = t)
    (hcarry : carryOut 0 c.instruction (s.running (g.at (p.enter c))) = .error e (t.running f)) :
    Leads g s p (.error e t) arrives := by
  have hplace : p.index < g.list.length := (List.getElem?_eq_some_iff.1 hc).1
  refine ⟨ht, s, p, f, .refl s p, hw, Nat.le_of_lt hplace, ?_⟩
  rw [step_at hc hcmd, bind_of_error hcarry]

/-- A command that carries a blind operation out and goes on at a position. -/
theorem leads_blind (hc : g.list[p.index]? = some c) (hcmd : c.indent? = .ok c.indent)
    (hw : p.waitCount ≤ 0) {act : Play Unit} (hact : act.Blind g) {n : Nat} (hn : p.index < n)
    (hcarry : carryOut 0 c.instruction (s.running (g.at (p.enter c))) =
      (do act; pure n : Play Int) (s.running (g.at (p.enter c)))) :
    Leads g s p (act (s.running g)) (· = p.past c.indent n) := by
  have hblind := hact (g.at (p.enter c)) (Frame.at_actsAs g _) s
  rw [bind_apply, hblind] at hcarry
  cases hr : act (s.running g) with
  | ok a t =>
      rw [hr] at hcarry
      exact ⟨hact.running_of_ok hr, _, rfl, reaches_command hc hcmd hw hn hcarry⟩
  | error e t =>
      rw [hr] at hcarry
      exact leads_error hc hcmd hw (hact.running_of_error hr) hcarry

/-- A command that does nothing. -/
theorem reaches_idle {d : Int} (hc : g.list[p.index]? = some (idleAt d)) (hw : p.waitCount ≤ 0) :
    Reaches g s p s (p.past d (p.index + 1)) :=
  reaches_command (t := s) (q := p.enter (idleAt d)) hc rfl hw (Nat.lt_succ_self _) rfl

end Step

/-! ### Leaves -/

/-- A plain instruction is followed by the next command. -/
theorem carryOut_plain {i : Instruction} (hi : i.IsPlain) (s : Session) :
    carryOut 0 i s = (do carryOutPlain 0 i; pure ((s.frame 0).index + 1) : Play Int) s := by
  cases i <;> first | exact hi.elim | rfl

theorem leads_plain {d : Int} {i : Instruction} (hi : i.IsPlain)
    (hc : g.list[p.index]? = some { indent := d, instruction := i }) (hw : p.waitCount ≤ 0)
    (hs : s.running g = s) :
    Leads g s p (runPlain i (s.running g)) (Spot.Behind p d (p.index + 1)) := by
  have hcmd := indent?_plain hi d .plain
  by_cases hwaits : ∃ n, i = .wait n
  · obtain ⟨n, rfl⟩ := hwaits
    have hplace := (List.getElem?_eq_some_iff.1 hc).1
    have hreach : Reaches g s p s ((p.past d (p.index + 1)).waiting n) :=
      reaches_command (q := (p.enter { indent := d, instruction := .wait n }).waiting n)
        hc hcmd hw (Nat.lt_succ_self _) rfl
    obtain ⟨w, hw', hout⟩ :=
      Reaches.wait_out g s (p := (p.past d (p.index + 1)).waiting n) hplace
    refine ⟨rfl, _, ⟨w, hw', rfl⟩, ?_⟩
    rw [hs]
    exact hreach.trans hout
  · rw [not_exists] at hwaits
    rw [runPlain_of_ne_wait hwaits]
    have hlead := leads_blind (s := s) hc hcmd hw (blind_carryOutPlain hi hwaits)
      (Nat.lt_succ_self p.index) (carryOut_plain hi _)
    refine hlead.mono fun q hq => ⟨p.waitCount, hw, ?_⟩
    rw [hq]
    rfl

/-- A text takes its lines with it. -/
theorem carryOut_text {d : Int} {f : Frame} (params : Json) {lines : List Json}
    {rest : List EventCommand} (hrest : textLines rest = .ok [])
    (hf : f.following =
      lines.map (fun l => { indent := d, instruction := .textLine (lineOf l) }) ++ rest) :
    carryOut 0 .showText (s.running f) = (do
      (Leaf.text params lines).run
      pure (f.index + 1 + lines.length) : Play Int) (s.running f) := by
  have hframe : (s.running f).frame 0 = f := rfl
  have hlines : textLines f.following = linesOf lines := by
    rw [hf]
    exact textLines_map d lines hrest
  rw [carryOut, get_bind_apply, hframe]
  simp only [hlines]
  rw [Leaf.run]
  cases h : linesOf lines with
  | error e => rfl
  | ok texts =>
      rw [← length_linesOf h]
      rfl

/-- **A leaf** that stands at a spot, with no line of text behind it. -/
theorem leads_leaf {d : Int} {l : Leaf} (hl : Stands g.list p.index (l.commands d))
    (hnext : textLines (g.list.drop (p.index + l.size)) = .ok []) (hw : p.waitCount ≤ 0)
    (hs : s.running g = s) :
    Leads g s p (l.run (s.running g)) (Spot.Behind p d (p.index + l.size)) := by
  cases l with
  | plain code isPlain params =>
      exact leads_plain (isPlain_instructionOf isPlain params) hl.head hw hs
  | text params lines =>
      have hsize : p.index + (Leaf.text params lines).size = p.index + 1 + lines.length := by
        rw [Leaf.size]
        omega
      rw [hsize] at hnext ⊢
      have hfollowing : (g.at (p.enter { indent := d, instruction := .showText })).following =
          lines.map (fun l => { indent := d, instruction := .textLine (lineOf l) }) ++
            g.list.drop (p.index + 1 + lines.length) := by
        have hdrop := hl.tail.drop
        rw [List.length_map] at hdrop
        exact hdrop
      have hcarry := carryOut_text (s := s) params hnext hfollowing
      have hlt : p.index < p.index + 1 + lines.length := by omega
      have hlead := leads_blind hl.head rfl hw (Leaf.blind_run (.text params lines)) hlt hcarry
      refine hlead.mono fun q hq => ⟨p.waitCount, hw, ?_⟩
      rw [hq]
      rfl

/-! ### Conditionals -/

section Conditional

variable {d : Int}

/-- The test of a conditional fails where the tree's fails. -/
theorem leads_test_error {params : Json} {e : Fault}
    (hc : g.list[p.index]? = some (branchAt d params)) (hw : p.waitCount ≤ 0)
    (htest : test 0 (conditionOf params) (s.running g) = .error e t) :
    Leads g s p (.error e t) arrives := by
  have hblind := blind_test (conditionOf params) (g.at (p.enter (branchAt d params)))
    (Frame.at_actsAs g _) s
  rw [htest] at hblind
  refine leads_error (f := g.at (p.enter (branchAt d params))) hc rfl hw
    ((blind_test _).running_of_error htest) ?_
  change carryOut 0 (.branch (conditionOf params)) _ = _
  rw [carryOut, get_bind_apply]
  exact bind_of_error hblind

/-- A condition that holds lets the list go on with what is inside. -/
theorem reaches_holds {params : Json} (hc : g.list[p.index]? = some (branchAt d params))
    (hw : p.waitCount ≤ 0) (htest : test 0 (conditionOf params) (s.running g) = .ok true t) :
    Reaches g s p t ((p.past d (p.index + 1)).noting d true) := by
  have hblind := blind_test (conditionOf params) (g.at (p.enter (branchAt d params)))
    (Frame.at_actsAs g _) s
  rw [htest] at hblind
  refine reaches_command (q := (p.enter (branchAt d params)).noting d true) hc rfl hw
    (Nat.lt_succ_self _) ?_
  change carryOut 0 (.branch (conditionOf params)) _ = _
  rw [carryOut, get_bind_apply]
  exact bind_of_ok hblind

/-- A condition that fails lets the list pass over what is inside. -/
theorem reaches_fails {params : Json} {inside : List EventCommand} {c : EventCommand}
    (hc : Stands g.list p.index (branchAt d params :: (inside ++ [c])))
    (hinside : ∀ c ∈ inside, Within (d + 1) c) (hnext : c.indent? = .ok d)
    (hw : p.waitCount ≤ 0) (htest : test 0 (conditionOf params) (s.running g) = .ok false t) :
    Reaches g s p t ((p.past d (p.index + 1 + inside.length)).noting d false) := by
  have hblind := blind_test (conditionOf params) (g.at (p.enter (branchAt d params)))
    (Frame.at_actsAs g _) s
  rw [htest] at hblind
  have hpass : passOver d (g.at (p.enter (branchAt d params))).following = .ok inside.length := by
    change passOver d (g.list.drop (p.index + 1)) = _
    rw [hc.tail.drop, List.append_assoc]
    exact passOver_append hinside hnext _
  have hlt : p.index < p.index + 1 + inside.length := by omega
  refine reaches_command (q := (p.enter (branchAt d params)).noting d false) hc.head rfl hw hlt ?_
  change carryOut 0 (.branch (conditionOf params)) _ = _
  rw [carryOut, get_bind_apply]
  refine (bind_of_ok hblind).trans ?_
  change (do
    return ((p.index : Int) + 1 + (← passOver d (g.at (p.enter (branchAt d params))).following)) :
      Play Int) (t.running (g.at ((p.enter (branchAt d params)).noting d false))) = _
  rw [hpass]
  rfl

theorem carryOut_otherwise_of_ne {f : Frame} {n : Nat} (h : f.outcomes.get? f.indent ≠ some false)
    (hpass : passOver f.indent f.following = .ok n) :
    carryOut 0 .otherwise (s.running f) = .ok (f.index + 1 + n) (s.running f) := by
  have hframe : (s.running f).frame 0 = f := rfl
  rw [carryOut, get_bind_apply, hframe]
  dsimp only
  rw [if_neg h, hpass]
  rfl

theorem carryOut_otherwise_of_eq {f : Frame} (h : f.outcomes.get? f.indent = some false) :
    carryOut 0 .otherwise (s.running f) = .ok (f.index + 1) (s.running f) := by
  have hframe : (s.running f).frame 0 = f := rfl
  rw [carryOut, get_bind_apply, hframe]
  dsimp only
  rw [if_pos h]
  rfl

/-- An alternative is passed over unless the conditional before it has failed. -/
theorem reaches_passed {inside : List EventCommand} {c : EventCommand}
    (hc : Stands g.list p.index (otherwiseAt d :: (inside ++ [c])))
    (hinside : ∀ c ∈ inside, Within (d + 1) c) (hnext : c.indent? = .ok d)
    (hw : p.waitCount ≤ 0) (hout : p.outcomes.get? d ≠ some false) :
    Reaches g s p s (p.past d (p.index + 1 + inside.length)) := by
  have hpass : passOver d (g.at (p.enter (otherwiseAt d))).following = .ok inside.length := by
    change passOver d (g.list.drop (p.index + 1)) = _
    rw [hc.tail.drop, List.append_assoc]
    exact passOver_append hinside hnext _
  have hlt : p.index < p.index + 1 + inside.length := by omega
  exact reaches_command (q := p.enter (otherwiseAt d)) hc.head rfl hw hlt
    (carryOut_otherwise_of_ne hout hpass)

/-- An alternative is gone through where the conditional before it has failed. -/
theorem reaches_otherwise (hc : g.list[p.index]? = some (otherwiseAt d)) (hw : p.waitCount ≤ 0)
    (hout : p.outcomes.get? d = some false) :
    Reaches g s p s (p.past d (p.index + 1)) :=
  reaches_command (q := p.enter (otherwiseAt d)) hc rfl hw (Nat.lt_succ_self _)
    (carryOut_otherwise_of_eq hout)

end Conditional

/-! ### Random choices -/

section Choice

variable {d : Int}

theorem firstExceeding_map {α ι κ : Type} [Add α] [LT α] [DecidableLT α] (f : ι → κ) (draw acc : α)
    (l : List (ι × α)) :
    firstExceeding draw acc (l.map (Prod.map f id)) = (firstExceeding draw acc l).map f := by
  induction l generalizing acc with
  | nil => rfl
  | cons e rest ih =>
      obtain ⟨i, w⟩ := e
      simp only [List.map_cons, Prod.map_apply, id, firstExceeding]
      split
      · rfl
      · exact ih _

/-- The positions of a set are those that its numbers stand for. -/
theorem zip_eq_map {positions : List Nat} {weights : List Double}
    (h : positions.length = weights.length) :
    positions.zip weights =
      ((List.range weights.length).zip weights).map (Prod.map (fun n => positions.getD n 0) id) := by
  apply List.ext_getElem
  · simp [h]
  · intro n hn hn'
    have hlt : n < positions.length := by
      rw [List.length_zip] at hn
      omega
    simp [List.getElem?_eq_getElem hlt]

/-- A set is drawn from as its weights are. -/
theorem select?_eq {set : BranchSet} (h : set.branches.length = set.weights.length)
    (hne : set.weights ≠ []) (draw : Double) (d : Nat) :
    (set.select? draw).getD d = set.branches.getD (fallsOn draw set.weights) 0 := by
  have hpos := List.length_pos_iff.2 hne
  rw [BranchSet.select?, zip_eq_map h, firstExceeding_map, fallsOn]
  cases firstExceeding draw (.finite 0) ((List.range set.weights.length).zip set.weights) with
  | some n => rfl
  | none =>
      have hlast : set.branches.length - 1 < set.branches.length := by omega
      simp only [Option.map_none, Option.none_or, Option.getD_none]
      rw [List.getLast?_eq_getElem?, ← h, List.getElem?_eq_getElem hlast,
        List.getD_eq_getElem?_getD, List.getElem?_eq_getElem hlast]
      rfl

theorem drawBranch_eq {set : BranchSet} (h : set.branches.length = set.weights.length)
    (hne : set.weights ≠ []) (s : Session) :
    drawBranch set s =
      (do let n ← pick set.depth set.weights; pure (set.branches.getD n 0) : Play Nat) s := by
  have hne' : set.branches ≠ [] := by
    intro hnil
    rw [hnil] at h
    exact hne (List.length_eq_zero_iff.1 h.symm)
  have htotal : set.total = total set.weights := rfl
  cases ht : (total set.weights).atMost (.finite 0) with
  | true =>
      rw [bind_of_ok (pick_of_atMost ht s), drawBranch, htotal, if_pos ht]
      obtain ⟨b, rest, hb⟩ := List.exists_cons_of_ne_nil hne'
      rw [hb]
      rfl
  | false =>
      rw [bind_of_ok (pick_of_not_atMost ht s), drawBranch, htotal,
        if_neg (by rw [ht]; exact Bool.false_ne_true)]
      simp only [get_bind_apply]
      change EStateM.Result.ok ((set.select? _).getD _) _ = _
      rw [select?_eq h hne]
      rfl

theorem blind_pick (weights : List Double) : (pick d weights).Blind g := by
  intro f _ s
  cases ht : (total weights).atMost (.finite 0) with
  | true =>
      rw [pick_of_atMost ht, pick_of_atMost ht]
      rfl
  | false =>
      rw [pick_of_not_atMost ht, pick_of_not_atMost ht]
      rfl

/-! ### Weights and the ends of choices -/

section Weigh

variable {f : Frame} {m : Marker} {set : BranchSet} {chosen : Nat}
  (hm : f.table.marker? f.index = some m) (hset : setOf? f.table m = some set)
include hm hset

/-- A weight of a set that has been drawn from. -/
theorem weigh_of_chosen (hchosen : f.selections.get? f.indent = some chosen)
    (hmem : chosen ∈ set.branches) :
    weigh 0 (s.running f) =
      .ok (if (chosen : Int) = f.index then none else some m.nextStop) (s.running f) := by
  have hframe : (s.running f).frame 0 = f := rfl
  have hkept : (f.selections.get? f.indent).filter set.branches.contains = some chosen := by
    rw [hchosen, Option.filter_some, if_pos (by simpa using hmem)]
  rw [weigh, get_bind_apply, hframe]
  simp only [hm, hset, hkept]
  rfl

/-- The first weight of a set: it is drawn from. -/
theorem weigh_of_none (hnone : f.selections.get? f.indent = none) :
    weigh 0 (s.running f) = (do
      let chosen ← drawBranch set
      modify (Session.updateFrame 0 fun f =>
        { f with selections := f.selections.insert f.indent chosen })
      pure (if (chosen : Int) = f.index then none else some m.nextStop) : Play (Option Nat))
        (s.running f) := by
  have hframe : (s.running f).frame 0 = f := rfl
  rw [weigh, get_bind_apply, hframe]
  simp only [hm, hset, hnone, Option.filter_none]
  rfl

end Weigh

/-- A weight goes on with its body if it is the one chosen, and else where its body ends. -/
def stopOf (chosen i stop : Nat) : Nat := if chosen = i then i + 1 else stop

/-- A call of this layer lets the list go on where it says. -/
theorem carryOut_weight (args : OrderedMap String Json) (s : Session) :
    carryOut 0 (.plugin ⟨layerName, weightCommand, args⟩) s = (do
      match ← weigh 0 with
      | some stop => return stop
      | none => return (s.frame 0).index + 1 : Play Int) s := rfl

theorem goOn_eq (chosen i stop : Nat) (s : Session) :
    (match (if (chosen : Int) = (i : Int) then none else some stop : Option Nat) with
      | some stop => pure (stop : Int)
      | none => pure ((i : Int) + 1) : Play Int) s = .ok (stopOf chosen i stop) s := by
  unfold stopOf
  by_cases h : chosen = i
  · subst h
    simp
  · rw [if_neg h, if_neg (by omega)]
    rfl

/-- What stands at a weight command: its marker, and the set that it belongs to. -/
structure WeightAt (g : Frame) (d : Int) (weight : Json) (m : Marker) (set : BranchSet) : Prop where
  command : g.list[m.index]? = some (weightAt d weight)
  marker : g.table.marker? m.index = some m
  isOf : setOf? g.table m = some set
  further : m.index < m.nextStop

section WeightAt

variable {weight : Json} {m : Marker} {set : BranchSet} (hat : WeightAt g d weight m set)
  (hp : p.index = m.index) (hw : p.waitCount ≤ 0)
include hat hp hw

/-- **A weight of a choice that has been made.** -/
theorem reaches_weight {chosen : Nat}
    (hchosen : (forgetDeeper d p.selections).get? d = some chosen) (hmem : chosen ∈ set.branches) :
    Reaches g s p s (p.past d (stopOf chosen p.index m.nextStop)) := by
  have hc : g.list[p.index]? = some (weightAt d weight) := by
    rw [hp]
    exact hat.command
  have hlt : p.index < stopOf chosen p.index m.nextStop := by
    have := hat.further
    unfold stopOf
    split <;> omega
  refine reaches_command (q := p.enter (weightAt d weight)) hc rfl hw hlt ?_
  have hm : (g.at (p.enter (weightAt d weight))).table.marker?
      (g.at (p.enter (weightAt d weight))).index = some m := by
    change g.table.marker? p.index = some m
    rw [hp]
    exact hat.marker
  have hweigh := weigh_of_chosen (s := s) hm hat.isOf hchosen hmem
  refine (carryOut_weight _ _).trans ((bind_of_ok hweigh).trans ?_)
  exact goOn_eq chosen p.index m.nextStop _

/-- **The first weight of a choice** draws as the tree does. -/
theorem reaches_draw {n : Nat} (hset : set.depth = d)
    (hlength : set.branches.length = set.weights.length) (hne : set.weights ≠ [])
    (hnone : (forgetDeeper d p.selections).get? d = none)
    (hpick : pick d set.weights (s.running g) = .ok n t) :
    Reaches g s p t
      ((p.past d (stopOf (set.branches.getD n 0) p.index m.nextStop)).choosing d
        (set.branches.getD n 0)) := by
  have hc : g.list[p.index]? = some (weightAt d weight) := by
    rw [hp]
    exact hat.command
  have hlt : p.index < stopOf (set.branches.getD n 0) p.index m.nextStop := by
    have := hat.further
    unfold stopOf
    split <;> omega
  refine reaches_command
    (q := (p.enter (weightAt d weight)).choosing d (set.branches.getD n 0)) hc rfl hw hlt ?_
  have hm : (g.at (p.enter (weightAt d weight))).table.marker?
      (g.at (p.enter (weightAt d weight))).index = some m := by
    change g.table.marker? p.index = some m
    rw [hp]
    exact hat.marker
  have hblind := blind_pick (d := d) set.weights (g.at (p.enter (weightAt d weight)))
    (Frame.at_actsAs g _) s
  rw [hpick] at hblind
  have hdraw : drawBranch set (s.running (g.at (p.enter (weightAt d weight)))) =
      .ok (set.branches.getD n 0) (t.running (g.at (p.enter (weightAt d weight)))) := by
    rw [drawBranch_eq hlength hne, hset]
    exact bind_of_ok hblind
  have hweigh := weigh_of_none (s := s) hm hat.isOf hnone
  rw [bind_of_ok hdraw] at hweigh
  refine (carryOut_weight _ _).trans ((bind_of_ok hweigh).trans ?_)
  exact goOn_eq (set.branches.getD n 0) p.index m.nextStop _

end WeightAt

theorem endWeights_of_any {f : Frame} (h : (f.selections.keys.any fun i => f.indent ≤ i) = true) :
    endWeights 0 (s.running f) =
      .ok () (s.running { f with selections := forgetFrom f.indent f.selections }) := by
  have hframe : (s.running f).frame 0 = f := rfl
  rw [endWeights, get_bind_apply, hframe, if_pos h]
  rfl

/-- **The end of a choice** forgets what was chosen. -/
theorem reaches_end (hc : g.list[p.index]? = some (endAt d)) (hw : p.waitCount ≤ 0)
    (hkey : ∃ k ∈ (forgetDeeper d p.selections).keys, d ≤ k) :
    Reaches g s p s ((p.past d (p.index + 1)).forgetting d) := by
  refine reaches_command (q := (p.enter (endAt d)).forgetting d) hc rfl hw (Nat.lt_succ_self _) ?_
  have hany : ((g.at (p.enter (endAt d))).selections.keys.any
      fun i => (g.at (p.enter (endAt d))).indent ≤ i) = true := by
    obtain ⟨k, hk, hle⟩ := hkey
    exact List.any_eq_true.2 ⟨k, hk, decide_eq_true hle⟩
  have hcall : carryOutCall 0 ⟨layerName, endCommand, ∅⟩ (s.running (g.at (p.enter (endAt d)))) =
      .ok none (s.running (g.at ((p.enter (endAt d)).forgetting d))) := by
    change (do endWeights 0; return none : Play (Option Nat)) _ = _
    rw [bind_of_ok (endWeights_of_any hany)]
    rfl
  change carryOut 0 (.plugin ⟨layerName, endCommand, ∅⟩) _ = _
  rw [carryOut, get_bind_apply]
  exact bind_of_ok hcall

end Choice

end Program

end EventLayer
