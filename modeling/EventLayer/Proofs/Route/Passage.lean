/-
**Routes are gone through as trees.**

A character's position in a route and the stack of branches it has taken stand for a place in the
tree that the route was flattened from, together with what is left of the tree from there on.  A
frame keeps this: the deeds of the frame, followed by any deeds that pass through what is left after
it, pass through what was left before it.  So over the frames of one passage the deeds are those of
a passage through the tree, whatever the conditions answer, whichever steps are blocked, and
whatever happens between the frames.

Main definitions:

* `Route.openAt` — the number of chains open at a position;
* `Route.Standing` — a place in the tree, and the deeds that lead from there to the end;
* `RoutePassage` — the frames of a passage, with what happens in between.

Main results:

* `Play.follows` — what a frame goes past;
* `RoutePassage.passes` — **a route is gone through as the tree that it was flattened from**.
-/
import Mathlib.Algebra.Ring.Int.Defs
import EventLayer.Proofs.Route.Jumps
import EventLayer.Proofs.Route.Record
import EventLayer.Proofs.Stands

set_option autoImplicit false
set_option relaxedAutoImplicit false

namespace EventLayer

/-! ### Places in the tree -/

/-- How many chains a step opens, counted negative if it closes one. -/
def RouteStep.level (s : RouteStep) : Int :=
  match s.marker? with
  | some .opening => 1
  | some .closing => -1
  | _ => 0

namespace Route

/-- The number of chains that are open at a position; a chain is open at its alternatives and at its
closing marker. -/
def openAt (r : Route) (i : Nat) : Int := ((r.steps.take i).map RouteStep.level).sum

/-- The chains open behind some steps. -/
theorem openAt_add {r : Route} {i : Nat} {l : List RouteStep} (h : Stands r.steps i l) :
    r.openAt (i + l.length) = r.openAt i + (l.map RouteStep.level).sum := by
  obtain ⟨rest, h⟩ := h
  rw [Route.openAt, List.take_add, ← h, List.take_left, List.map_append, List.sum_append]
  rfl

end Route

mutual

/-- A body closes the chains that it opens. -/
theorem RouteBody.sum_level : (b : RouteBody) → (b.steps.map RouteStep.level).sum = 0
  | .nil => rfl
  | .move m rest => by
    simp only [RouteBody.steps, List.map_cons, List.sum_cons, rest.sum_level]
    rfl
  | .effect line plain rest => by
    simp only [RouteBody.steps, List.map_cons, List.sum_cons, rest.sum_level, RouteStep.level,
      RouteStep.marker?, plain]
    rfl
  | .chain c branch arms rest => by
    simp only [RouteBody.steps, List.map_cons, List.sum_cons, List.map_append, List.sum_append,
      branch.sum_level, arms.sum_level, rest.sum_level]
    rfl

theorem RouteArms.sum_level : (a : RouteArms) → (a.steps.map RouteStep.level).sum = 0
  | .done => rfl
  | .arm c branch others => by
    simp only [RouteArms.steps, List.map_cons, List.sum_cons, List.map_append, List.sum_append,
      branch.sum_level, others.sum_level]
    rfl

end

namespace Route

/-- Alternatives with the closing marker of their chain stand from position `j` on, behind the
markers `front` of the chain. -/
structure ReadsArms (r : Route) (front : List Nat) (j : Nat) (a : RouteArms) : Prop where
  reads : Stands r.steps j (a.steps ++ [.script .endIf])
  linked : r.pairing.Linked (front ++ (a.markers j ++ [j + a.size])) (j + a.size)
  branches : a.BranchesAt r.pairing j

theorem ReadsArms.openAt {r : Route} {front : List Nat} {j : Nat} {a : RouteArms}
    (h : r.ReadsArms front j a) : r.openAt (j + a.size + 1) = r.openAt j - 1 := by
  have := openAt_add h.reads
  rw [List.length_append, List.map_append, List.sum_append, a.sum_level] at this
  exact this

theorem ReadsArms.closing {r : Route} {front : List Nat} {j : Nat}
    (h : r.ReadsArms front j .done) : r.steps[j]? = some (.script .endIf) := h.reads.head

/-- The marker before alternatives leads to the first of them, or to the closing marker. -/
theorem next_marker {q : Pairing} {front : List Nat} {k j stop : Nat} {a : RouteArms}
    (h : q.Linked (front ++ k :: (a.markers j ++ [j + a.size])) stop) :
    q.next.lookup k = some j := by
  cases a with
  | done => exact h.next front k j [] rfl
  | arm c branch others => exact h.next front k j _ rfl

/-- The closing marker behind alternatives. -/
theorem ReadsArms.last {r : Route} {front : List Nat} {j : Nat} {a : RouteArms}
    (h : r.ReadsArms front j a) : r.ReadsArms (front ++ a.markers j) (j + a.size) .done := by
  refine ⟨h.reads.append.2, ?_, trivial⟩
  have := h.linked
  rw [← List.append_assoc] at this
  exact this

section Arm

variable {r : Route} {front : List Nat} {j : Nat} {c : Option RouteCondition} {branch : RouteBody}
  {others : RouteArms}

theorem ReadsArms.marker (h : r.ReadsArms front j (.arm c branch others)) :
    r.steps[j]? = some (.script (.orElse c)) := h.reads.head

/-- Where the marker of an alternative leads if a branch has been taken: to the closing marker. -/
theorem ReadsArms.leaveTarget (h : r.ReadsArms front j (.arm c branch others)) :
    r.leaveTarget j = j + 1 + branch.size + others.size := by
  have := h.linked.ends j (by simp [RouteArms.markers])
  rw [Route.leaveTarget, this, RouteArms.size_arm]
  simp only [Option.getD_some]
  omega

theorem ReadsArms.tail (h : r.ReadsArms front j (.arm c branch others)) :
    r.ReadsArms (front ++ [j]) (j + 1 + branch.size) others := by
  have hsize : j + (RouteArms.arm c branch others).size = j + 1 + branch.size + others.size := by
    rw [RouteArms.size_arm]
    omega
  refine ⟨?_, ?_, h.branches.2⟩
  · have := h.reads
    rw [RouteArms.steps, List.cons_append, List.append_assoc] at this
    exact this.tail.append.2
  · have := h.linked
    rw [hsize, RouteArms.markers] at this
    simpa using this

/-- Where the marker of an alternative leads if its condition fails: behind its branch. -/
theorem ReadsArms.failTarget (h : r.ReadsArms front j (.arm c branch others)) :
    r.failTarget j = j + 1 + branch.size := by
  have hlinked := h.tail.linked
  rw [List.append_assoc, List.singleton_append] at hlinked
  rw [Route.failTarget, next_marker hlinked]
  rfl

theorem ReadsArms.readsBranch (h : r.ReadsArms front j (.arm c branch others)) :
    Stands r.steps (j + 1) branch.steps ∧ branch.JumpsAt r.pairing (j + 1) := by
  refine ⟨?_, h.branches.1⟩
  have := h.reads
  rw [RouteArms.steps, List.cons_append, List.append_assoc] at this
  exact this.tail.append.1

end Arm

/-- The part of a route behind the opening marker of a chain. -/
theorem readsArms_of_chain {r : Route} {i : Nat} {c : RouteCondition} {branch rest : RouteBody}
    {arms : RouteArms} (reads : Stands r.steps i (RouteBody.chain c branch arms rest).steps)
    (jumps : (RouteBody.chain c branch arms rest).JumpsAt r.pairing i) :
    r.ReadsArms [i] (i + 1 + branch.size) arms := by
  obtain ⟨hl, -, ha, -⟩ := jumps
  refine ⟨?_, hl, ha⟩
  have := reads.tail.append.2
  rw [← List.singleton_append, ← List.append_assoc] at this
  exact this.append.1

/-- What is left of a sequence of two parts. -/
def Then (first second : List Deed → Prop) (l : List Deed) : Prop :=
  ∃ a b, first a ∧ second b ∧ l = a ++ b

/-- A place in the tree that a route was flattened from: the position, the stack of branches taken,
and the deeds that lead from there to the end of the route. -/
inductive Standing (r : Route) : Nat → List Bool → (List Deed → Prop) → Prop
  | ended {i : Nat} (h : r.steps[i]? = none ∨ r.steps[i]? = some .finish) (closed : r.openAt i = 0) :
      Standing r i [true] (· = [])
  | body {i : Nat} {bs : List Bool} {P : List Deed → Prop} (b : RouteBody) (reads : Stands r.steps i b.steps)
      (jumps : b.JumpsAt r.pairing i) (rest : Standing r (i + b.size) bs P) :
      Standing r i bs (Then b.Passes P)
  /-- A branch of the chain has been taken. -/
  | decided {j : Nat} {bs : List Bool} {P : List Deed → Prop} (front : List Nat) (a : RouteArms)
      (reads : r.ReadsArms front j a) (rest : Standing r (j + a.size + 1) bs P) :
      Standing r j (true :: bs) P
  /-- No branch of the chain has been taken. -/
  | undecided {j : Nat} {bs : List Bool} {P : List Deed → Prop} (front : List Nat) (a : RouteArms)
      (reads : r.ReadsArms front j a) (rest : Standing r (j + a.size + 1) bs P) :
      Standing r j (false :: bs) (Then a.Passes P)

/-- The stack has one entry more than there are open chains. -/
theorem Standing.branches_length {r : Route} {i : Nat} {bs : List Bool} {P : List Deed → Prop}
    (h : r.Standing i bs P) : (bs.length : Int) = r.openAt i + 1 := by
  induction h with
  | ended _ closed => rw [closed]; rfl
  | body b reads jumps rest ih => 
      rw [ih, RouteBody.size, openAt_add reads, b.sum_level, Int.add_zero]
  | decided front a reads rest ih =>
      rw [List.length_cons, Int.natCast_succ, ih, reads.openAt]
      omega
  | undecided front a reads rest ih =>
      rw [List.length_cons, Int.natCast_succ, ih, reads.openAt]
      omega

theorem Standing.of_eq {r : Route} {i i' : Nat} {bs : List Bool} {P : List Deed → Prop}
    (h : r.Standing i bs P) (hi : i = i') : r.Standing i' bs P := hi ▸ h

theorem Standing.ne_nil {r : Route} {i : Nat} {bs : List Bool} {P : List Deed → Prop}
    (h : r.Standing i bs P) : bs ≠ [] := by
  induction h with
  | ended _ _ => simp
  | body b reads jumps rest ih => exact ih
  | decided front a reads rest ih => simp
  | undecided front a reads rest ih => simp

/-- From every place there is a way to the end. -/
theorem Standing.exists_deeds {r : Route} {i : Nat} {bs : List Bool} {P : List Deed → Prop}
    (h : r.Standing i bs P) : ∃ l, P l := by
  induction h with
  | ended _ _ => exact ⟨[], rfl⟩
  | body b reads jumps rest ih =>
      obtain ⟨l, hl⟩ := ih
      obtain ⟨l', hl'⟩ := b.exists_passes
      exact ⟨l' ++ l, l', l, hl', hl, rfl⟩
  | decided front a reads rest ih => exact ih
  | undecided front a reads rest ih =>
      obtain ⟨l, hl⟩ := ih
      obtain ⟨l', hl'⟩ := a.exists_passes
      exact ⟨l' ++ l, l', l, hl', hl, rfl⟩

end Route

/-! ### One frame -/

namespace Play

open Session Route

variable {who : CharacterId} {r : Route}

/-- From a place in the tree a number of lines is gone past as the tree says. -/
def Follows (who : CharacterId) (r : Route) (n : Nat) (i : Nat) (bs : List Bool)
    (P : List Deed → Prop) : Prop :=
  ∀ (s : Session) (c : Course), s.course? who = some { c with index := i, branches := bs } →
    ∀ l left t, recordedLines who r n s = .ok (l, left) t →
      ∃ i' bs', t.course? who = some { c with index := i', branches := bs' } ∧
        (left ≠ none → P l) ∧
        (left = none → ∃ P', r.Standing i' bs' P' ∧ ∀ l', P' l' → P (l ++ l'))

theorem Follows.mono {n i : Nat} {bs : List Bool} {P P' : List Deed → Prop}
    (h : Follows who r n i bs P) (hP : ∀ l, P l → P' l) : Follows who r n i bs P' := by
  intro s c hc l left t hs
  obtain ⟨i', bs', ht, hend, hmid⟩ := h s c hc l left t hs
  refine ⟨i', bs', ht, fun hl => hP l (hend hl), fun hl => ?_⟩
  obtain ⟨Q, hQ, hmore⟩ := hmid hl
  exact ⟨Q, hQ, fun l' hl' => hP _ (hmore l' hl')⟩

theorem routeIndex_character {s : Session} {c : Course} (h : s.course? who = some c) :
    (s.character who).routeIndex = c.index := by
  rw [← course_character h]
  rfl

/-- A frame that goes past a script line. -/
theorem follows_script {n i : Nat} {bs : List Bool} {P : List Deed → Prop} {line : RouteInstruction}
    (ih : ∀ {i bs P}, r.Standing i bs P → Follows who r n i bs P)
    (hline : r.steps[i]? = some (.script line))
    (hrun : ∀ (s : Session) (c : Course) l next t,
      s.course? who = some { c with index := i, branches := bs } →
      recordedLine who r i line s = .ok (l, next) t →
      ∃ bs' P', t.course? who = some { c with index := i, branches := bs' } ∧
        r.Standing next bs' P' ∧ ∀ l', P' l' → P (l ++ l')) :
    Follows who r (n + 1) i bs P := by
  intro s c hc l left t hs
  have hi : (s.character who).routeIndex = i := routeIndex_character hc
  rw [recordedLines, get_bind_apply, hi, hline] at hs
  obtain ⟨⟨deeds, next⟩, u, hu, hs⟩ := bind_eq_ok hs
  obtain ⟨bs', P', hcourse, hst, hP⟩ := hrun s c deeds next u hc hu
  obtain ⟨_, w, hw, hs⟩ := bind_eq_ok hs
  cases hw
  obtain ⟨⟨more, left'⟩, v, hv, hs⟩ := bind_eq_ok hs
  cases hs
  have hgo := course?_onCharacter (f := fun c => { c with routeIndex := next })
    (g := fun c => { c with index := next }) (fun _ => rfl) hcourse
  obtain ⟨i'', bs'', ht, hend, hmid⟩ := ih hst _ c hgo more _ _ hv
  refine ⟨i'', bs'', ht, fun hl => hP more (hend hl), fun hl => ?_⟩
  obtain ⟨Q, hQ, hmore⟩ := hmid hl
  refine ⟨Q, hQ, fun l' hl' => ?_⟩
  rw [List.append_assoc]
  exact hP _ (hmore l' hl')

/-- A frame that comes to a step. -/
theorem follows_move {n i : Nat} {bs : List Bool} {P P' : List Deed → Prop} {m : Move}
    (hline : r.steps[i]? = some (.move m)) (hst : r.Standing i bs P)
    (hst' : r.Standing (i + 1) bs P') (again : ∀ l, P l → P (.took m false :: l))
    (passed : ∀ l, P' l → P (.took m true :: l)) : Follows who r (n + 1) i bs P := by
  intro s c hc l left t hs
  have hi : (s.character who).routeIndex = i := routeIndex_character hc
  rw [recordedLines, get_bind_apply, hi, hline] at hs
  obtain ⟨_, u, hu, hs⟩ := bind_eq_ok hs
  have hcourse : u.course? who = some { c with index := i, branches := bs } := by
    rw [(steersNobody_takeStep who m).of_ok hu, hc]
  rw [get_bind_apply] at hs
  cases hp : ((u.character who).moveSucceeded || r.skippable) with
  | true =>
      simp only [hp, if_true] at hs
      cases hs
      refine ⟨i + 1, bs, ?_, fun h => absurd rfl h, fun _ => ⟨P', hst', passed⟩⟩
      exact course?_onCharacter (g := fun c => { c with index := c.index + 1 }) (fun _ => rfl)
        hcourse
  | false =>
      simp only [hp] at hs
      cases hs
      exact ⟨i, bs, hcourse, fun h => absurd rfl h, fun _ => ⟨P, hst, again⟩⟩

/-- A frame that comes to the end of the route. -/
theorem follows_ended {n i : Nat} {bs : List Bool}
    (h : r.steps[i]? = none ∨ r.steps[i]? = some .finish) :
    Follows who r (n + 1) i bs (· = []) := by
  intro s c hc l left t hs
  have hi : (s.character who).routeIndex = i := routeIndex_character hc
  rw [recordedLines, get_bind_apply, hi] at hs
  rcases h with h | h
  · rw [h] at hs
    cases hs
    exact ⟨i, bs, hc, fun _ => rfl, fun h => by cases h⟩
  · rw [h] at hs
    cases hs
    refine ⟨r.length, bs, ?_, fun _ => rfl, fun h => by cases h⟩
    exact course?_onCharacter (g := fun c => { c with index := r.length }) (fun _ => rfl) hc

section Script

variable {n : Nat} (ih : ∀ {i : Nat} {bs : List Bool} {P : List Deed → Prop}, r.Standing i bs P →
  Follows who r n i bs P)

include ih

/-- A frame that comes to the closing marker of a chain, whether a branch of it was taken or not. -/
theorem follows_closing {j : Nat} {taken : Bool} {bs : List Bool} {P : List Deed → Prop}
    {front : List Nat} (reads : r.ReadsArms front j .done) (rest : r.Standing (j + 1) bs P) :
    Follows who r (n + 1) j (taken :: bs) P := by
  refine follows_script ih reads.closing fun s c l next t hc hs => ?_
  obtain ⟨rfl, rfl, hcourse⟩ := recordedLine_endIf hc rfl rest.ne_nil hs
  exact ⟨bs, P, hcourse, rest, fun l' hl' => hl'⟩

/-- A frame that comes to the opening marker of a chain. -/
theorem follows_chain {i : Nat} {bs : List Bool} {P : List Deed → Prop} {cond : RouteCondition}
    {branch b : RouteBody} {arms : RouteArms}
    (reads : Stands r.steps i (RouteBody.chain cond branch arms b).steps)
    (jumps : (RouteBody.chain cond branch arms b).JumpsAt r.pairing i)
    (rest : r.Standing (i + (RouteBody.chain cond branch arms b).size) bs P) :
    Follows who r (n + 1) i bs (Then (RouteBody.chain cond branch arms b).Passes P) := by
  have harms := readsArms_of_chain reads jumps
  obtain ⟨hlinked, hbranch, -, hjumps⟩ := jumps
  have hb : r.Standing (i + 1 + branch.size + arms.size + 1) bs (Then b.Passes P) := by
    refine .body b ?_ hjumps (rest.of_eq (by rw [RouteBody.size_chain]; omega))
    exact reads.tail.append.2.append.2.tail
  refine follows_script ih reads.head fun s c l next t hc hs => ?_
  obtain ⟨answer, rfl, hcourse, rfl⟩ := recordedLine_openIf hc hs
  cases answer with
  | true =>
      refine ⟨true :: bs, _, hcourse,
        .body branch reads.tail.append.1 hbranch (.decided [i] arms harms hb), ?_⟩
      rintro _ ⟨l, _, hl, ⟨l', l'', hl', hl'', rfl⟩, rfl⟩
      exact ⟨_, l'', .entered hl hl', hl'', by simp⟩
  | false =>
      have htarget : r.failTarget i = i + 1 + branch.size := by
        rw [Route.failTarget, @next_marker _ [] i _ _ _ hlinked]
        rfl
      refine ⟨false :: bs, _, hcourse,
        (Standing.undecided [i] arms harms hb).of_eq htarget.symm, ?_⟩
      rintro _ ⟨l, _, hl, ⟨l', l'', hl', hl'', rfl⟩, rfl⟩
      exact ⟨_, l'', .refused hl hl', hl'', by simp⟩

/-- A frame at the start of a body; a body with nothing in it is gone past by going on behind it. -/
theorem follows_body {i : Nat} {bs : List Bool} {P : List Deed → Prop} (b : RouteBody)
    (reads : Stands r.steps i b.steps) (jumps : b.JumpsAt r.pairing i)
    (rest : r.Standing (i + b.size) bs P) (behind : Follows who r (n + 1) (i + b.size) bs P) :
    Follows who r (n + 1) i bs (Then b.Passes P) := by
  cases b with
  | nil => exact behind.mono fun l hl => ⟨[], l, .nil, hl, rfl⟩
  | move m b =>
      have hrest : r.Standing (i + 1) bs (Then b.Passes P) :=
        .body b reads.tail jumps (rest.of_eq (by rw [RouteBody.size_move]; omega))
      refine follows_move reads.head (.body (.move m b) reads jumps rest) hrest ?_ ?_
      · rintro _ ⟨l, l', hl, hl', rfl⟩
        exact ⟨_, l', .again hl, hl', rfl⟩
      · rintro _ ⟨l, l', hl, hl', rfl⟩
        exact ⟨_, l', .move hl, hl', rfl⟩
  | effect line plain b =>
      have hrest : r.Standing (i + 1) bs (Then b.Passes P) :=
        .body b reads.tail jumps (rest.of_eq (by rw [RouteBody.size_effect]; omega))
      refine follows_script ih reads.head fun s c l next t hc hs => ?_
      obtain ⟨rfl, rfl, hcourse⟩ := recordedLine_plain plain hs
      refine ⟨bs, _, by rw [hcourse, hc], hrest, ?_⟩
      rintro _ ⟨l, l', hl, hl', rfl⟩
      exact ⟨_, l', .effect hl, hl', rfl⟩
  | chain cond branch arms b => exact follows_chain ih reads jumps rest

/-- Once a branch has been taken, the marker of every other alternative leads to the end. -/
theorem follows_decided {j : Nat} {bs : List Bool} {P : List Deed → Prop} {front : List Nat}
    (a : RouteArms) (reads : r.ReadsArms front j a) (rest : r.Standing (j + a.size + 1) bs P) :
    Follows who r (n + 1) j (true :: bs) P := by
  cases a with
  | done => exact follows_closing ih reads rest
  | arm cond branch others =>
      refine follows_script ih reads.marker fun s c l next t hc hs => ?_
      obtain ⟨rfl, rfl, rfl⟩ := recordedLine_orElse_taken hc rfl hs
      refine ⟨true :: bs, P, hc, ?_, fun l' hl' => hl'⟩
      rw [reads.leaveTarget]
      refine .decided _ .done reads.tail.last (rest.of_eq ?_)
      rw [RouteArms.size_arm, RouteArms.size_done]
      omega

/-- As long as no branch has been taken, an alternative is entered if it has no condition or its
condition holds. -/
theorem follows_undecided {j : Nat} {bs : List Bool} {P : List Deed → Prop} {front : List Nat}
    (a : RouteArms) (reads : r.ReadsArms front j a) (rest : r.Standing (j + a.size + 1) bs P) :
    Follows who r (n + 1) j (false :: bs) (Then a.Passes P) := by
  cases a with
  | done => exact (follows_closing ih reads rest).mono fun l hl => ⟨[], l, .done, hl, rfl⟩
  | arm cond branch others =>
      have hothers : r.Standing (j + 1 + branch.size + others.size + 1) bs P :=
        rest.of_eq (by rw [RouteArms.size_arm]; omega)
      have hbranch : r.Standing (j + 1) (true :: bs) (Then branch.Passes P) :=
        .body branch reads.readsBranch.1 reads.readsBranch.2 (.decided _ others reads.tail hothers)
      refine follows_script ih reads.marker fun s c l next t hc hs => ?_
      cases cond with
      | none =>
          obtain ⟨rfl, rfl, hcourse⟩ := recordedLine_orElse_none hc rfl hs
          refine ⟨true :: bs, _, hcourse, hbranch, ?_⟩
          rintro _ ⟨l, l', hl, hl', rfl⟩
          exact ⟨l, l', .always hl, hl', rfl⟩
      | some cond =>
          obtain ⟨answer, rfl, hcourse, rfl⟩ := recordedLine_orElse_some hc rfl hs
          cases answer with
          | true =>
              refine ⟨true :: bs, _, hcourse, hbranch, ?_⟩
              rintro _ ⟨l, l', hl, hl', rfl⟩
              exact ⟨_, l', .entered hl, hl', rfl⟩
          | false =>
              refine ⟨false :: bs, _, hcourse,
                (Standing.undecided _ others reads.tail hothers).of_eq reads.failTarget.symm, ?_⟩
              rintro _ ⟨l, l', hl, hl', rfl⟩
              exact ⟨_, l', .refused hl, hl', rfl⟩

end Script

/-- **What a frame goes past is what the tree says.**  The induction is on the number of lines, and
within it on the place: an empty body is gone past without a line. -/
theorem follows {n i : Nat} {bs : List Bool} {P : List Deed → Prop} (h : r.Standing i bs P) :
    Follows who r n i bs P := by
  induction n generalizing i bs P with
  | zero =>
      intro s c hc l left t hs
      cases hs
      exact ⟨i, bs, hc, fun h => absurd rfl h, fun _ => ⟨P, h, fun l' hl' => hl'⟩⟩
  | succ n ih =>
      induction h with
      | ended h closed => exact follows_ended h
      | body b reads jumps rest ihrest => exact follows_body ih b reads jumps rest ihrest
      | decided front a reads rest _ => exact follows_decided ih a reads rest
      | undecided front a reads rest _ => exact follows_undecided ih a reads rest

/-- A frame that reaches the end of a route has fewer lines left then. -/
theorem recordedLines_left {n k : Nat} {s t : Session} {l : List Deed}
    (h : recordedLines who r n s = .ok (l, some k) t) : k < n := by
  induction n generalizing s l with
  | zero => cases h
  | succ n ih =>
      rw [recordedLines, get_bind_apply] at h
      cases hline : r.steps[(s.character who).routeIndex]? with
      | none =>
          rw [hline] at h
          cases h
          exact Nat.lt_succ_self _
      | some step =>
          rw [hline] at h
          cases step with
          | finish =>
              cases h
              exact Nat.lt_succ_self _
          | script line =>
              obtain ⟨_, u, -, h⟩ := bind_eq_ok h
              obtain ⟨_, v, -, h⟩ := bind_eq_ok h
              obtain ⟨⟨more, left⟩, w, hw, h⟩ := bind_eq_ok h
              cases h
              exact Nat.lt_succ_of_lt (ih hw)
          | move m =>
              obtain ⟨_, u, -, h⟩ := bind_eq_ok h
              rw [get_bind_apply] at h
              dsimp only at h
              split at h <;> cases h

end Play

/-! ### Whole passages -/

namespace Session

/-- A character stands somewhere on a route, and certain deeds lead to its end. -/
def OnRoute (who : CharacterId) (r : Route) (P : List Deed → Prop) (s : Session) : Prop :=
  ∃ c, s.course? who = some c ∧ c.route = some r ∧ r.Standing c.index c.branches P

end Session

/-- A route with its markers paired, that a body and perhaps the end of a route were flattened to. -/
structure Route.Flattens (r : Route) (b : RouteBody) : Prop where
  steps : r.steps = b.steps ∨ r.steps = b.steps ++ [.finish]
  pairing : r.pairing = (Pairing.ofKinds (r.steps.map RouteStep.marker?)).found

/-- Reading a route pairs its markers. -/
theorem Route.pairing_of_read {v : Json} {r : Route} (h : (Route.read v).result = .ok (some r)) :
    r.pairing = (Pairing.ofKinds (r.steps.map RouteStep.marker?)).found := by
  cases v with
  | null => cases h
  | obj fields =>
      have hfields : (Route.ofFields fields).result = .ok r := by
        cases hf : (Route.ofFields fields).result with
        | error e =>
            change (Reading.andThen _ _).result = _ at h
            simp only [Reading.andThen, hf] at h
            cases h
        | ok r' =>
            rw [Route.read, Reading.result_bind_ok hf] at h
            cases h
            rfl
      rw [Route.ofFields] at hfields
      dsimp only at hfields
      split at hfields
      · cases hfields
      · cases hfields
        rfl
  | _ =>
      simp only [Route.read] at h
      split at h <;> cases h
      rfl

/-- The start of a route. -/
theorem Route.Flattens.standing {r : Route} {b : RouteBody} (h : r.Flattens b) :
    r.Standing 0 [true] (Then b.Passes (· = [])) := by
  have hreads : Stands r.steps 0 b.steps := by
    rcases h.steps with hs | hs
    · exact ⟨[], by simp [hs]⟩
    · exact ⟨[.finish], by simp [hs]⟩
  have hend : r.steps[b.size]? = none ∨ r.steps[b.size]? = some .finish := by
    rcases h.steps with hs | hs
    · exact Or.inl (by simp [hs, RouteBody.size])
    · exact Or.inr (by simp [hs, RouteBody.size])
  have hjumps : b.JumpsAt r.pairing 0 := by
    rw [h.pairing]
    rcases h.steps with hs | hs
    · simpa [hs] using @RouteBody.jumpsAt_ofKinds b [] (by simp)
    · rw [hs]
      exact b.jumpsAt_ofKinds (by simp [RouteStep.marker?])
  have hclosed : r.openAt (0 + b.size) = 0 := by
    rw [RouteBody.size, openAt_add hreads, b.sum_level]
    rfl
  rw [← Nat.zero_add b.size] at hend
  exact .body b hreads hjumps (.ended hend hclosed)

namespace Play

open Session Route

variable {who : CharacterId} {r : Route} {b : RouteBody}

theorem activeRoute_character {s : Session} {c : Course} (h : s.course? who = some c)
    (hroute : c.route = some r) : (s.character who).activeRoute = r := by
  have hbody : (s.character who).route = some r := by
    rw [← hroute, ← course_character h]
    rfl
  rw [Character.activeRoute, hbody]
  rfl

/-- A route that starts over within a frame is gone on with as before. -/
theorem onRoute_passEnd (hr : r.Flattens b) (repeats : r.repeats = true) (k : Nat) {s t : Session}
    {c : Course} (hc : s.course? who = some c) (hroute : c.route = some r)
    (h : passEnd who r k s = .ok () t) : ∃ P, t.OnRoute who r P := by
  induction k using Nat.strongRecOn generalizing s c with
  | ind k ih =>
      have hagain : (s.character who).activeRoute.repeats = true := by
        rw [activeRoute_character hc hroute, repeats]
      rw [passEnd, bind_of_ok (finishRoute_of_repeats hagain)] at h
      have hstart := course?_onCharacter
        (f := fun c => { c with routeIndex := 0, branches := [true] })
        (g := fun c => { c with index := 0, branches := [true] }) (fun _ => rfl) hc
      change walkLines who r k _ = _ at h
      rw [walkLines_eq] at h
      obtain ⟨⟨l, left⟩, u, hu, h⟩ := bind_eq_ok h
      obtain ⟨i, bs, hcu, -, hmid⟩ := follows hr.standing _ c hstart l left u hu
      cases left with
      | none =>
          cases h
          obtain ⟨P, hst, -⟩ := hmid rfl
          exact ⟨P, _, hcu, hroute, hst⟩
      | some left => exact ih left (recordedLines_left hu) hcu hroute h

/-- One frame on a route. -/
theorem onRoute_recordedWalk (hr : r.Flattens b) {P : List Deed → Prop} {s t : Session}
    {l : List Deed} {ended : Bool} (hs : s.OnRoute who r P)
    (h : recordedWalk who s = .ok (l, ended) t) :
    (ended = true → P l) ∧
      (ended = false → ∃ P', t.OnRoute who r P' ∧ ∀ l', P' l' → P (l ++ l')) ∧
      ((ended = true → r.repeats = true) → ∃ P', t.OnRoute who r P') := by
  obtain ⟨c, hc, hroute, hst⟩ := hs
  rw [recordedWalk, get_bind_apply] at h
  split at h
  · -- the character waits
    cases h
    have hwait := course?_onCharacter (f := fun c => { c with waitCount := c.waitCount - 1 })
      (g := id) (fun _ => rfl) hc
    exact ⟨fun hend => absurd hend Bool.false_ne_true,
      fun _ => ⟨P, ⟨c, hwait, hroute, hst⟩, fun _ hl => hl⟩, fun _ => ⟨P, c, hwait, hroute, hst⟩⟩
  · rw [activeRoute_character hc hroute] at h
    obtain ⟨⟨deeds, left⟩, u, hu, h⟩ := bind_eq_ok h
    obtain ⟨i, bs, hcu, hend, hmid⟩ := follows hst s c hc deeds left u hu
    cases left with
    | none =>
        cases h
        obtain ⟨P', hst', hP⟩ := hmid rfl
        exact ⟨fun hend => absurd hend Bool.false_ne_true,
          fun _ => ⟨P', ⟨_, hcu, hroute, hst'⟩, hP⟩, fun _ => ⟨P', _, hcu, hroute, hst'⟩⟩
    | some left =>
        obtain ⟨_, v, hv, h⟩ := bind_eq_ok h
        cases h
        exact ⟨fun _ => hend (by simp), fun hmid => absurd hmid.symm Bool.false_ne_true,
          fun again => onRoute_passEnd hr (again rfl) left hcu hroute hv⟩

end Play

/-- The frames of one passage through a route, from the moment when the route was handed to the
character: the deeds so far, and whether the end of the route has been reached.  Between the frames
anything may happen that leaves the course of the character alone. -/
inductive RoutePassage (who : CharacterId) (r : Route) : List Deed → Bool → Session → Prop
  | given {s : Session} {c : Course} {v : Json} (read : (Route.read v).result = .ok (some r))
      (there : s.course? who = some c) : RoutePassage who r [] false ((Play.setRoute who v).after s)
  | forced {s : Session} {c : Course} {v : Json} (read : (Route.read v).result = .ok (some r))
      (there : s.course? who = some c) : RoutePassage who r [] false ((Play.forceRoute who v).after s)
  | frame {log l : List Deed} {ended : Bool} {s t : Session} (run : RoutePassage who r log false s)
      (ht : Play.recordedWalk who s = .ok (l, ended) t) : RoutePassage who r (log ++ l) ended t
  | aside {log : List Deed} {s t : Session} (run : RoutePassage who r log false s)
      (ht : t.course? who = s.course? who) : RoutePassage who r log false t

namespace RoutePassage

variable {who : CharacterId} {r : Route} {b : RouteBody} {log : List Deed} {ended : Bool}
  {s : Session}

/-- What a passage keeps: the deeds so far lead to the place where the character stands. -/
theorem onRoute (hr : r.steps = b.steps ∨ r.steps = b.steps ++ [.finish])
    (run : RoutePassage who r log ended s) :
    r.Flattens b ∧ (ended = true → b.Passes log) ∧
      (ended = false → ∃ P, s.OnRoute who r P ∧ ∀ more, P more → b.Passes (log ++ more)) ∧
      ((ended = true → r.repeats = true) → ∃ P, s.OnRoute who r P) := by
  have hstart : ∀ {t : Session} {c : Course}, r.Flattens b → t.course? who = some c →
      c.route = some r → c.index = 0 → c.branches = [true] →
      t.OnRoute who r (Route.Then b.Passes (· = [])) := by
    intro t c hflat hc hroute hi hbs
    refine ⟨c, hc, hroute, ?_⟩
    rw [hi, hbs]
    exact hflat.standing
  have hnil : ∀ l, Route.Then b.Passes (· = []) l → b.Passes ([] ++ l) := by
    rintro _ ⟨l, _, hl, rfl, rfl⟩
    simpa using hl
  induction run with
  | given read there =>
      have hflat : r.Flattens b := ⟨hr, Route.pairing_of_read read⟩
      have hon := hstart hflat (Play.course?_setRoute read there) rfl rfl rfl
      exact ⟨hflat, nofun, fun _ => ⟨_, hon, hnil⟩, fun _ => ⟨_, hon⟩⟩
  | forced read there =>
      have hflat : r.Flattens b := ⟨hr, Route.pairing_of_read read⟩
      have hon := hstart hflat (Play.course?_forceRoute read there) rfl rfl rfl
      exact ⟨hflat, nofun, fun _ => ⟨_, hon, hnil⟩, fun _ => ⟨_, hon⟩⟩
  | frame run ht ih =>
      obtain ⟨hflat, -, hmid, -⟩ := ih
      obtain ⟨P, hon, hP⟩ := hmid rfl
      obtain ⟨hend', hmid', hstill⟩ := Play.onRoute_recordedWalk hflat hon ht
      refine ⟨hflat, fun h => hP _ (hend' h), fun h => ?_, hstill⟩
      obtain ⟨P', hon', hP'⟩ := hmid' h
      refine ⟨P', hon', fun more hmore => ?_⟩
      rw [List.append_assoc]
      exact hP _ (hP' more hmore)
  | aside run ht ih =>
      obtain ⟨hflat, -, hmid, -⟩ := ih
      obtain ⟨P, ⟨c, hc, hroute, hst⟩, hP⟩ := hmid rfl
      have hon : Session.OnRoute who r P _ := ⟨c, ht.trans hc, hroute, hst⟩
      exact ⟨hflat, nofun, fun _ => ⟨P, hon, hP⟩, fun _ => ⟨P, hon⟩⟩

/-- **A route is gone through as the tree that it was flattened from**: the deeds of a passage that
has come to the end pass through the tree, those of one under way can be completed to such, and
while the position is inside the route the stack of branches has one entry more than there are open
chains. -/
theorem passes (hr : r.steps = b.steps ∨ r.steps = b.steps ++ [.finish])
    (run : RoutePassage who r log ended s) :
    (ended = true → b.Passes log) ∧
      (ended = false → ∃ more, b.Passes (log ++ more)) ∧
      ((ended = true → r.repeats = true) → ∀ c, s.course? who = some c → c.index < r.length →
        (c.branches.length : Int) = r.openAt c.index + 1) := by
  obtain ⟨hflat, hrun⟩ := run.onRoute hr
  refine ⟨hrun.1, fun hmid => ?_, fun hstill c hc hin => ?_⟩
  · obtain ⟨P, ⟨c, -, -, hst⟩, hP⟩ := hrun.2.1 hmid
    obtain ⟨more, hmore⟩ := hst.exists_deeds
    exact ⟨more, hP more hmore⟩
  · obtain ⟨P, c', hc', -, hst⟩ := hrun.2.2 hstill
    obtain rfl : c' = c := Option.some_inj.1 (hc'.symm.trans hc)
    exact hst.branches_length

/-- One frame through a chain whose condition is false. -/
theorem passes_else :
    let v : Json := .obj [("list", .arr [
      .obj [("code", .int 45), ("parameters", .arr [.str "rbIf(false)"])],
      .obj [("code", .int 9)],
      .obj [("code", .int 45), ("parameters", .arr [.str "rbElse()"])],
      .obj [("code", .int 45), ("parameters", .arr [.str "unsetSe()"])],
      .obj [("code", .int 45), ("parameters", .arr [.str "rbEnd()"])],
      .obj [("code", .int 0)]])]
    let b : RouteBody := .chain (.const false) (.move .random .nil)
      (.arm none (.effect .unsetSound rfl .nil) .done) .nil
    let log : List Deed := [.asked (.const false) false, .acted .unsetSound]
    ∃ r s, (Route.read v).result = .ok (some r) ∧ RoutePassage .player r log true s ∧
      b.Passes log := by
  intro v b log
  have read : (Route.read v).result = .ok (some (Route.ofSteps [.script (.openIf (.const false)),
      .move .random, .script (.orElse none), .script .unsetSound, .script .endIf, .finish] false
      false false [])) := rfl
  have there : ({} : Session).course? .player = some ({} : Character).course := rfl
  have run := RoutePassage.frame (@RoutePassage.given .player _ _ _ _ read there) rfl
  exact ⟨_, _, read, run, (run.passes (Or.inr rfl)).1 rfl⟩

end RoutePassage

end EventLayer
