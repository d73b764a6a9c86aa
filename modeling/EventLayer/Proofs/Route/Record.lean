/-
**Walking with a record.**

To speak of what a character does on its way, walking is repeated here with a record of deeds: the
conditions that are asked and their answers, the script lines that are carried out, and the steps
that are taken.  The record changes nothing, which `Play.walk_eq` says, and what each script line
does to the course of the character is said here once.

Main definitions:

* `Play.recordedLine`, `Play.recordedLines`, `Play.recordedWalk` — one frame of a route, with its
  deeds.

Main results:

* `Play.walk_eq` — **the record changes nothing**;
* `Play.recordedLine_openIf`, `Play.recordedLine_endIf`, `Play.recordedLine_plain` — what script
  lines do to a course.
-/
import EventLayer.Proofs.Character.Course
import EventLayer.Proofs.Route.Tree

set_option autoImplicit false
set_option relaxedAutoImplicit false

namespace EventLayer

/-! ### Walking with a record -/

namespace Play

open Session

/-- Carry out the script line at a position: its deeds, and the position to go on at. -/
def recordedLine (who : CharacterId) (route : Route) (i : Nat) (line : RouteInstruction) :
    Play (List Deed × Nat) := do
  match line with
  | .openIf c =>
    onCharacter who fun h => { h with branches := false :: h.branches }
    if ← c.holds who then
      onCharacter who fun h => { h with branches := true :: h.branches.tail }
      return ([.asked c true], i + 1)
    return ([.asked c false], route.failTarget i)
  | .orElse c =>
    let h := (← get).character who
    if h.branches.headD true then return ([], route.leaveTarget i)
    match c with
    | none =>
      onCharacter who fun h => { h with branches := true :: h.branches.tail }
      return ([], i + 1)
    | some c =>
      if ← c.holds who then
        onCharacter who fun h => { h with branches := true :: h.branches.tail }
        return ([.asked c true], i + 1)
      return ([.asked c false], route.failTarget i)
  | .endIf => return ([], ← closeBranch who i)
  | line => return ([.acted line], ← runLine who route i line)

/-- Go on along a route past at most a number of lines: the deeds, and, if the end of the route was
reached, the number of lines that were left then. -/
def recordedLines (who : CharacterId) (route : Route) : Nat → Play (List Deed × Option Nat)
  | 0 => return ([], none)
  | budget + 1 => do
    let i := ((← get).character who).routeIndex
    match route.steps[i]? with
    | none => return ([], some budget)
    | some .finish =>
      onCharacter who fun c => { c with routeIndex := route.length }
      return ([], some budget)
    | some (.script line) =>
      let (deeds, next) ← recordedLine who route i line
      onCharacter who fun c => { c with routeIndex := next }
      let (more, left) ← recordedLines who route budget
      return (deeds ++ more, left)
    | some (.move m) =>
      takeStep who m
      let passed := ((← get).character who).moveSucceeded || route.skippable
      if passed then
        onCharacter who fun c => { c with routeIndex := c.routeIndex + 1 }
      return ([.took m passed], none)

/-- One frame of a character's route: the deeds up to the end of the route, and whether the end was
reached. -/
def recordedWalk (who : CharacterId) : Play (List Deed × Bool) := do
  let c := (← get).character who
  if 0 < c.waitCount then
    onCharacter who fun c => { c with waitCount := c.waitCount - 1 }
    return ([], false)
  else
    match ← recordedLines who c.activeRoute (c.activeRoute.length + 1) with
    | (deeds, none) => return (deeds, false)
    | (deeds, some left) =>
      passEnd who c.activeRoute left
      return (deeds, true)

theorem runLine_eq (who : CharacterId) (route : Route) (i : Nat) (line : RouteInstruction) :
    runLine who route i line = Prod.snd <$> recordedLine who route i line := by
  cases line with
  | openIf c =>
      simp only [runLine, openBranch, recordedLine, map_bind]
      refine bind_congr fun _ => bind_congr fun taken => ?_
      cases taken <;> simp
  | orElse c =>
      simp only [runLine, nextBranch, recordedLine, map_bind]
      refine bind_congr fun s => ?_
      cases (s.character who).branches.headD true with
      | true => simp
      | false =>
          cases c with
          | none => simp
          | some c =>
              simp only [Bool.false_eq_true, if_false, map_bind]
              refine bind_congr fun taken => ?_
              cases taken <;> simp
  | _ => simp [runLine, recordedLine]

theorem walkLines_eq (who : CharacterId) (route : Route) (budget : Nat) :
    walkLines who route budget = (do
      match ← recordedLines who route budget with
      | (_, none) => return
      | (_, some left) => passEnd who route left : Play Unit) := by
  induction budget with
  | zero => simp [walkLines, recordedLines]
  | succ n ih =>
      simp only [walkLines, recordedLines, bind_assoc]
      refine bind_congr fun s => ?_
      cases route.steps[(s.character who).routeIndex]? with
      | none => simp [passEnd]
      | some step =>
          cases step with
          | finish => simp [passEnd]
          | script line =>
              simp only [runLine_eq, ih, bind_map_left, bind_assoc]
              refine bind_congr fun r => bind_congr fun _ => bind_congr fun r' => ?_
              obtain ⟨more, left⟩ := r'
              cases left <;> simp
          | move m =>
              simp only [bind_assoc]
              refine bind_congr fun _ => bind_congr fun t => ?_
              split <;> simp

/-- **The record changes nothing.** -/
theorem walk_eq (who : CharacterId) : walk who = (do let _ ← recordedWalk who) := by
  simp only [walk, recordedWalk, walkLines_eq, bind_assoc]
  refine bind_congr fun s => ?_
  split
  · simp
  · simp only [bind_assoc]
    refine bind_congr fun r => ?_
    obtain ⟨deeds, left⟩ := r
    cases left <;> simp

/-! ### The deeds of a script line -/

section Line

variable {who : CharacterId} {route : Route} {s t : Session} {c : Course} {l : List Deed}
  {next : Nat}

theorem course?_onCharacter {f : Character → Character} {g : Course → Course}
    (hf : ∀ b, (f b).course = g b.course) (h : s.course? who = some c) :
    (s.updateCharacter who f).course? who = some (g c) := by
  rw [course?_updateCharacter_self hf, h]
  rfl

/-- Asking a condition where no branch of the innermost chain has been taken. -/
theorem recorded_ask {cond : RouteCondition} {bs : List Bool} {enter skip : Nat}
    (h : s.course? who = some c) (hb : c.branches = false :: bs)
    (hs : (do
      if ← cond.holds who then
        onCharacter who fun h => { h with branches := true :: h.branches.tail }
        return ([.asked cond true], enter)
      return ([.asked cond false], skip) : Play (List Deed × Nat)) s = .ok (l, next) t) :
    ∃ answer, l = [.asked cond answer] ∧
      t.course? who = some { c with branches := answer :: bs } ∧
      next = if answer then enter else skip := by
  obtain ⟨answer, u, hu, hs⟩ := bind_eq_ok hs
  have hcourse : u.course? who = some c := by
    rw [(steersNobody_holds cond who).of_ok hu, h]
  cases answer with
  | true =>
      cases hs
      refine ⟨true, rfl, ?_, rfl⟩
      rw [course?_onCharacter (g := fun b => { b with branches := true :: b.branches.tail })
        (fun _ => rfl) hcourse, hb]
      rfl
  | false =>
      cases hs
      exact ⟨false, rfl, by rw [hcourse, ← hb], rfl⟩

theorem recordedLine_openIf {cond : RouteCondition} (h : s.course? who = some c)
    (hs : recordedLine who route c.index (.openIf cond) s = .ok (l, next) t) :
    ∃ answer, l = [.asked cond answer] ∧
      t.course? who = some { c with branches := answer :: c.branches } ∧
      next = if answer then c.index + 1 else route.failTarget c.index := by
  rw [recordedLine, onCharacter, modify_bind_apply] at hs
  refine recorded_ask (c := { c with branches := false :: c.branches }) ?_ rfl hs
  exact course?_onCharacter (g := fun b => { b with branches := false :: b.branches })
    (fun _ => rfl) h

theorem branches_character (h : s.course? who = some c) :
    (s.character who).branches = c.branches := by
  rw [← course_character h]
  rfl

theorem recordedLine_orElse_taken {cond : Option RouteCondition} {bs : List Bool}
    (h : s.course? who = some c) (hb : c.branches = true :: bs)
    (hs : recordedLine who route c.index (.orElse cond) s = .ok (l, next) t) :
    l = [] ∧ next = route.leaveTarget c.index ∧ t = s := by
  have htaken : (s.character who).branches.headD true = true := by
    rw [branches_character h, hb]
    rfl
  cases cond <;> rw [recordedLine, get_bind_apply, if_pos htaken] at hs <;> cases hs <;>
    exact ⟨rfl, rfl, rfl⟩

theorem recordedLine_orElse_none {bs : List Bool}
    (h : s.course? who = some c) (hb : c.branches = false :: bs)
    (hs : recordedLine who route c.index (.orElse none) s = .ok (l, next) t) :
    l = [] ∧ next = c.index + 1 ∧ t.course? who = some { c with branches := true :: bs } := by
  have hopen : ¬(s.character who).branches.headD true = true := by
    rw [branches_character h, hb]
    exact Bool.false_ne_true
  rw [recordedLine, get_bind_apply, if_neg hopen] at hs
  cases hs
  refine ⟨rfl, rfl, ?_⟩
  rw [course?_onCharacter (g := fun b => { b with branches := true :: b.branches.tail })
    (fun _ => rfl) h, hb]
  rfl

theorem recordedLine_orElse_some {cond : RouteCondition} {bs : List Bool}
    (h : s.course? who = some c) (hb : c.branches = false :: bs)
    (hs : recordedLine who route c.index (.orElse (some cond)) s = .ok (l, next) t) :
    ∃ answer, l = [.asked cond answer] ∧
      t.course? who = some { c with branches := answer :: bs } ∧
      next = if answer then c.index + 1 else route.failTarget c.index := by
  have hopen : ¬(s.character who).branches.headD true = true := by
    rw [branches_character h, hb]
    exact Bool.false_ne_true
  rw [recordedLine, get_bind_apply, if_neg hopen] at hs
  exact recorded_ask h hb hs

theorem recordedLine_endIf {b : Bool} {bs : List Bool} (h : s.course? who = some c)
    (hb : c.branches = b :: bs) (hne : bs ≠ [])
    (hs : recordedLine who route c.index .endIf s = .ok (l, next) t) :
    l = [] ∧ next = c.index + 1 ∧ t.course? who = some { c with branches := bs } := by
  have hopen : 1 < (s.character who).branches.length := by
    rw [branches_character h, hb, List.length_cons]
    have := List.length_pos_iff.2 hne
    omega
  obtain ⟨i, u, hu, hs⟩ := bind_eq_ok (x := closeBranch who c.index) hs
  rw [closeBranch, get_bind_apply, if_pos hopen] at hu
  cases hu
  cases hs
  refine ⟨rfl, rfl, ?_⟩
  rw [course?_onCharacter (g := fun b => { b with branches := b.branches.tail })
    (fun _ => rfl) h, hb]
  rfl

/-- A script line that is no marker leaves the course alone, and the next line follows. -/
theorem runLine_plain {line : RouteInstruction} (plain : line.marker? = none) {i : Nat}
    (hs : runLine who route i line s = .ok next t) : next = i + 1 ∧ t.course? = s.course? := by
  have hthen : ∀ {x : Play Unit}, x.SteersNobody →
      (do x; return i + 1 : Play Nat) s = .ok next t → next = i + 1 ∧ t.course? = s.course? := by
    intro x hx hs
    obtain ⟨_, u, hu, hs⟩ := bind_eq_ok hs
    cases hs
    exact ⟨rfl, hx.of_ok hu⟩
  cases line with
  | openIf c => cases plain
  | orElse c => cases plain
  | endIf => cases plain
  | setSound name volume pitch => exact hthen (steersNobody_changeSound who name volume pitch) hs
  | unsetSound =>
      refine hthen ?_ hs
      exact steersNobody_onCharacter fun _ => rfl
  | setBalloon id => exact hthen (steersNobody_changeBalloon who id) hs
  | unsetBalloon =>
      refine hthen ?_ hs
      exact steersNobody_onCharacter fun _ => rfl
  | showBalloon id => exact hthen (steersNobody_showBalloon who id) hs

theorem recordedLine_plain {line : RouteInstruction} (plain : line.marker? = none) {i : Nat}
    (hs : recordedLine who route i line s = .ok (l, next) t) :
    l = [.acted line] ∧ next = i + 1 ∧ t.course? = s.course? := by
  have hrun : (do return ([.acted line], ← runLine who route i line) : Play (List Deed × Nat)) s =
      .ok (l, next) t := by
    cases line with
    | openIf c => cases plain
    | orElse c => cases plain
    | endIf => cases plain
    | _ => exact hs
  obtain ⟨next', u, hu, hs⟩ := bind_eq_ok hrun
  cases hs
  exact ⟨rfl, runLine_plain plain hu⟩

end Line

end Play

end EventLayer
