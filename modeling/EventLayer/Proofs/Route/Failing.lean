/-
**When a frame of a route fails.**

A character goes past the lines of its route until one takes a frame.  Of all that it comes to only two
things can fail: a step whose parameters have the wrong shape, and a branch whose condition compares a
variable that is no number it can be compared by.  So a frame fails exactly if it comes to one of these.

Main definitions:

* `RouteCondition.FailsFor` — the condition fails for an entity;
* `Play.pass` — going past one line;
* `Session.asked?`, `Session.Balks` — the condition that is asked where a character stands, and whether
  that place fails;
* `Play.Passes` — a character goes past a number of lines.

Main results:

* `Play.walkLines_succ` — going along a route is going past its lines one by one;
* `Play.finishes_walk` — **when a frame of a route comes to an end**.
-/
import EventLayer.Proofs.Character.Course
import EventLayer.Proofs.Map.Erasing
import EventLayer.Proofs.Returns
import EventLayer.Proofs.Store.OwnData

set_option autoImplicit false
set_option relaxedAutoImplicit false

namespace EventLayer

variable {who : CharacterId} {route : Route} {s t u : Session} {n : Nat}

/-- A condition fails for an entity, and is not just false. -/
def RouteCondition.FailsFor (c : RouteCondition) (stores : Stores) (scope : Scope) : Prop :=
  ∃ e, c.inStores stores scope = .error e

/-- The condition that a script line asks where chains of branches are open. -/
def RouteInstruction.asked? (branches : List Bool) : RouteInstruction → Option RouteCondition
  | .openIf c => some c
  | .orElse c => if branches.headD true then none else c
  | _ => none

/-- The condition that is asked on the line where a character stands. -/
def Session.asked? (s : Session) (who : CharacterId) (route : Route) : Option RouteCondition :=
  match route.steps[(s.character who).routeIndex]? with
  | some (.script line) => line.asked? (s.character who).branches
  | _ => none

/-- A character stands at a line that fails: a step of the wrong shape, or a branch whose condition fails. -/
def Session.Balks (s : Session) (who : CharacterId) (route : Route) : Prop :=
  (∃ e, route.steps[(s.character who).routeIndex]? = some (.move (.faulty e))) ∨
    ∃ c, s.asked? who route = some c ∧ c.FailsFor s.stores (s.scopeOf who)

namespace Play

open Session

/-! ### Going past lines -/

/-- Go past one line of a route: whether the frame is not over. -/
def pass (who : CharacterId) (route : Route) : Play Bool := do
  let i := ((← get).character who).routeIndex
  match route.steps[i]? with
  | none => return !(← finishRoute who)
  | some .finish =>
    onCharacter who fun c => { c with routeIndex := route.length }
    return !(← finishRoute who)
  | some (.script line) =>
    let next ← runLine who route i line
    onCharacter who fun c => { c with routeIndex := next }
    return true
  | some (.move m) =>
    takeStep who m
    if ((← get).character who).moveSucceeded || route.skippable then
      onCharacter who fun c => { c with routeIndex := c.routeIndex + 1 }
    return false

/-- **Going along a route is going past its lines one by one.** -/
theorem walkLines_succ (who : CharacterId) (route : Route) (n : Nat) :
    walkLines who route (n + 1) = (do if ← pass who route then walkLines who route n) := by
  simp only [walkLines, pass, bind_assoc]
  refine bind_congr fun s => ?_
  cases route.steps[(s.character who).routeIndex]? with
  | none =>
      simp only [bind_assoc, pure_bind]
      refine bind_congr fun done => ?_
      cases done <;> rfl
  | some step =>
      cases step with
      | finish =>
          simp only [bind_assoc, pure_bind]
          refine bind_congr fun _ => bind_congr fun done => ?_
          cases done <;> rfl
      | script line =>
          simp only [bind_assoc]
          rfl
      | move m =>
          simp only [bind_assoc]
          refine bind_congr fun _ => bind_congr fun t => ?_
          split <;> rfl

/-- A character goes past a number of lines. -/
inductive Passes (who : CharacterId) (route : Route) : Nat → Session → Session → Prop
  | zero (s : Session) : Passes who route 0 s s
  | succ {n : Nat} {s t u : Session} : pass who route s = .ok true t → Passes who route n t u →
      Passes who route (n + 1) s u

/-! ### What can fail -/

/-- From a session an operation comes to an end exactly under a condition. -/
def Finishes {α : Type} (act : Play α) (s : Session) (C : Prop) : Prop := act.Returns s C fun _ _ => True

section Finishes

variable {α β : Type} {act : Play α} {C : Prop}

theorem finishes_of_ok {a : α} (h : act s = .ok a t) (hC : C) : act.Finishes s C :=
  (returns_of_ok (P := fun _ _ => True) h trivial).iff (iff_of_true trivial hC)

/-- After a first part that comes to an end, the rest always does. -/
theorem Finishes.first {f : α → Play β} (h : act.Finishes s C) (hf : ∀ a t, (f a).Finishes t True) :
    (act >>= f).Finishes s C :=
  Returns.first h fun a t _ => hf a t

theorem Finishes.iff {D : Prop} (h : act.Finishes s C) (hCD : C ↔ D) : act.Finishes s D := Returns.iff h hCD

end Finishes

theorem finishes_onCharacter (f : Character → Character) (who : CharacterId) (s : Session) :
    (onCharacter who f).Finishes s True :=
  finishes_of_ok rfl trivial

theorem finishes_playSound (sound : Sound) (s : Session) : (playSound (.obj sound)).Finishes s True := by
  have hread : ∃ played, Sound.read (.obj sound) = .ok played := by
    unfold Sound.read
    split <;> exact ⟨_, rfl⟩
  obtain ⟨played, hplayed⟩ := hread
  refine returns_exceptBind hplayed ?_
  cases played with
  | none => exact finishes_of_ok rfl trivial
  | some sound => exact finishes_of_ok rfl trivial

/-- Only a condition on a variable can fail. -/
theorem finishes_holds (c : RouteCondition) (who : CharacterId) (s : Session) :
    (c.holds who).Finishes s (¬c.FailsFor s.stores (s.scopeOf who)) := by
  unfold RouteCondition.FailsFor
  by_cases hreads : c.ReadsStores
  · have hlift : (liftM (c.inStores s.stores (s.scopeOf who)) : Play Bool).Finishes s
        (¬∃ e, c.inStores s.stores (s.scopeOf who) = .error e) := by
      refine ((returns_except _).iff ?_).mono fun _ _ _ => trivial
      cases c.inStores s.stores (s.scopeOf who) with
      | ok b => exact iff_of_true ⟨b, rfl⟩ fun ⟨e, h⟩ => by cases h
      | error e => exact iff_of_false (fun ⟨b, h⟩ => by cases h) fun h => h ⟨e, rfl⟩
    exact hlift.congr (RouteCondition.holds_eq_inStores hreads who s)
  · have hanswers : c.inStores s.stores (s.scopeOf who) = .ok false := by
      cases c with
      | switchIs | selfSwitchIs | variableIs => exact absurd trivial hreads
      | const | playerWithin | chance | facing => rfl
    rw [hanswers]
    cases c with
    | switchIs | selfSwitchIs | variableIs => exact absurd trivial hreads
    | const | playerWithin | chance | facing => exact finishes_of_ok rfl fun ⟨e, h⟩ => by cases h

/-- A change of a character is not one of what conditions look at. -/
theorem failsFor_updateCharacter (c : RouteCondition) (who : CharacterId) (f : Character → Character)
    (s : Session) : c.FailsFor (s.updateCharacter who f).stores ((s.updateCharacter who f).scopeOf who) ↔
      c.FailsFor s.stores (s.scopeOf who) := by
  cases who with
  | player => rfl
  | follower place => rfl
  | event id =>
      have hmap : (s.updateCharacter (.event id) f).mapOf (.event id) = s.mapOf (.event id) := by
        change (((s.updateEvent id fun e => { e with body := f e.body }).event? id).map MapEvent.map).getD _ = _
        rw [event?_updateEvent, Option.map_map]
        rfl
      have hscope : (s.updateCharacter (.event id) f).scopeOf (.event id) = s.scopeOf (.event id) := by
        unfold scopeOf
        rw [hmap]
      rw [hscope]
      rfl

theorem finishes_changeSound (who : CharacterId) (name : String) (volume pitch : Int) (s : Session) :
    (changeSound who name volume pitch).Finishes s True := by
  refine returns_getBind ?_
  dsimp only
  split
  · exact (finishes_playSound _ s).first fun _ t => finishes_onCharacter _ who t
  · exact finishes_of_ok rfl trivial

theorem finishes_showBalloon (who : CharacterId) (id : Int) (s : Session) :
    (showBalloon who id).Finishes s True :=
  finishes_of_ok rfl trivial

theorem finishes_closeBranch (who : CharacterId) (i : Nat) (s : Session) : (closeBranch who i).Finishes s True := by
  refine returns_getBind ?_
  dsimp only
  split <;> exact finishes_of_ok rfl trivial

/-- Opening a chain of branches fails only by its condition. -/
theorem finishes_openBranch (who : CharacterId) (route : Route) (i : Nat) (c : RouteCondition) (s : Session) :
    (openBranch who route i c).Finishes s (¬c.FailsFor s.stores (s.scopeOf who)) := by
  refine returns_bind_of_ok (t := s.updateCharacter who fun h => { h with branches := false :: h.branches })
    rfl ?_
  rw [← failsFor_updateCharacter c who fun h => { h with branches := false :: h.branches }]
  refine (finishes_holds c who _).first fun taken t => ?_
  cases taken with
  | true => exact (finishes_onCharacter _ who t).first fun _ u => finishes_of_ok rfl trivial
  | false => exact finishes_of_ok rfl trivial

/-- So does an alternative, and only where it is decided by it. -/
theorem finishes_nextBranch (who : CharacterId) (route : Route) (i : Nat) (c : Option RouteCondition)
    (s : Session) : (nextBranch who route i c).Finishes s
      (∀ c', (RouteInstruction.orElse c).asked? (s.character who).branches = some c' →
        ¬c'.FailsFor s.stores (s.scopeOf who)) := by
  refine returns_getBind ?_
  unfold RouteInstruction.asked?
  dsimp only
  cases hdecided : (s.character who).branches.headD true with
  | true => exact finishes_of_ok rfl (by simp)
  | false =>
      rw [if_neg (by simp)]
      have hrest : ∀ (taken : Bool) (t : Session), (if taken = true then do
            onCharacter who fun h => { h with branches := true :: h.branches.tail }
            return i + 1
          else return route.failTarget i : Play Nat).Finishes t True := by
        intro taken t
        cases taken with
        | true => exact (finishes_onCharacter _ who t).first fun _ u => finishes_of_ok rfl trivial
        | false => exact finishes_of_ok rfl trivial
      cases c with
      | none => exact (hrest true s).iff (iff_of_true trivial (by simp))
      | some c =>
          refine ((finishes_holds c who s).first hrest).iff ?_
          simp

/-- A script line fails only by the condition that it asks. -/
theorem finishes_runLine (who : CharacterId) (route : Route) (i : Nat) (line : RouteInstruction) (s : Session) :
    (runLine who route i line).Finishes s
      (∀ c, line.asked? (s.character who).branches = some c → ¬c.FailsFor s.stores (s.scopeOf who)) := by
  cases line with
  | openIf c => exact (finishes_openBranch who route i c s).iff (by simp [RouteInstruction.asked?])
  | orElse c => exact finishes_nextBranch who route i c s
  | endIf => exact (finishes_closeBranch who i s).iff (iff_of_true trivial nofun)
  | setSound name volume pitch =>
      exact ((finishes_changeSound who name volume pitch s).first fun _ t => finishes_of_ok rfl trivial).iff
        (iff_of_true trivial nofun)
  | unsetSound | unsetBalloon | showBalloon => exact finishes_of_ok rfl nofun
  | setBalloon id =>
      refine Finishes.iff (Finishes.first ?_ fun _ t => finishes_of_ok rfl trivial) (iff_of_true trivial nofun)
      refine returns_getBind ?_
      split
      · exact finishes_showBalloon who id s
      · exact finishes_of_ok rfl trivial

/-- A step fails only if its parameters have the wrong shape. -/
theorem finishes_takeStep (who : CharacterId) (m : Move) (s : Session) :
    (takeStep who m).Finishes s (∀ e, m ≠ .faulty e) := by
  refine returns_bind_of_ok (t := s.updateCharacter who fun c => { c with moveSucceeded := true }) rfl ?_
  cases m with
  | faulty e => exact ⟨fun h => absurd rfl (h e), fun _ => ⟨e, _, rfl⟩⟩
  | playSound sound => exact (finishes_playSound sound _).iff (iff_of_true trivial nofun)
  | step | random | towardPlayer | awayFromPlayer | forward | wait | turn | idle =>
      exact finishes_of_ok rfl nofun

theorem finishes_finishRoute (who : CharacterId) (s : Session) : (finishRoute who).Finishes s True := by
  cases hrepeats : (s.character who).activeRoute.repeats with
  | true => exact finishes_of_ok (finishRoute_of_repeats hrepeats) trivial
  | false =>
      cases hforcing : (s.character who).forcing with
      | true => exact finishes_of_ok (finishRoute_of_forcing hrepeats hforcing) trivial
      | false => exact finishes_of_ok (finishRoute_of_own hrepeats hforcing) trivial

/-! ### When a frame comes to an end -/

/-- **A character goes past the line where it stands unless that fails.** -/
theorem finishes_pass (who : CharacterId) (route : Route) (s : Session) :
    (pass who route).Finishes s (¬s.Balks who route) := by
  refine returns_getBind ?_
  dsimp only
  cases hstep : route.steps[(s.character who).routeIndex]? with
  | none =>
      have hnot : ¬s.Balks who route := by simp [Balks, Session.asked?, hstep]
      exact ((finishes_finishRoute who s).first fun done t => finishes_of_ok rfl trivial).iff
        (iff_of_true trivial hnot)
  | some step =>
      cases step with
      | finish =>
          have hnot : ¬s.Balks who route := by simp [Balks, Session.asked?, hstep]
          refine Finishes.iff (Finishes.first (finishes_onCharacter _ who s) fun _ t => ?_) (iff_of_true trivial hnot)
          exact (finishes_finishRoute who t).first fun done u => finishes_of_ok rfl trivial
      | script line =>
          refine Finishes.iff ((finishes_runLine who route _ line s).first fun next t => ?_)
            (by simp [Balks, Session.asked?, hstep])
          exact (finishes_onCharacter _ who t).first fun _ u => finishes_of_ok rfl trivial
      | move m =>
          refine Finishes.iff ((finishes_takeStep who m s).first fun _ t => returns_getBind ?_)
            (by simp [Balks, Session.asked?, hstep])
          split
          · exact (finishes_onCharacter _ who t).first fun _ u => finishes_of_ok rfl trivial
          · exact finishes_of_ok rfl trivial

theorem finishes_walkLines (who : CharacterId) (route : Route) (n : Nat) (s : Session) :
    (walkLines who route n).Finishes s (∀ k < n, ∀ t, Passes who route k s t → ¬t.Balks who route) := by
  induction n generalizing s with
  | zero => exact finishes_of_ok rfl fun k hk => absurd hk (Nat.not_lt_zero k)
  | succ n ih =>
      rw [walkLines_succ]
      by_cases hbalks : s.Balks who route
      · obtain ⟨e, t, hfails⟩ := (finishes_pass who route s).error fun h => h hbalks
        exact ⟨fun h => absurd hbalks (h 0 (Nat.succ_pos n) s (.zero s)),
          fun _ => ⟨e, t, bind_of_error hfails⟩⟩
      · obtain ⟨goesOn, t, hpass, -⟩ := (finishes_pass who route s).ok hbalks
        refine returns_bind_of_ok hpass ?_
        cases goesOn with
        | false =>
            refine finishes_of_ok rfl fun k hk u hpasses => ?_
            cases hpasses with
            | zero => exact hbalks
            | succ hpass' _ =>
                rw [hpass] at hpass'
                cases hpass'
        | true =>
            refine (ih t).iff ⟨fun h k hk u hpasses => ?_, fun h k hk u hpasses => ?_⟩
            · cases hpasses with
              | zero => exact hbalks
              | succ hpass' hrest =>
                  rw [hpass] at hpass'
                  cases hpass'
                  exact h _ (by omega) u hrest
            · exact h (k + 1) (by omega) u (.succ hpass hpasses)

/-- **When a frame of a route comes to an end.** -/
theorem finishes_walk (who : CharacterId) (s : Session) : (walk who).Finishes s
    ((s.character who).waitCount ≤ 0 → ∀ k ≤ (s.character who).activeRoute.length, ∀ t,
      Passes who (s.character who).activeRoute k s t → ¬t.Balks who (s.character who).activeRoute) := by
  by_cases hwaits : 0 < (s.character who).waitCount
  · exact finishes_of_ok ((walk_apply who s).trans (if_pos hwaits)) fun h => absurd hwaits (by omega)
  · refine Returns.iff ((finishes_walkLines who _ _ s).congr ((walk_apply who s).trans (if_neg hwaits))) ?_
    constructor
    · exact fun h _ k hk t hpasses => h k (by omega) t hpasses
    · exact fun h k hk t hpasses => h (by omega) k (by omega) t hpasses

end Play

end EventLayer
