/-
**Forced routes as interruptions.**

A forced route is meant to interrupt a character's own route and to give it back at its end.  The
character keeps one route aside, and "none kept" is the same value as "a character without a route
was interrupted".  So a forced route that lands on the forced route of a character without a route
puts that one aside, and what was put aside before the character got a route of its own anew stays
put aside.

A history tells, from the outside, which route the character was given last, and which routes were
interrupted since a forced one came to its end.  It determines what is resumed: the first of the
interrupted routes that is a route at all, or else the latest of them.

Main definitions:

* `RouteHistory` — what the routes handed to a character have been;
* `RouteHistory.putBack` — what is resumed;
* `RouteRun` — routes given, routes forced and frames, in any order.

Main results:

* `Play.course_walk` — what one frame does to a course;
* `RouteRun.isRecord` — **a run leaves a course that its history records**;
* `RouteRun.interrupts_iff` — **when a forced route is only an interruption**.
-/
import EventLayer.Proofs.Character.Course

set_option autoImplicit false
set_option relaxedAutoImplicit false

namespace EventLayer

/-! ### One frame -/

namespace Course

/-- Two courses differ in nothing but the position and the branches taken. -/
structure Keeps (c c' : Course) : Prop where
  route : c'.route = c.route
  savedRoute : c'.savedRoute = c.savedRoute
  savedIndex : c'.savedIndex = c.savedIndex
  forcing : c'.forcing = c.forcing

theorem Keeps.refl (c : Course) : c.Keeps c := ⟨rfl, rfl, rfl, rfl⟩

theorem Keeps.trans {c c' c'' : Course} (h : c.Keeps c') (h' : c'.Keeps c'') : c.Keeps c'' :=
  ⟨h'.route.trans h.route, h'.savedRoute.trans h.savedRoute, h'.savedIndex.trans h.savedIndex,
    h'.forcing.trans h.forcing⟩

/-- The route that was put aside is taken up again. -/
def restored (c : Course) : Course where
  route := c.savedRoute
  index := c.savedIndex
  savedRoute := none
  savedIndex := c.savedIndex
  forcing := false
  branches := [true]

theorem Keeps.restored {c c' : Course} (h : c.Keeps c') : c'.restored = c.restored := by
  simp only [Course.restored, h.savedRoute, h.savedIndex]

/-- What a frame makes of a course: it goes on, or its forced route ends. -/
def Next (c c' : Course) : Prop := c.Keeps c' ∨ (c.forcing = true ∧ c' = c.restored)

end Course

namespace Session

/-- A character whose course differs from the given one in position and branches alone. -/
def OnCourse (who : CharacterId) (c : Course) (s : Session) : Prop :=
  ∃ c', s.course? who = some c' ∧ c.Keeps c'

/-- A character whose course is what a frame makes of the given one. -/
def NextOnCourse (who : CharacterId) (c : Course) (s : Session) : Prop :=
  ∃ c', s.course? who = some c' ∧ c.Next c'

theorem OnCourse.update {who : CharacterId} {c : Course} {s : Session} {f : Character → Character}
    (index : Nat → Nat) (branches : List Bool → List Bool)
    (hf : ∀ b, (f b).course =
      { b.course with index := index b.routeIndex, branches := branches b.branches })
    (h : s.OnCourse who c) : (s.updateCharacter who f).OnCourse who c := by
  obtain ⟨c', hc, hk⟩ := h
  refine ⟨{ c' with index := index c'.index, branches := branches c'.branches }, ?_,
    hk.trans ⟨rfl, rfl, rfl, rfl⟩⟩
  rw [course?_updateCharacter_self
    (g := fun b => { b with index := index b.index, branches := branches b.branches }) hf, hc]
  rfl

theorem OnCourse.next {who : CharacterId} {c : Course} {s : Session} (h : s.OnCourse who c) :
    s.NextOnCourse who c := by
  obtain ⟨c', hc, hk⟩ := h
  exact ⟨c', hc, Or.inl hk⟩

end Session

namespace Play

open Session

variable {α : Type} {who : CharacterId} {c : Course}

theorem SteersNobody.onCourse {act : Play α} (h : act.SteersNobody) :
    act.Preserves (OnCourse who c) :=
  h.preserves fun f => ∃ c', f who = some c' ∧ c.Keeps c'

/-! ### Script lines -/

/-- What survives writing the branches, and whatever leaves the courses alone. -/
structure Unsteered (who : CharacterId) (P : Session → Prop) : Prop where
  of_steersNobody : ∀ {α : Type} {act : Play α}, act.SteersNobody → act.Preserves P
  branches : ∀ g : List Bool → List Bool,
    (onCharacter who fun b => { b with branches := g b.branches }).Preserves P

namespace Unsteered

variable {P : Session → Prop} (h : Unsteered who P)

include h

theorem enter (taken : Bool) (next target : Nat) :
    (if taken = true then do
        onCharacter who fun h => { h with branches := true :: h.branches.tail }
        return next
      else return target : Play Nat).Preserves P := by
  refine Preserves.ite (Preserves.bind ?_ fun _ => preserves_pure _) (preserves_pure _)
  exact h.branches (true :: ·.tail)

theorem openBranch (route : Route) (i : Nat) (cond : RouteCondition) :
    (Play.openBranch who route i cond).Preserves P := by
  refine Preserves.bind (h.branches (false :: ·)) fun _ => ?_
  exact Preserves.bind (h.of_steersNobody (steersNobody_holds cond who)) fun taken =>
    h.enter taken _ _

theorem nextBranch (route : Route) (i : Nat) (cond : Option RouteCondition) :
    (Play.nextBranch who route i cond).Preserves P := by
  refine preserves_getBind fun s => Preserves.ite (preserves_pure _) ?_
  cases cond with
  | none => exact h.enter true (i + 1) (route.failTarget i)
  | some cond =>
      exact Preserves.bind (h.of_steersNobody (steersNobody_holds cond who)) fun taken =>
        h.enter taken _ _

theorem closeBranch (i : Nat) : (Play.closeBranch who i).Preserves P := by
  have hnote : (note (.endClosesNothing i)).SteersNobody := fun _ => rfl
  refine preserves_getBind fun s => ?_
  dsimp only
  split
  · exact Preserves.bind (h.branches List.tail) fun _ => preserves_pure _
  · exact Preserves.bind (h.of_steersNobody hnote) fun _ => preserves_pure _

/-- A script line writes at most the branches. -/
theorem runLine (route : Route) (i : Nat) (line : RouteInstruction) :
    (Play.runLine who route i line).Preserves P := by
  cases line with
  | openIf cond => exact h.openBranch route i cond
  | orElse cond => exact h.nextBranch route i cond
  | endIf => exact h.closeBranch i
  | setSound name volume pitch =>
      exact Preserves.bind (h.of_steersNobody (steersNobody_changeSound who name volume pitch))
        fun _ => preserves_pure _
  | unsetSound =>
      refine Preserves.bind (h.of_steersNobody ?_) fun _ => preserves_pure _
      exact steersNobody_onCharacter fun _ => rfl
  | setBalloon id =>
      exact Preserves.bind (h.of_steersNobody (steersNobody_changeBalloon who id))
        fun _ => preserves_pure _
  | unsetBalloon =>
      refine Preserves.bind (h.of_steersNobody ?_) fun _ => preserves_pure _
      exact steersNobody_onCharacter fun _ => rfl
  | showBalloon id =>
      exact Preserves.bind (h.of_steersNobody (steersNobody_showBalloon who id))
        fun _ => preserves_pure _

end Unsteered

theorem unsteered_onCourse : Unsteered who (OnCourse who c) :=
  ⟨SteersNobody.onCourse, fun g => preserves_modify fun _ => OnCourse.update id g fun _ => rfl⟩

theorem onCourse_runLine (route : Route) (i : Nat) (line : RouteInstruction) :
    (runLine who route i line).Preserves (OnCourse who c) := unsteered_onCourse.runLine route i line

/-! ### The end of a route -/

theorem course?_resumed {s : Session} {c' : Course} (h : s.course? who = some c') :
    (resumed who s).course? who = some c'.restored := by
  rw [resumed, course?_updateCharacter_self (g := Course.restored) fun _ => rfl]
  change (s.course? who).map _ = _
  rw [h]
  rfl

/-- At its end a route starts over, or it was the character's own and stays as it is, or it was
forced and what was put aside is taken up again. -/
theorem onCourse_finishRoute {s : Session} (h : s.OnCourse who c) :
    ∃ finished t, finishRoute who s = .ok finished t ∧
      (t.OnCourse who c ∨ (finished = true ∧ t.NextOnCourse who c)) := by
  obtain ⟨c', hc, hk⟩ := h
  have hforcing : (s.character who).forcing = c.forcing := by
    rw [← hk.forcing, ← course_character hc]
    rfl
  cases hr : (s.character who).activeRoute.repeats with
  | true =>
      refine ⟨_, _, finishRoute_of_repeats hr, Or.inl ?_⟩
      exact OnCourse.update (fun _ => 0) (fun _ => [true]) (fun _ => rfl) ⟨c', hc, hk⟩
  | false =>
      cases hf : c.forcing with
      | true =>
          refine ⟨_, _, finishRoute_of_forcing hr (hforcing.trans hf), Or.inr ⟨rfl, ?_⟩⟩
          exact ⟨c'.restored, course?_resumed hc, Or.inr ⟨hf, hk.restored⟩⟩
      | false => exact ⟨_, _, finishRoute_of_own hr (hforcing.trans hf), Or.inl ⟨c', hc, hk⟩⟩

theorem nextOnCourse_passEnd {route : Route} {n : Nat} {s : Session}
    (ih : ∀ {s : Session}, s.OnCourse who c → ((walkLines who route n).after s).NextOnCourse who c)
    (h : s.OnCourse who c) : ((passEnd who route n).after s).NextOnCourse who c := by
  obtain ⟨finished, t, hf, ht⟩ := onCourse_finishRoute h
  have hpass : passEnd who route n s =
      (if finished then pure () else walkLines who route n : Play Unit) t := bind_of_ok hf
  unfold after at ih ⊢
  rw [hpass]
  cases finished with
  | true => exact ht.elim OnCourse.next And.right
  | false =>
      have ht : t.OnCourse who c := ht.resolve_right fun h => Bool.false_ne_true h.1
      exact ih ht

theorem nextOnCourse_walkLines (route : Route) (budget : Nat) {s : Session}
    (h : s.OnCourse who c) : ((walkLines who route budget).after s).NextOnCourse who c := by
  induction budget generalizing s with
  | zero => exact h.next
  | succ n ih =>
      unfold after
      cases hline : route.steps[(s.character who).routeIndex]? with
      | none =>
          rw [walkLines_of_none hline]
          exact nextOnCourse_passEnd ih h
      | some step =>
          cases step with
          | finish =>
              rw [walkLines_of_finish hline]
              exact nextOnCourse_passEnd ih (h.update (fun _ => route.length) id fun _ => rfl)
          | script line =>
              rw [walkLines_of_script hline]
              have hrun := @onCourse_runLine who c route (s.character who).routeIndex line
              cases hline : runLine who route (s.character who).routeIndex line s with
              | error e t =>
                  rw [bind_of_error hline]
                  exact (hrun.of_error h hline).next
              | ok next t =>
                  rw [bind_of_ok hline]
                  exact ih ((hrun.of_ok h hline).update (fun _ => next) id fun _ => rfl)
          | move m =>
              rw [walkLines_of_move hline]
              refine OnCourse.next (Preserves.bind (steersNobody_takeStep who m).onCourse
                (fun _ => preserves_getBind fun t => Preserves.ite ?_ (preserves_pure _)) s h)
              exact preserves_modify fun _ => OnCourse.update (· + 1) id fun _ => rfl

/-- **What one frame does to a course**: it stays but for the position and the branches taken, or
the forced route ends and what was put aside is taken up again. -/
theorem course_walk {s : Session} (h : s.course? who = some c) :
    ((walk who).after s).NextOnCourse who c := by
  have hs : s.OnCourse who c := ⟨c, h, .refl c⟩
  by_cases hw : 0 < (s.character who).waitCount
  · rw [after_of_ok (by rw [walk_apply, if_pos hw])]
    refine OnCourse.next (hs.update id id ?_)
    exact fun _ => rfl
  · have := nextOnCourse_walkLines (s.character who).activeRoute
      ((s.character who).activeRoute.length + 1) hs
    rwa [after, walk_apply, if_neg hw]

end Play

/-! ### Histories -/

/-- What the routes handed to a character have been. -/
structure RouteHistory where
  /-- The route that the character was given last. -/
  own : Option Route := none
  /-- Where the character's route stood when the first of the latest forced routes that follow one
  another interrupted it. -/
  stood : Nat := 0
  /-- The routes, with the position in each, that were interrupted since a forced route last came to
  its end. -/
  interrupted : List (Option Route × Nat) := []
  /-- What was resumed at the latest end since the character was given a route, if there was one. -/
  resumed : Option (Option Route) := none

namespace RouteHistory

/-- What is resumed after some interruptions: the first route that is one, or else the latest. -/
def putBack (h : RouteHistory) : Option Route × Nat :=
  ((h.interrupted.find? (·.1.isSome)).or h.interrupted.getLast?).getD (none, 0)

/-- The character is given a route. -/
def given (h : RouteHistory) (r : Option Route) : RouteHistory :=
  { h with own := r, resumed := none }

/-- A route is forced while the character is on a course. -/
def forced (h : RouteHistory) (c : Course) : RouteHistory :=
  { h with
    stood := if c.forcing then h.stood else c.index
    interrupted := h.interrupted ++ [(c.route, c.index)] }

/-- A forced route comes to its end. -/
def ended (h : RouteHistory) : RouteHistory :=
  { h with interrupted := [], resumed := some h.putBack.1 }

/-- A frame passes, in which a forced route may come to its end. -/
def frame (h : RouteHistory) (before after : Course) : RouteHistory :=
  if before.forcing && !after.forcing then h.ended else h

end RouteHistory

/-- A character is given routes and made to go through others, while frames pass and other things
happen that leave its course alone.  Operations that fail count for what they did. -/
inductive RouteRun (who : CharacterId) : RouteHistory → Session → Course → Prop
  | start {s : Session} {c : Course} (hs : s.course? who = some c) (none_aside : c.savedRoute = none)
      (calm : c.forcing = false) : RouteRun who { own := c.route } s c
  | given {h : RouteHistory} {s t : Session} {c c' : Course} {v : Json} {r : Option Route}
      (run : RouteRun who h s c) (read : (Route.read v).result = .ok r)
      (ht : (Play.setRoute who v).after s = t) (hc : t.course? who = some c') :
      RouteRun who (h.given r) t c'
  | forced {h : RouteHistory} {s t : Session} {c c' : Course} {v : Json} {r : Route}
      (run : RouteRun who h s c) (read : (Route.read v).result = .ok (some r))
      (ht : (Play.forceRoute who v).after s = t) (hc : t.course? who = some c') :
      RouteRun who (h.forced c) t c'
  | frame {h : RouteHistory} {s t : Session} {c c' : Course} (run : RouteRun who h s c)
      (ht : (Play.walk who).after s = t) (hc : t.course? who = some c') :
      RouteRun who (h.frame c c') t c'
  | aside {h : RouteHistory} {s t : Session} {c : Course} (run : RouteRun who h s c)
      (ht : t.course? who = some c) : RouteRun who h t c

/-! ### What is put aside -/

namespace RouteHistory

/-- A history records a course: what was put aside is what will be resumed, and a character that no
route is forced on follows its own route, or the one that was resumed. -/
structure Records (h : RouteHistory) (c : Course) : Prop where
  aside : h.interrupted = [] → c.savedRoute = none ∧ c.forcing = false
  saved : h.interrupted ≠ [] → (c.savedRoute, c.savedIndex) = h.putBack
  calm : c.forcing = false → c.route = h.resumed.getD h.own

/-- A new interruption counts if no route was interrupted before. -/
theorem putBack_forced (h : RouteHistory) (c : Course) :
    (h.forced c).putBack = if h.putBack.1.isSome then h.putBack else (c.route, c.index) := by
  simp only [putBack, RouteHistory.forced, List.find?_append, List.getLast?_append]
  rcases (h.interrupted.find? (·.1.isSome)).eq_none_or_eq_some with hfind | ⟨found, hfind⟩
  · -- none of the routes that were interrupted before is one
    have hnone : (h.interrupted.getLast?.getD (none, 0)).1.isSome = false := by
      cases hlast : h.interrupted.getLast? with
      | none => rfl
      | some last =>
          have := List.find?_eq_none.1 hfind last (List.mem_of_getLast? hlast)
          simpa using this
    cases c.route <;> simp [hfind, hnone]
  · have hfound : found.1.isSome = true := by simpa using List.find?_some hfind
    simp [hfind, hfound]

variable {h : RouteHistory} {c c' : Course}

theorem Records.given (hr : h.Records c) (r : Option Route) :
    (h.given r).Records (c.handed r) :=
  ⟨fun he => ⟨(hr.aside he).1, rfl⟩, hr.saved, fun _ => rfl⟩

theorem Records.forced (hr : h.Records c) (r : Option Route) :
    (h.forced c).Records (c.interruptedBy r) := by
  refine ⟨fun he => ?_, fun _ => ?_, fun hf => ?_⟩
  · simp [RouteHistory.forced] at he
  · rw [putBack_forced]
    by_cases hne : h.interrupted = []
    · have hnone := (hr.aside hne).1
      simp [Course.interruptedBy, hnone, putBack, hne]
    · rw [← hr.saved hne]
      cases hs : c.savedRoute <;> simp [Course.interruptedBy, hs]
  · cases hf

theorem Records.next (hr : h.Records c) (hc : c.Next c') : (h.frame c c').Records c' := by
  rcases hc with hk | ⟨hf, rfl⟩
  · have hsame : h.frame c c' = h := by
      rw [RouteHistory.frame, hk.forcing]
      cases c.forcing <;> rfl
    rw [hsame]
    refine ⟨fun he => ?_, fun hne => ?_, fun hf => ?_⟩
    · rw [hk.savedRoute, hk.forcing]
      exact hr.aside he
    · rw [hk.savedRoute, hk.savedIndex]
      exact hr.saved hne
    · rw [hk.route]
      exact hr.calm (hk.forcing ▸ hf)
  · have hended : h.frame c c.restored = h.ended := by
      rw [RouteHistory.frame, hf]
      rfl
    have hne : h.interrupted ≠ [] := fun he => by
      have := (hr.aside he).2
      simp [hf] at this
    rw [hended]
    refine ⟨fun _ => ⟨rfl, rfl⟩, fun h => absurd rfl h, fun _ => ?_⟩
    exact congrArg Prod.fst (hr.saved hne)

end RouteHistory

/-! ### Runs -/

namespace RouteRun

variable {who : CharacterId} {h : RouteHistory} {s : Session} {c : Course}

/-- **A run leaves a course that its history records.** -/
theorem records (run : RouteRun who h s c) : h.Records c ∧ s.course? who = some c := by
  induction run with
  | start hs none_aside calm =>
      exact ⟨⟨fun _ => ⟨none_aside, calm⟩, fun h => absurd rfl h, fun _ => rfl⟩, hs⟩
  | given run read ht hc ih =>
      obtain ⟨hr, hs⟩ := ih
      have := Play.course?_setRoute read hs
      rw [ht, hc, Option.some_inj] at this
      exact ⟨this ▸ hr.given _, hc⟩
  | forced run read ht hc ih =>
      obtain ⟨hr, hs⟩ := ih
      have := Play.course?_forceRoute read hs
      rw [ht, hc, Option.some_inj] at this
      exact ⟨this ▸ hr.forced _, hc⟩
  | frame run ht hc ih =>
      obtain ⟨hr, hs⟩ := ih
      obtain ⟨c', hc', hnext⟩ := Play.course_walk hs
      rw [ht, hc, Option.some_inj] at hc'
      exact ⟨hr.next (hc' ▸ hnext), hc⟩
  | aside run ht ih => exact ⟨ih.1, ht⟩

/-- **When a forced route is only an interruption.**  A character that no route is forced on follows
the route that it was given last just if every end of a forced route since then has resumed that
one; and at such an end the character is where its own route stood just if the first of the routes
that were interrupted since the end before, or the latest where none of them is a route, was its own
one standing there. -/
theorem interrupts_iff (run : RouteRun who h s c) :
    (c.forcing = false → (c.route = h.own ↔ ∀ r, h.resumed = some r → r = h.own)) ∧
    (c.forcing = true → ∀ c', ((Play.walk who).after s).course? who = some c' →
      c'.forcing = false →
        (c'.route, c'.index) = h.putBack ∧
        (c'.route = h.own ∧ c'.index = h.stood ↔ h.putBack = (h.own, h.stood))) := by
  obtain ⟨hr, hs⟩ := run.records
  refine ⟨fun calm => ?_, fun hf c' hc' hended => ?_⟩
  · rw [hr.calm calm]
    cases hres : h.resumed with
    | none => simp
    | some r => simp
  · obtain ⟨c'', hc'', hnext⟩ := Play.course_walk hs
    obtain rfl : c'' = c' := Option.some_inj.1 (hc''.symm.trans hc')
    rcases hnext with hk | ⟨-, rfl⟩
    · rw [hk.forcing, hf] at hended
      cases hended
    · have hne : h.interrupted ≠ [] := fun he => by
        rw [(hr.aside he).2] at hf
        cases hf
      have hput : (c.restored.route, c.restored.index) = h.putBack := hr.saved hne
      refine ⟨hput, ?_⟩
      rw [← hput, Prod.mk.injEq]

/-- A route forced on a character without a route of its own, standing at its start. -/
theorem interrupts_iff_blank :
    let s := (Play.forceRoute .player (.obj [])).after {}
    ∀ c', ((Play.walk .player).after s).course? .player = some c' → c'.forcing = false →
      c'.route = none ∧ c'.index = 0 := by
  intro s c' hc hended
  have hread : (Route.read (.obj [])).result = .ok (some (Route.ofSteps [] false false false [])) :=
    rfl
  have start : RouteRun .player {} {} ({} : Character).course :=
    .start (c := ({} : Character).course) rfl rfl rfl
  have run : RouteRun .player _ s _ := .forced start hread rfl (Play.course?_forceRoute hread rfl)
  exact ((interrupts_iff run).2 rfl c' hc hended).2.2 rfl

/-- **A forced route is not always only an interruption**: two routes are forced, one after the
other, on a character without a route of its own, and at the end of the second the character is left
with the first. -/
theorem keeps_earlier_forced_route :
    ¬ ∀ (who : CharacterId) (h : RouteHistory) (s : Session) (c : Course), RouteRun who h s c →
      c.forcing = false → c.route = h.own := by
  intro claim
  have first : (Route.read (.obj [("repeat", .bool true)])).result =
      .ok (some (Route.ofSteps [] true false false [])) := rfl
  have second : (Route.read (.obj [])).result = .ok (some (Route.ofSteps [] false false false [])) :=
    rfl
  have start : RouteRun .player {} {} ({} : Character).course :=
    .start (c := ({} : Character).course) rfl rfl rfl
  have once : RouteRun .player _ _ _ := .forced start first rfl (Play.course?_forceRoute first rfl)
  have twice : RouteRun .player _ _ _ :=
    .forced once second rfl (Play.course?_forceRoute second (Play.course?_forceRoute first rfl))
  have ended : RouteRun .player _ _ (Course.mk (some (Route.ofSteps [] true false false [])) 0 none 0
      false [true]) := .frame twice rfl rfl
  cases claim _ _ _ _ ended rfl

end RouteRun

end EventLayer
