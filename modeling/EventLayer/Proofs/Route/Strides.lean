/-
**The lines that a frame passes.**

In one frame a character goes past script lines, and past the end of a route that starts over, until
it comes to a step, which it takes, or to the end of a route that does not start over.  The number of
lines that a frame may pass is bounded by the length of the route and one more.  The bound never cuts
a route short: script lines lead forward, so that a frame that uses it up has passed the end of its
route, and behind that it has come back to where it began.

Main definitions:

* `Visit`, `Play.Strides` — the lines passed on the way, and the ends;
* `Play.TakesStep`, `Play.EndsRoute`, `Play.Raises` — how a frame ends where the way stops;
* `Play.ComesRound` — the way has come back to where it began.

Main results:

* `Play.next_runLine` — where a script line leads;
* `Play.walkLines_strides` — a frame passes so many lines, or stops before that;
* `Play.walk_strides` — **the bound never cuts a route short**.
-/
import EventLayer.Proofs.Character.ForcedRoute
import EventLayer.Proofs.Route.Matching
import EventLayer.Proofs.Route.Passage

set_option autoImplicit false
set_option relaxedAutoImplicit false

namespace EventLayer

open Pairing (kindAt Belongs Stray IsNext IsEnd)

/-! ### Where markers jump to -/

namespace Route

/-- The parts that the steps of a route play in chains of branches. -/
def kinds (r : Route) : List (Option MarkerKind) := r.steps.map RouteStep.marker?

/-- The markers of a route have been paired. -/
def Paired (r : Route) : Prop := r.pairing = (Pairing.ofKinds r.kinds).found

theorem paired_of_read {v : Json} {r : Route} (h : (Route.read v).result = .ok (some r)) : r.Paired :=
  pairing_of_read h

variable {r : Route} {i j e : Nat}

theorem length_kinds (r : Route) : r.kinds.length = r.length := List.length_map _

theorem kindAt_kinds {step : RouteStep} (h : r.steps[i]? = some step) :
    kindAt r.kinds i = step.marker? := by
  rw [kindAt, kinds, List.getElem?_map, h]
  rfl

theorem Paired.next_iff (hr : r.Paired) :
    r.pairing.next.lookup i = some j ↔ IsNext r.kinds i j := by
  rw [hr, Pairing.ofKinds_next]

theorem Paired.ends_iff (hr : r.Paired) : r.pairing.ends.lookup i = some e ↔ IsEnd r.kinds i e := by
  rw [hr, Pairing.ofKinds_ends]

/-- A marker whose chain has been decided leads forward. -/
theorem Paired.leaveTarget_forward (hr : r.Paired) {kind : MarkerKind}
    (hk : kindAt r.kinds i = some kind) (hne : kind ≠ .closing) :
    i < r.leaveTarget i ∧ r.leaveTarget i ≤ r.length := by
  have hnot : kindAt r.kinds i ≠ some .closing := by
    rw [hk]
    simpa using hne
  rw [leaveTarget, ← r.length_kinds]
  cases he : r.pairing.ends.lookup i with
  | none => exact ⟨Pairing.lt_length_of_kindAt hk, le_rfl⟩
  | some e => exact (hr.ends_iff.1 he).lt hnot

/-- A marker whose condition fails leads forward. -/
theorem Paired.failTarget_forward (hr : r.Paired) {kind : MarkerKind}
    (hk : kindAt r.kinds i = some kind) (hne : kind ≠ .closing) :
    i < r.failTarget i ∧ r.failTarget i ≤ r.length := by
  rw [failTarget]
  cases hj : r.pairing.next.lookup i with
  | none => exact hr.leaveTarget_forward hk hne
  | some j =>
      have := (hr.next_iff.1 hj).lt
      rw [r.length_kinds] at this
      exact ⟨this.1, this.2.le⟩

/-- The route is over at a position. -/
def EndsAt (r : Route) (i : Nat) : Prop := r.steps[i]? = none ∨ r.steps[i]? = some .finish

end Route

namespace Play

open Session

variable {who : CharacterId} {r : Route} {i next : Nat} {s t : Session}

/-! ### Where script lines lead -/

theorem next_ask {c : RouteCondition} {enter skip : Nat}
    (h : (do
      if ← c.holds who then
        onCharacter who fun h => { h with branches := true :: h.branches.tail }
        return enter
      return skip : Play Nat) s = .ok next t) : next = enter ∨ next = skip := by
  obtain ⟨taken, u, -, h⟩ := bind_eq_ok h
  cases taken with
  | true =>
      cases h
      exact .inl rfl
  | false =>
      cases h
      exact .inr rfl

/-- A script line leads to the line that follows, or, if it opens or continues a chain, to one of
the places that markers jump to. -/
theorem next_runLine {line : RouteInstruction} (h : runLine who r i line s = .ok next t) :
    next = i + 1 ∨ (∃ kind, line.marker? = some kind ∧ kind ≠ .closing) ∧
      (next = r.failTarget i ∨ next = r.leaveTarget i) := by
  cases line with
  | openIf c =>
      rw [runLine, openBranch, onCharacter, modify_bind_apply] at h
      exact (next_ask h).imp_right fun hskip => ⟨⟨.opening, rfl, by decide⟩, .inl hskip⟩
  | orElse c =>
      rw [runLine, nextBranch, get_bind_apply] at h
      split at h
      · cases h
        exact .inr ⟨⟨.alternative, rfl, by decide⟩, .inr rfl⟩
      · cases c with
        | none =>
            cases h
            exact .inl rfl
        | some c =>
            exact (next_ask h).imp_right fun hskip => ⟨⟨.alternative, rfl, by decide⟩, .inl hskip⟩
  | endIf =>
      rw [runLine, closeBranch, get_bind_apply] at h
      dsimp only at h
      split at h <;> cases h <;> exact .inl rfl
  | _ => exact .inl (runLine_plain rfl h).1

/-- **A script line leads forward**, at most to the end of the route. -/
theorem runLine_forward (hr : r.Paired) {line : RouteInstruction}
    (hline : r.steps[i]? = some (.script line)) (h : runLine who r i line s = .ok next t) :
    i < next ∧ next ≤ r.length := by
  rcases next_runLine h with rfl | ⟨⟨kind, hk, hne⟩, hjump⟩
  · exact ⟨Nat.lt_succ_self i, (List.getElem?_eq_some_iff.1 hline).1⟩
  · have hkind : kindAt r.kinds i = some kind := (Route.kindAt_kinds hline).trans hk
    rcases hjump with rfl | rfl
    · exact hr.failTarget_forward hkind hne
    · exact hr.leaveTarget_forward hkind hne

end Play

/-! ### The way of a frame -/

/-- What a frame comes past. -/
inductive Visit where
  /-- A script line, and the position that it leads to. -/
  | line (i next : Nat)
  /-- The end of a route that starts over. -/
  | again
deriving DecidableEq

namespace Play

open Session

/-- Where a character stands in its route. -/
def place (who : CharacterId) (s : Session) : Nat := (s.character who).routeIndex

/-- A character goes on at a position. -/
def goTo (who : CharacterId) (next : Nat) (s : Session) : Session :=
  s.updateCharacter who fun c => { c with routeIndex := next }

/-- A character starts its route over. -/
def startOver (who : CharacterId) (s : Session) : Session :=
  s.updateCharacter who fun c => { c with routeIndex := 0, branches := [true] }

/-- A character goes along a route past script lines, and past the end of a route that starts over:
the session before, what is passed, and the session after. -/
inductive Strides (who : CharacterId) (r : Route) : Session → List Visit → Session → Prop
  | here (s : Session) : Strides who r s [] s
  | line {s t u : Session} {l : List Visit} {line : RouteInstruction} {next : Nat}
      (hline : r.steps[place who s]? = some (.script line))
      (run : runLine who r (place who s) line s = .ok next t)
      (rest : Strides who r (goTo who next t) l u) :
      Strides who r s (.line (place who s) next :: l) u
  | again {s u : Session} {l : List Visit} (hend : r.EndsAt (place who s)) (hr : r.repeats = true)
      (rest : Strides who r (startOver who s) l u) : Strides who r s (.again :: l) u

/-- A condition that is asked, or a step, raises a fault. -/
inductive Raises (who : CharacterId) (r : Route) (s : Session) :
    EStateM.Result Fault Session Unit → Prop
  | line {line : RouteInstruction} {e : Fault} {t : Session}
      (hline : r.steps[place who s]? = some (.script line))
      (run : runLine who r (place who s) line s = .error e t) : Raises who r s (.error e t)
  | step {m : Move} {e : Fault} {t : Session} (hline : r.steps[place who s]? = some (.move m))
      (run : takeStep who m s = .error e t) : Raises who r s (.error e t)

/-- A step is taken, and passed unless it is blocked and may not be passed over. -/
inductive TakesStep (who : CharacterId) (r : Route) (s : Session) :
    EStateM.Result Fault Session Unit → Prop
  | step {m : Move} {t : Session} (hline : r.steps[place who s]? = some (.move m))
      (run : takeStep who m s = .ok () t) :
      TakesStep who r s (.ok ()
        (if (t.character who).moveSucceeded || r.skippable
          then t.updateCharacter who fun c => { c with routeIndex := c.routeIndex + 1 } else t))

/-- A route that does not start over has come to its end: one that was forced gives way to the one
that it interrupted. -/
inductive EndsRoute (who : CharacterId) (r : Route) (s : Session) :
    EStateM.Result Fault Session Unit → Prop
  | ended {t : Session} (hr : r.repeats = false)
      (hend : r.steps[place who s]? = none ∧ t = s ∨
        r.steps[place who s]? = some .finish ∧ t = goTo who r.length s) :
      EndsRoute who r s (.ok () (if (t.character who).forcing then resumed who t else t))

/-- A way that began at position `i` has passed the end of the route, and behind it has come back to
that position, or has passed the end again. -/
def ComesRound (who : CharacterId) (i : Nat) (l : List Visit) (s : Session) : Prop :=
  ∃ a b, l = a ++ .again :: b ∧ .again ∉ a ∧ (.again ∈ b ∨ i ≤ place who s)

variable {who : CharacterId} {r : Route} {s t u : Session} {c : Course} {l l' : List Visit}

/-- A character that is on a route. -/
structure StandsOn (who : CharacterId) (r : Route) (c : Course) (s : Session) : Prop where
  course : s.OnCourse who c
  route : c.route.getD {} = r

theorem place_of_course (h : s.course? who = some c) : place who s = c.index := routeIndex_character h

theorem place_goTo (h : s.OnCourse who c) (next : Nat) : place who (goTo who next s) = next := by
  obtain ⟨c', hc, -⟩ := h
  exact place_of_course (course?_onCharacter (g := fun c => { c with index := next })
    (fun _ => rfl) hc)

theorem place_startOver (h : s.OnCourse who c) : place who (startOver who s) = 0 := by
  obtain ⟨c', hc, -⟩ := h
  exact place_of_course (course?_onCharacter (g := fun c => { c with index := 0, branches := [true] })
    (fun _ => rfl) hc)

theorem startOver_goTo (who : CharacterId) (next : Nat) (s : Session) :
    startOver who (goTo who next s) = startOver who s := by
  rw [startOver, goTo, updateCharacter_updateCharacter]
  rfl

theorem StandsOn.goTo (h : StandsOn who r c s) (next : Nat) : StandsOn who r c (goTo who next s) :=
  ⟨h.course.update (fun _ => next) id fun _ => rfl, h.route⟩

theorem StandsOn.startOver (h : StandsOn who r c s) : StandsOn who r c (startOver who s) :=
  ⟨h.course.update (fun _ => 0) (fun _ => [true]) fun _ => rfl, h.route⟩

/-- A character that has carried out a script line is still on its route, where the line leads. -/
theorem StandsOn.line (h : StandsOn who r c s) {line : RouteInstruction} {next : Nat}
    (run : runLine who r (place who s) line s = .ok next t) :
    StandsOn who r c (Play.goTo who next t) ∧ place who (Play.goTo who next t) = next := by
  have hcourse := (onCourse_runLine r (place who s) line).of_ok h.course run
  exact ⟨⟨hcourse.update (fun _ => next) id fun _ => rfl, h.route⟩, place_goTo hcourse next⟩

/-- Along the way the character is on its route. -/
theorem Strides.standsOn (h : Strides who r s l t) (hs : StandsOn who r c s) :
    StandsOn who r c t := by
  induction h with
  | here s => exact hs
  | line hline run rest ih => exact ih (hs.line run).1
  | again hend hrep rest ih => exact ih hs.startOver

/-- What a character comes to on its way, if it leads there from every line and every end. -/
theorem Strides.reaches {P : Nat → Prop} (h : Strides who r s l t) (hs : StandsOn who r c s)
    (hline : ∀ {i : Nat} {line : RouteInstruction} {s t : Session} {next : Nat}, P i →
      r.steps[i]? = some (.script line) → runLine who r i line s = .ok next t → P next)
    (hstart : P 0) (hp : P (place who s)) :
    (∀ i next, .line i next ∈ l → P i ∧ P next) ∧ P (place who t) := by
  induction h with
  | here s => exact ⟨nofun, hp⟩
  | line hat run rest ih =>
      have hnext := hline hp hat run
      obtain ⟨hst, hplace⟩ := hs.line run
      obtain ⟨hall, hend⟩ := ih hst (hplace.symm ▸ hnext)
      refine ⟨fun i next hv => ?_, hend⟩
      rcases List.mem_cons.1 hv with heq | hv
      · cases heq
        exact ⟨hp, hnext⟩
      · exact hall i next hv
  | again hat hrep rest ih =>
      obtain ⟨hall, hend⟩ := ih hs.startOver ((place_startOver hs.course).symm ▸ hstart)
      exact ⟨fun i next hv => hall i next ((List.mem_cons.1 hv).resolve_left (by simp)), hend⟩

/-- Along the way the character does not leave its route. -/
theorem Strides.within (hr : r.Paired) (h : Strides who r s l t) (hs : StandsOn who r c s)
    (hin : place who s ≤ r.length) : place who t ≤ r.length :=
  (h.reaches (P := (· ≤ r.length)) hs (fun _ hline run => (runLine_forward hr hline run).2)
    (Nat.zero_le _) hin).2

/-- **Every jump leads forward**, at most to the end of the route. -/
theorem Strides.forward (hr : r.Paired) (h : Strides who r s l t) {i next : Nat}
    (hv : .line i next ∈ l) : i < next ∧ next ≤ r.length := by
  induction h with
  | here s => cases hv
  | line hline run rest ih =>
      rcases List.mem_cons.1 hv with heq | hv
      · cases heq
        exact runLine_forward hr hline run
      · exact ih hv
  | again hend hrep rest ih => exact ih ((List.mem_cons.1 hv).resolve_left (by simp))

/-- A way that passes no end gets ahead by a position at least with every line. -/
theorem Strides.advance (hr : r.Paired) (h : Strides who r s l t) (hs : StandsOn who r c s)
    (hl : .again ∉ l) : place who s + l.length ≤ place who t := by
  induction h with
  | here s => exact le_rfl
  | line hline run rest ih =>
      obtain ⟨hst, hplace⟩ := hs.line run
      have := (runLine_forward hr hline run).1
      have := ih hst fun hin => hl (List.mem_cons_of_mem _ hin)
      rw [hplace] at this
      rw [List.length_cons]
      omega
  | again hend hrep rest ih => exact absurd List.mem_cons_self hl

/-- Only the end of a route that starts over is passed. -/
theorem Strides.repeats (h : Strides who r s l t) (hl : .again ∈ l) : r.repeats = true := by
  induction h with
  | here s => cases hl
  | line hline run rest ih => exact ih ((List.mem_cons.1 hl).resolve_left (by simp))
  | again hend hrep rest ih => exact hrep

/-- A way has a place between any two of its parts. -/
theorem Strides.split (h : Strides who r s (l ++ l') u) :
    ∃ t, Strides who r s l t ∧ Strides who r t l' u := by
  induction l generalizing s with
  | nil => exact ⟨s, .here s, h⟩
  | cons v l ih =>
      cases h with
      | line hline run rest =>
          obtain ⟨t, ht, ht'⟩ := ih rest
          exact ⟨t, .line hline run ht, ht'⟩
      | again hend hrep rest =>
          obtain ⟨t, ht, ht'⟩ := ih rest
          exact ⟨t, .again hend hrep ht, ht'⟩

/-- **A way past as many lines as the route is long, and one more, has come round.** -/
theorem Strides.comesRound (hr : r.Paired) (h : Strides who r s l t) (hs : StandsOn who r c s)
    (hin : place who s ≤ r.length) (hl : l.length = r.length + 1) :
    ComesRound who (place who s) l t := by
  have hagain : .again ∈ l := by
    by_contra hnone
    have := h.advance hr hs hnone
    have := h.within hr hs hin
    omega
  obtain ⟨a, b, rfl, ha⟩ := List.eq_append_cons_of_mem hagain
  refine ⟨a, b, rfl, ha, ?_⟩
  by_cases hb : .again ∈ b
  · exact .inl hb
  · obtain ⟨v, hfirst, hrest⟩ := h.split
    cases hrest with
    | again hend hrep hrest =>
        have hv := hfirst.standsOn hs
        have hbefore := hfirst.advance hr hs ha
        have hbehind := hrest.advance hr hv.startOver hb
        have := hfirst.within hr hs hin
        rw [place_startOver hv.course] at hbehind
        rw [List.length_append, List.length_cons] at hl
        exact .inr (by omega)

/-! ### One frame -/

/-- A frame that may pass so many lines passes them, or stops before that. -/
def Stops (who : CharacterId) (r : Route) (n : Nat) (s : Session)
    (result : EStateM.Result Fault Session Unit) : Prop :=
  ∃ l u, Strides who r s l u ∧
    (l.length = n ∧ result = .ok () u ∨ Raises who r u result ∨ TakesStep who r u result ∨
      EndsRoute who r u result)

theorem Stops.line {n : Nat} {result : EStateM.Result Fault Session Unit} {line : RouteInstruction}
    {next : Nat} (hline : r.steps[place who s]? = some (.script line))
    (run : runLine who r (place who s) line s = .ok next t)
    (h : Stops who r n (goTo who next t) result) : Stops who r (n + 1) s result := by
  obtain ⟨l, u, hl, hstop⟩ := h
  refine ⟨_, u, .line hline run hl, hstop.imp_left fun ⟨hlength, hresult⟩ => ⟨?_, hresult⟩⟩
  rw [List.length_cons, hlength]

theorem Stops.again {n : Nat} {result : EStateM.Result Fault Session Unit}
    (hend : r.EndsAt (place who s)) (hr : r.repeats = true)
    (h : Stops who r n (startOver who s) result) : Stops who r (n + 1) s result := by
  obtain ⟨l, u, hl, hstop⟩ := h
  refine ⟨_, u, .again hend hr hl, hstop.imp_left fun ⟨hlength, hresult⟩ => ⟨?_, hresult⟩⟩
  rw [List.length_cons, hlength]

/-- A character on its course follows that route. -/
theorem activeRoute_standsOn (h : StandsOn who r c s) : (s.character who).activeRoute = r := by
  obtain ⟨c', hc, hk⟩ := h.course
  rw [← h.route, ← hk.route, ← course_character hc]
  rfl

theorem passEnd_of_over {n : Nat} (hr : (t.character who).activeRoute.repeats = false) :
    passEnd who r n t = .ok () (if (t.character who).forcing then resumed who t else t) := by
  cases hf : (t.character who).forcing with
  | true =>
      rw [passEnd, bind_of_ok (finishRoute_of_forcing hr hf)]
      rfl
  | false =>
      rw [passEnd, bind_of_ok (finishRoute_of_own hr hf)]
      rfl

/-- At its end a route starts over and goes on with the lines that are left, or the frame is over. -/
theorem stops_at_end {n : Nat} {s t : Session}
    (hlines : ∀ {s : Session}, StandsOn who r c s → Stops who r n s (walkLines who r n s))
    (hs : StandsOn who r c s) (ht : StandsOn who r c t) (hover : startOver who t = startOver who s)
    (hat : r.steps[place who s]? = none ∧ t = s ∨
      r.steps[place who s]? = some .finish ∧ t = goTo who r.length s) :
    Stops who r (n + 1) s (passEnd who r n t) := by
  have hactive := activeRoute_standsOn ht
  cases hrep : r.repeats with
  | true =>
      have hpass : passEnd who r n t = walkLines who r n (startOver who s) := by
        rw [passEnd, bind_of_ok (finishRoute_of_repeats (hactive ▸ hrep)), ← hover]
        rfl
      rw [hpass]
      exact .again (hat.imp And.left And.left) hrep (hlines hs.startOver)
  | false =>
      rw [passEnd_of_over (hactive ▸ hrep)]
      exact ⟨[], s, .here s, .inr (.inr (.inr (.ended hrep hat)))⟩

/-- **A frame passes so many lines, or stops before that**: at a fault, at a step, or at the end of
a route that does not start over. -/
theorem walkLines_strides (n : Nat) {s : Session} (hs : StandsOn who r c s) :
    Stops who r n s (walkLines who r n s) := by
  induction n generalizing s with
  | zero => exact ⟨[], s, .here s, .inl ⟨rfl, rfl⟩⟩
  | succ n ih =>
      cases hline : r.steps[place who s]? with
      | none =>
          rw [walkLines_of_none hline]
          exact stops_at_end ih hs hs rfl (.inl ⟨hline, rfl⟩)
      | some step =>
          cases step with
          | finish =>
              rw [walkLines_of_finish hline]
              have hover := startOver_goTo who r.length s
              exact stops_at_end ih hs (hs.goTo r.length) hover (.inr ⟨hline, rfl⟩)
          | script line =>
              rw [walkLines_of_script hline]
              cases run : runLine who r (place who s) line s with
              | error e t =>
                  rw [show (s.character who).routeIndex = place who s from rfl, bind_of_error run]
                  exact ⟨[], s, .here s, .inr (.inl (.line hline run))⟩
              | ok next t =>
                  rw [show (s.character who).routeIndex = place who s from rfl, bind_of_ok run]
                  exact .line hline run (ih (hs.line run).1)
          | move m =>
              rw [walkLines_of_move hline]
              cases run : takeStep who m s with
              | error e t =>
                  rw [bind_of_error run]
                  exact ⟨[], s, .here s, .inr (.inl (.step hline run))⟩
              | ok _ t =>
                  rw [bind_of_ok run, get_bind_apply]
                  refine ⟨[], s, .here s, .inr (.inr (.inl ?_))⟩
                  have hstep := TakesStep.step hline run
                  split <;> rename_i hpassed <;> simp only [hpassed] at hstep <;> exact hstep

/-- **The bound never cuts a route short.**  A frame of a character that does not wait, from any
position of any route that was read, goes forward past script lines and starts the route over at
its end, until a condition or a step raises a fault, or it takes the one step of the frame, or it is
at the end of a route that does not start over; or else the route starts over, and behind its end
the frame has come back to where it began, or to the end again. -/
theorem walk_strides {s : Session} {c : Course} (hc : s.course? who = some c)
    (hread : ∀ r, c.route = some r → ∃ v, (Route.read v).result = .ok (some r))
    (hin : c.index ≤ (c.route.getD {}).length) (hwait : (s.character who).waitCount = 0) :
    ∃ l u, Strides who (c.route.getD {}) s l u ∧
      (∀ i next, .line i next ∈ l → i < next ∧ next ≤ (c.route.getD {}).length) ∧
      (Raises who (c.route.getD {}) u (walk who s) ∨
        TakesStep who (c.route.getD {}) u (walk who s) ∨
        EndsRoute who (c.route.getD {}) u (walk who s) ∨
        ((c.route.getD {}).repeats = true ∧ walk who s = .ok () u ∧
          ComesRound who c.index l u)) := by
  generalize hroute : c.route.getD {} = r at hin ⊢
  have hr : r.Paired := by
    cases h : c.route with
    | none =>
        rw [h] at hroute
        exact hroute ▸ rfl
    | some r' =>
        rw [h] at hroute
        obtain ⟨v, hv⟩ := hread r' h
        exact hroute ▸ Route.paired_of_read hv
  have hplace : place who s = c.index := place_of_course hc
  have hs : StandsOn who r c s := ⟨⟨c, hc, .refl c⟩, hroute⟩
  have hwalk : walk who s = walkLines who r (r.length + 1) s := by
    rw [walk_apply, if_neg (by omega), activeRoute_standsOn hs]
  obtain ⟨l, u, hl, hstop⟩ := walkLines_strides (r.length + 1) hs
  refine ⟨l, u, hl, fun i next hv => hl.forward hr hv, ?_⟩
  rw [hwalk]
  rcases hstop with ⟨hlength, hresult⟩ | hraise | hstep | hover
  · have hround := hl.comesRound hr hs (hplace ▸ hin) hlength
    have hagain : .again ∈ l := by
      obtain ⟨a, b, rfl, -⟩ := hround
      simp
    exact .inr (.inr (.inr ⟨hl.repeats hagain, hresult, hplace ▸ hround⟩))
  · exact .inl hraise
  · exact .inr (.inl hstep)
  · exact .inr (.inr (.inl hover))

/-- A route of two effects that starts over, entered behind the first of them. -/
theorem walk_strides_carousel :
    let line : Json := .obj [("code", .int 45), ("parameters", .arr [.str "unsetSe()"])]
    let v : Json := .obj [("list", .arr [line, line]), ("repeat", .bool true)]
    ∃ r : Route, (Route.read v).result = .ok (some r) ∧
      let s : Session := { player := { body := { route := some r, routeIndex := 1 } } }
      ∃ l u, Strides .player r s l u ∧ walk .player s = .ok () u ∧ ComesRound .player 1 l u := by
  intro line v
  have read : (Route.read v).result =
      .ok (some (.ofSteps [.script .unsetSound, .script .unsetSound] true false false [])) := rfl
  refine ⟨_, read, ?_⟩
  intro s
  have hs : s.course? .player = some (s.character .player).course := rfl
  obtain ⟨l, u, hl, -, hstop⟩ := walk_strides hs
    (fun r hr => ⟨v, read.trans (congrArg _ hr)⟩) (show 1 ≤ 2 by decide) rfl
  have hok : ∃ w, walk .player s = .ok () w := ⟨_, rfl⟩
  refine ⟨l, u, hl, ?_⟩
  rcases hstop with hraise | hstep | hover | ⟨-, hresult, hround⟩
  · obtain ⟨w, hw⟩ := hok
    rw [hw] at hraise
    cases hraise
  · -- the route has no step that takes a frame
    have hnone : ∀ (m : Move) (i : Nat),
        ([.script .unsetSound, .script .unsetSound] : List RouteStep)[i]? ≠ some (.move m) := by
      intro m i hi
      have hmem := List.mem_of_getElem? hi
      simp at hmem
    generalize walk .player s = result at hstep
    cases hstep with
    | step hline run => exact absurd hline (hnone _ _)
  · generalize walk .player s = result at hover
    cases hover with
    | ended hr hend => cases hr
  · exact ⟨hresult, hround⟩

end Play

end EventLayer
