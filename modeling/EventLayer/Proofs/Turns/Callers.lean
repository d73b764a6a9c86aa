/-
**A common event leaves its caller as it was.**

A list that has called a common event is suspended until that one has ended.  Whatever happens meanwhile,
in the list of the common event and in those that it calls in its turn, frame after frame, leaves the
lists up to the one that called as they were, to the last detail.  Only a new map, or a new game, ends
this: it drops all lists.  When the common event has ended it is dropped, and the next command that one of
those lists carries out is the one behind the call.

Main definitions:

* `Session.CallersRun` — no list below another one has ended;
* `Session.Suspends`, `Session.Resumes` — while a common event is run, and when it has been dropped;
* `Session.Restacks` — what a turn does to the lists;
* `Turn.EndsCallee` — the turn in which the common event is dropped;
* `Session.Isolates` — how a course treats a list that has called a common event.

Main results:

* `Session.Course.callersRun` — whatever happens, no list below another one ends;
* `Session.Suspends.restacks`, `Session.Resumes.restacks` — a single turn;
* `Session.Course.isolates_of_called` — **common events are isolated from their callers**.
-/
import EventLayer.Proofs.Turns.Calling
import EventLayer.Proofs.Turns.Events
import EventLayer.Proofs.Turns.Course

set_option autoImplicit false
set_option relaxedAutoImplicit false

namespace EventLayer

/-- A list but for what it waits for. -/
def Frame.standing (f : Frame) : Frame := { f with waitCount := 0, awaited := none }

theorem Frame.isRunning_of_standing {f f' : Frame} (h : f'.standing = f.standing) :
    f'.isRunning = f.isRunning := by
  have hcommands : f'.standing.commands = f.standing.commands := by rw [h]
  exact congrArg Option.isSome hcommands

namespace Session

/-- The lists below the innermost one are being run. -/
def CallersRun (s : Session) : Prop := ∀ d < s.interpreter.nested.length, (s.frame d).isRunning = true

/-- A list stands above the one at a depth, and those up to there are as they were in another session. -/
structure Suspends (t : Session) (d : Nat) (u : Session) : Prop where
  depth : d < u.interpreter.nested.length
  upTo : ∀ e ≤ d, u.frame e = t.frame e

/-- The list at a depth is the innermost one again.  It is as it was in another session, but that it may
have waited, and those below are as they were. -/
structure Resumes (t : Session) (d : Nat) (u : Session) : Prop where
  depth : u.interpreter.nested.length = d
  below : ∀ e < d, u.frame e = t.frame e
  standing : (u.frame d).standing = (t.frame d).standing

end Session

namespace Session.Turn

/-- The list called from a depth has ended, and is dropped. -/
structure EndsCallee (turn : Turn) (d : Nat) : Prop where
  depth : turn.before.interpreter.nested.length = d + 1
  ended : (turn.before.frame (d + 1)).isRunning = false
  dropped : turn.after = turn.before.dropCallee d

/-- The list at a depth carries out a command, or one below it does. -/
def IsCommandUpTo (turn : Turn) (d : Nat) : Prop := ∃ e ≤ d, turn.doing = .command e

end Session.Turn

namespace Play

open Session

variable {s t : Session} {d : Nat}

/-! ### What operations do to the lists -/

/-- When a list begins, there is none above it. -/
theorem nested_setupInterpreter (list : Json) (event : Int) (s : Session) :
    ((setupInterpreter list event).after s).interpreter.nested = [] := by
  have hopen : (openFrame list event).Preserves fun t => t.interpreter.nested = [] :=
    preserves_getBind fun _ => (preserves_reading (fun _ _ ht => ht) _).bind fun _ => preserves_pure _
  refine Preserves.holds_after_modify (P := fun t => t.interpreter.nested = []) ?_ rfl
  exact hopen.bind fun _ => preserves_modify fun _ _ => rfl

/-- A list that waits changes nothing else. -/
theorem waits_stands (d : Nat) (s : Session) :
    ((waits d).after s).interpreter.nested.length = s.interpreter.nested.length ∧
      (∀ e, d ≠ e → ((waits d).after s).frame e = s.frame e) ∧
        (((waits d).after s).frame d).standing = (s.frame d).standing := by
  have hchanged : ∀ F : Frame → Frame, (∀ f, (F f).standing = f.standing) →
      (s.updateFrame d F).interpreter.nested.length = s.interpreter.nested.length ∧
        (∀ e, d ≠ e → (s.updateFrame d F).frame e = s.frame e) ∧
          ((s.updateFrame d F).frame d).standing = (s.frame d).standing := by
    intro F hF
    refine ⟨Interpreter.length_nested_modify .., fun e he => ?_, ?_⟩
    · exact Interpreter.frame_modify_of_ne he s.interpreter F
    · exact frame_updateFrame_of_keeps hF s d d
  by_cases hcount : 0 < (s.frame d).waitCount
  · rw [after_of_ok (waits_of_frames hcount)]
    exact hchanged _ fun _ => rfl
  cases hwho : (s.frame d).awaited with
  | none =>
      rw [after_of_ok (waits_of_nobody hcount hwho)]
      exact ⟨rfl, fun _ _ => rfl, rfl⟩
  | some who =>
      cases hforcing : (s.character who).forcing with
      | true =>
          rw [after_of_ok (waits_of_route hcount hwho hforcing)]
          exact ⟨rfl, fun _ _ => rfl, rfl⟩
      | false =>
          rw [after_of_ok (waits_of_ended hcount hwho hforcing)]
          exact hchanged _ fun _ => rfl

end Play

namespace Session

variable {s t u v : Session} {d : Nat} {k : Doing} {l : List Turn}

/-- What a turn does to the lists, unless the player arrives on a map. -/
inductive Restacks : Doing → Session → Session → Prop
  | same {k : Doing} {s t : Session} (h : t.interpreter = s.interpreter) : Restacks k s t
  | command {s : Session} (d : Nat) (hactive : s.active = some d)
      (hdepth : s.interpreter.nested.length = d) : Restacks (.command d) s ((Play.step d).after s)
  | wait {k : Doing} {s : Session} (d : Nat) (hdepth : s.interpreter.nested.length = d) :
      Restacks k s ((Play.waits d).after s)
  | drop {k : Doing} {s : Session} (d : Nat) (hended : (s.frame (d + 1)).isRunning = false) :
      Restacks k s (s.dropCallee d)
  | begin {k : Doing} {s t : Session} (hended : s.interpreter.isRunning = false)
      (h : t.interpreter.nested = []) : Restacks k s t

theorem Does.command_iff : Does (.command d) s t ↔ s.active = some d ∧ s.interpreter.nested.length = d ∧
    (s.frame d).awaited = none ∧ t = (Play.step d).after s := by
  constructor
  · intro h
    cases h with
    | command _ hactive hdepth hfree => exact ⟨hactive, hdepth, hfree, rfl⟩
  · rintro ⟨hactive, hdepth, hfree, rfl⟩
    exact .command d hactive hdepth hfree

theorem Does.restacks (h : Does k s t) (hk : k ≠ .arrived) : Restacks k s t := by
  cases h with
  | command d hactive hdepth _ => exact .command d hactive hdepth
  | wait d hdepth => exact .wait d hdepth
  | drop d hended => exact .drop d hended
  | begin hended hbegins =>
      refine .begin hended ?_
      cases hbegins <;> exact Play.nested_setupInterpreter _ _ _
  | pass _ => exact .same rfl
  | reserve _ => exact .same rfl
  | stir hact => exact .same (GoesOn.of_stirs hact s).lists
  | erase id =>
      rw [Play.after_of_ok (Play.eraseEvent_apply id s)]
      exact .same rfl
  | force who route => cases who <;> exact .same rfl
  | arrive _ => exact absurd rfl hk
  | aside _ hlists _ _ => exact .same hlists

/-! ### Lists below others -/

theorem callersRun_of_nested (h : s.interpreter.nested = []) : s.CallersRun := by
  intro d hd
  rw [h] at hd
  exact absurd hd (Nat.not_lt_zero d)

theorem CallersRun.of_lists (hs : s.CallersRun) (h : t.interpreter = s.interpreter) : t.CallersRun := by
  intro d hd
  rw [h] at hd
  rw [frame, h]
  exact hs d hd

/-- A list that has called a common event is being run. -/
theorem HasCalled.isRunning (h : s.HasCalled d t) : (t.frame d).isRunning = true := by
  obtain ⟨c, hc, -, hcalled⟩ := h.command
  have hruns : (s.frame d).isRunning = true := Frame.isRunning_of_current? hc
  rw [hcalled]
  exact hruns

theorem Restacks.callersRun (h : Restacks k s t) (hs : s.CallersRun) : t.CallersRun := by
  cases h with
  | same hlists => exact hs.of_lists hlists
  | command d hactive hdepth =>
      obtain ⟨hbelow, hnone | hcalled⟩ := Play.step_hasCalled hactive hdepth
      · intro e he
        rw [hbelow e (by omega)]
        exact hs e (by omega)
      · intro e he
        rw [hcalled.depth] at he
        rcases Nat.lt_succ_iff_lt_or_eq.1 he with hlt | rfl
        · rw [hbelow e hlt]
          exact hs e (by omega)
        · exact hcalled.isRunning
  | wait d hdepth =>
      obtain ⟨hlength, hothers, -⟩ := Play.waits_stands d s
      intro e he
      rw [hothers e (by omega)]
      exact hs e (by omega)
  | drop d _ =>
      have hlength := length_nested_dropCallee s d
      intro e he
      rw [frame_dropCallee (by omega)]
      exact hs e (by omega)
  | begin _ hnested => exact callersRun_of_nested hnested

theorem Does.callersRun (h : Does k s t) (hs : s.CallersRun) : t.CallersRun := by
  by_cases hk : k = .arrived
  · subst hk
    cases h with
    | arrive hact =>
        refine Play.preserves_of_arrives (fun hs hlists _ => hs.of_lists hlists) ?_ ?_ hact s hs
        · refine Play.preserves_setupMap (fun _ _ hs => hs) fun _ hcleared => ?_
          exact callersRun_of_nested (congrArg Interpreter.nested hcleared)
        · exact fun list event t _ => callersRun_of_nested (Play.nested_setupInterpreter list event t)
  · exact (h.restacks hk).callersRun hs

/-- **Whatever happens, no list below another one ends.** -/
theorem Course.callersRun (h : s.Course l t) (hs : s.CallersRun) : t.CallersRun := by
  induction h with
  | nil => exact hs
  | snoc _ hdoes ih => exact hdoes.callersRun ih

/-! ### Single turns -/

/-- **While a common event is run**, the list that called it is suspended, or else the common event has
ended and is dropped. -/
theorem Suspends.restacks (h : Restacks k u v) (ht : t.Suspends d u) (hu : u.CallersRun) :
    t.Suspends d v ∨ Turn.EndsCallee ⟨u, k, v⟩ d ∧ t.Resumes d v := by
  have hdepth := ht.depth
  cases h with
  | same hlists =>
      refine Or.inl ⟨hlists ▸ hdepth, fun e he => ?_⟩
      rw [frame, hlists]
      exact ht.upTo e he
  | command c hactive hinner =>
      obtain ⟨hbelow, hcalls⟩ := Play.step_hasCalled hactive hinner
      refine Or.inl ⟨?_, fun e he => (hbelow e (by omega)).trans (ht.upTo e he)⟩
      rcases hcalls with hnone | hcalled
      · omega
      · have := hcalled.depth
        omega
  | wait c hinner =>
      obtain ⟨hlength, hothers, -⟩ := Play.waits_stands c u
      refine Or.inl ⟨by omega, fun e he => (hothers e (by omega)).trans (ht.upTo e he)⟩
  | drop c hended =>
      -- no list below another one has ended
      have hleast : u.interpreter.nested.length ≤ c + 1 := by
        refine Nat.le_of_not_lt fun hlt => ?_
        rw [hu (c + 1) hlt] at hended
        cases hended
      have hkept : ∀ e ≤ d, (u.dropCallee c).frame e = t.frame e :=
        fun e he => (frame_dropCallee (by omega) u).trans (ht.upTo e he)
      have hlength := length_nested_dropCallee u c
      by_cases hcd : c = d
      · subst hcd
        have hinner : u.interpreter.nested.length = c + 1 := by omega
        refine Or.inr ⟨⟨hinner, hended, rfl⟩, by omega, fun e he => hkept e (Nat.le_of_lt he), ?_⟩
        exact congrArg Frame.standing (hkept c (Nat.le_refl c))
      · exact Or.inl ⟨by omega, hkept⟩
  | begin hended _ =>
      have hroot := hu 0 (by omega)
      rw [show (u.frame 0).isRunning = false from hended] at hroot
      cases hroot

/-- **When the common event has been dropped**, the list that called it goes on, and no other one does. -/
theorem Resumes.restacks (h : Restacks k u v) (ht : t.Resumes d u) (hu : u.CallersRun)
    (hrunning : (t.frame d).isRunning = true) : t.Resumes d v ∨ k = .command d := by
  have hdepth := ht.depth
  have hruns : ∀ e ≤ d, (u.frame e).isRunning = true := by
    intro e he
    rcases Nat.lt_or_eq_of_le he with hlt | rfl
    · exact hu e (by omega)
    · exact (Frame.isRunning_of_standing ht.standing).trans hrunning
  cases h with
  | same hlists =>
      refine Or.inl ⟨hlists ▸ hdepth, fun e he => ?_, ?_⟩
      · rw [frame, hlists]
        exact ht.below e he
      · rw [frame, hlists]
        exact ht.standing
  | command c _ hinner =>
      obtain rfl : c = d := by omega
      exact Or.inr rfl
  | wait c hinner =>
      obtain rfl : c = d := by omega
      obtain ⟨hlength, hothers, hstands⟩ := Play.waits_stands c u
      refine Or.inl ⟨by omega, fun e he => ?_, hstands.trans ht.standing⟩
      exact (hothers e (by omega)).trans (ht.below e he)
  | drop c hended =>
      have habove : d ≤ c := by
        refine Nat.le_of_not_lt fun hlt => ?_
        rw [hruns (c + 1) hlt] at hended
        cases hended
      have hkept : ∀ e ≤ d, (u.dropCallee c).frame e = u.frame e :=
        fun e he => frame_dropCallee (by omega) u
      have hlength := length_nested_dropCallee u c
      refine Or.inl ⟨by omega, fun e he => ?_, ?_⟩
      · exact (hkept e (Nat.le_of_lt he)).trans (ht.below e he)
      · exact (congrArg Frame.standing (hkept d (Nat.le_refl d))).trans ht.standing
  | begin hended _ =>
      have hroot := hruns 0 (Nat.zero_le d)
      rw [show (u.frame 0).isRunning = false from hended] at hroot
      cases hroot

/-! ### All turns -/

/-- What was done in a course up to one of its turns is a course. -/
theorem Course.split {l₁ l₂ : List Turn} {turn : Turn} (h : s.Course (l₁ ++ turn :: l₂) t) :
    s.Course l₁ turn.before ∧ Does turn.doing turn.before turn.after := by
  generalize hl : l₁ ++ turn :: l₂ = l at h
  induction h generalizing l₂ with
  | nil => simp at hl
  | snoc hcourse hdoes ih =>
      rcases List.eq_nil_or_concat l₂ with rfl | ⟨l₃, last, rfl⟩
      · obtain ⟨rfl, hlast⟩ := List.append_inj' hl rfl
        cases hlast
        exact ⟨hcourse, hdoes⟩
      · have hl' : (l₁ ++ turn :: l₃) ++ [last] = _ := (by simpa using hl)
        exact ih (List.append_inj' hl' rfl).1

/-- A course after the call of a common event, up to the first command of a list that is not above the one
that called it. -/
theorem Course.suspends_or_resumes (h : t.Course l u) (hstays : ∀ turn ∈ l, turn.doing ≠ .arrived)
    (hfree : ∀ turn ∈ l, ¬turn.IsCommandUpTo d) (ht : t.CallersRun) (hcalled : s.HasCalled d t) :
    t.Suspends d u ∨ t.Resumes d u ∧ ∃ turn ∈ l, turn.EndsCallee d := by
  induction h with
  | nil => exact Or.inl ⟨by rw [hcalled.depth]; exact Nat.lt_succ_self d, fun _ _ => rfl⟩
  | @snoc u v l k hcourse hdoes ih =>
      simp only [List.forall_mem_append, List.forall_mem_singleton] at hstays hfree
      have hrestacks := hdoes.restacks hstays.2
      have hu := hcourse.callersRun ht
      rcases ih hstays.1 hfree.1 with hsuspends | ⟨hresumes, turn, hturn, hends⟩
      · refine (hsuspends.restacks hrestacks hu).imp_right fun ⟨hends, hresumes⟩ => ⟨hresumes, _, ?_, hends⟩
        exact List.mem_append_right l (List.mem_singleton_self _)
      · rcases hresumes.restacks hrestacks hu hcalled.isRunning with hresumes | hcommand
        · exact Or.inr ⟨hresumes, turn, List.mem_append_left _ hturn, hends⟩
        · exact absurd ⟨d, Nat.le_refl d, hcommand⟩ hfree.2

/-- How a course treats the list at a depth, where a common event that the list has called stands above it
at the beginning. -/
structure Isolates (t : Session) (d : Nat) (l : List Turn) (u : Session) : Prop where
  /-- Until one of the lists up to it carries out a command, it is suspended, or else the common event has
  ended, and nothing has happened to these lists but that it may have waited. -/
  keeps : (∀ turn ∈ l, ¬turn.IsCommandUpTo d) →
    t.Suspends d u ∨ t.Resumes d u ∧ ∃ turn ∈ l, turn.EndsCallee d
  /-- The first command of such a list is its own, behind the call, after the common event has ended. -/
  resumes : ∀ {l₁ l₂ : List Turn} {turn : Turn}, l = l₁ ++ turn :: l₂ →
    (∀ turn ∈ l₁, ¬turn.IsCommandUpTo d) → turn.IsCommandUpTo d →
      turn.doing = .command d ∧ t.Resumes d turn.before ∧ ∃ turn ∈ l₁, turn.EndsCallee d
  /-- If the common event has just ended in a run of the lists, that command comes next. -/
  goesOn : ∀ {callee : Play Unit} {v : Session} (budget : Nat), callee v = .ok () u → t.Suspends d v →
    t.Suspends d u → (u.frame (d + 1)).isRunning = false → ¬0 < (t.frame d).waitCount →
      Play.runCommands callee d (budget + 1) v =
        (do Play.step d; Play.runCommands callee d budget) (u.dropCallee d)

/-- A list that waits for nothing goes on when the common event that it has called ends. -/
theorem Suspends.goesOn {callee : Play Unit} (hv : t.Suspends d v) (hu : t.Suspends d u)
    (hrunning : (t.frame d).isRunning = true) (hcount : ¬0 < (t.frame d).waitCount)
    (hfree : (t.frame d).awaited = none) (hran : callee v = .ok () u)
    (hended : (u.frame (d + 1)).isRunning = false) (budget : Nat) :
    Play.runCommands callee d (budget + 1) v =
      (do Play.step d; Play.runCommands callee d budget) (u.dropCallee d) := by
  have hruns : (v.frame d).isRunning = true := by
    rw [hv.upTo d (Nat.le_refl d)]
    exact hrunning
  have hframe : (u.dropCallee d).frame d = t.frame d :=
    (frame_dropCallee (Nat.le_refl d) u).trans (hu.upTo d (Nat.le_refl d))
  have hwaits : Play.waits d (u.dropCallee d) = .ok false (u.dropCallee d) := by
    refine Play.waits_of_nobody ?_ ?_
    · rw [hframe]
      exact hcount
    · rw [hframe]
      exact hfree
  rw [Play.runCommands, Play.get_bind_apply, hruns]
  refine (Play.bind_of_ok (Play.runCallee_of_stopped hv.depth hran hended)).trans ?_
  exact Play.bind_of_ok hwaits

/-- **Common events are isolated from their callers.**  A list that has called a common event goes on at
the next command, with all else as the command has begun it; and so it stays until the common event has
ended, whatever happens in however many frames, unless the player arrives on a map. -/
theorem Course.isolates_of_called {g : Game} {draws : Draws} {before : List Turn}
    (hbefore : (Session.begin g draws).Course before s) (hcall : Does (.command d) s t)
    (hcalled : d < t.interpreter.nested.length) :
    s.HasCalled d t ∧
      (∀ {l u}, t.Course l u → (∀ turn ∈ l, turn.doing ≠ .arrived) → t.Isolates d l u) ∧
        ∀ frames, ∃ l, t.Course l ((Play.advanceBy frames).after t) ∧ ∀ turn ∈ l, turn.doing ≠ .arrived := by
  have hs : s.CallersRun := hbefore.callersRun (callersRun_of_nested rfl)
  have ht : t.CallersRun := hcall.callersRun hs
  obtain ⟨hactive, hdepth, hawaited, rfl⟩ := Does.command_iff.1 hcall
  have hcalls := (Play.step_hasCalled hactive hdepth).2.resolve_left (Nat.ne_of_gt hcalled)
  refine ⟨hcalls, fun {l u} h hstays => ?_, fun frames => ?_⟩
  · constructor
    · exact fun hfree => h.suspends_or_resumes hstays hfree ht hcalls
    · rintro l₁ l₂ turn rfl hfree ⟨e, he, hdoing⟩
      obtain ⟨hbefore, hdoes⟩ := h.split
      obtain ⟨-, hinner, -⟩ := Does.command_iff.1 (hdoing ▸ hdoes)
      have hstays₁ : ∀ turn ∈ l₁, turn.doing ≠ .arrived := fun x hx => hstays x (List.mem_append_left _ hx)
      rcases hbefore.suspends_or_resumes hstays₁ hfree ht hcalls with hsuspends | ⟨hresumes, hends⟩
      · have := hsuspends.depth
        omega
      · obtain rfl : e = d := hinner.symm.trans hresumes.depth
        exact ⟨hdoing, hresumes, hends⟩
    · intro callee v budget hran hv hu hended hcount
      refine hv.goesOn hu hcalls.isRunning hcount ?_ hran hended budget
      obtain ⟨c, -, -, hself⟩ := hcalls.command
      rw [hself]
      exact hawaited
  · obtain ⟨l, hl, hturns⟩ := Play.ledTo_advanceBy _ frames _ (.refl _ true)
    refine ⟨l, hl, fun turn hturn harrived => ?_⟩
    have hframe := hturns turn hturn
    rw [harrived] at hframe
    cases hframe

/-! ### An errand -/

/-- A game with a common event that waits for a frame. -/
def errandGame : Game where
  database := { commonEvents := .arr [.null, .obj [("id", 1), ("list", .arr [.obj [("code", 230),
    ("parameters", .arr [1])]])]] }

/-- A list that calls the common event, and then turns a switch on. -/
def errandList : Json :=
  .arr [.obj [("code", 117), ("parameters", .arr [1])],
    .obj [("code", 121), ("parameters", .arr [1, 1, 0])]]

/-- The game where the list has begun, and is about to call the common event. -/
def atErrand : Session :=
  { (Play.setupInterpreter errandList 0).after (Session.begin errandGame {}) with active := some 0 }

/-- The common event has been called, and is about to be run. -/
def onErrand : Session := { (Play.step 0).after atErrand with active := some 1 }

/-- The common event has waited and come to its end. -/
def afterErrand : Session :=
  (Play.step 1).after ((Play.waits 1).after ((Play.step 1).after onErrand))

/-- A list that calls a common event goes on behind the call when this has waited and ended. -/
theorem isolates_atErrand : ∃ l u, atErrand.HasCalled 0 ((Play.step 0).after atErrand) ∧
    ((Play.step 0).after atErrand).Course l u ∧ ((Play.step 0).after atErrand).Isolates 0 l u ∧
      ∃ turn ∈ l, turn.doing = .command 0 := by
  have hbegun : (Session.begin errandGame {}).Course _ atErrand :=
    .snoc (.snoc (.nil _) (.arrive (.setupInterpreter errandList 0))) (.aside rfl rfl rfl rfl)
  have hcall : Does (.command 0) atErrand ((Play.step 0).after atErrand) :=
    .command 0 rfl (by decide +kernel) (by decide +kernel)
  have hruns : ((Play.step 0).after atErrand).Course _ afterErrand :=
    .snoc (.snoc (.snoc (.snoc (.nil _) (.aside (t := onErrand) rfl rfl rfl rfl))
      (.command 1 rfl (by decide +kernel) (by decide +kernel))) (.wait 1 (by decide +kernel)))
      (.command 1 (by decide +kernel) (by decide +kernel) (by decide +kernel))
  have hback : afterErrand.Course _
      ((Play.step 0).after { afterErrand.dropCallee 0 with active := some 0 }) :=
    .snoc (.snoc (.snoc (.nil _) (.drop 0 (by decide +kernel)))
      (.aside (t := { afterErrand.dropCallee 0 with active := some 0 }) rfl rfl rfl rfl))
      (.command 0 rfl (by decide +kernel) (by decide +kernel))
  have hcourse := hruns.append hback
  obtain ⟨hcalls, hisolates, -⟩ := Course.isolates_of_called hbegun hcall (by decide +kernel)
  refine ⟨_, _, hcalls, hcourse, hisolates hcourse ?_, ?_⟩
  · simp
  · simp

end Session

end EventLayer
