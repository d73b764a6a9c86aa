/-
**Every run of command lists ends.**

A list of commands without negative indentation goes forward with every command, so that it carries out
none of them twice.  Where no common event reaches itself, no more lists stand above each other than the
database has common events.  Both bounds are below those at which a run is given up, so that no run is:
every run ends by itself.  The induction is on the lists that can still be called, and within a list on the
commands that are left.

Main definitions:

* `Interpreter.HasRoom` — levels that are enough for the lists from a depth on;
* `Frame.left` — a bound on the commands that a list has left;
* `Session.Leaves` — what a run that has ended leaves.

Main results:

* `Game.Acyclic.hasRoom` — where no common event reaches itself, there is room for all lists;
* `Play.runFrame_ends` — **a run of orderly lists for which there is room ends**;
* `Play.runInterpreter_ends` — **every run of the command lists ends**.
-/
import EventLayer.Proofs.Ending.Ends
import EventLayer.Proofs.Ending.Progress
import EventLayer.Proofs.Ending.Supply
import EventLayer.Proofs.Lockstep.Alike

set_option autoImplicit false
set_option relaxedAutoImplicit false

namespace EventLayer

/-! ### Room -/

/-- Levels that are enough for the lists from a depth on, and those that they can call. -/
def Interpreter.HasRoom (g : Game) (i : Interpreter) : Nat → Nat → Prop
  | 0, _ => False
  | n + 1, d => g.Shallow n (i.frame d).list ∧ (d < i.nested.length → i.HasRoom g n (d + 1))

/-- A bound on the turns that a list takes: one for each command that is left, one to come to the end, and
one to find that it has. -/
def Frame.left (f : Frame) : Nat :=
  if f.isRunning then ((f.list.length : Int) - f.index).toNat + 2 else 1

theorem Frame.left_of_course {f f' : Frame} (h : f'.course = f.course) : f'.left = f.left := by
  obtain ⟨hcommands, hindex, -⟩ := Frame.eq_of_course h
  unfold left isRunning list
  rw [hcommands, hindex]

theorem Frame.isRunning_of_course {f f' : Frame} (h : f'.course = f.course) :
    f'.isRunning = f.isRunning :=
  congrArg Option.isSome (Frame.eq_of_course h).1

/-- A list that has just begun, or stands one position before, has less left than is allowed to it. -/
theorem Frame.left_le_patience {f : Frame} (h : -1 ≤ f.index) :
    f.left ≤ Play.patience f.list.length := by
  unfold left Play.patience
  split
  · omega
  · omega

variable {g : Game}

/-- **Where no common event reaches itself, there is room for all lists.** -/
theorem Game.Acyclic.hasRoom (h : g.Acyclic) (i : Interpreter) {n d : Nat}
    (hn : i.nested.length - d + g.database.commonEntries.length < n) : i.HasRoom g n d := by
  induction n generalizing d with
  | zero => omega
  | succ n ih =>
      refine ⟨(h.shallow _).mono (by omega), ?_⟩
      intro hd
      exact ih (by omega)

namespace Session

/-- A session of orderly lists in which the one at a depth carries out commands. -/
structure AtDepth (g : Game) (d : Nat) (s : Session) : Prop where
  ordered : s.Ordered g Indented
  active : s.active = some d
  depth : d ≤ s.interpreter.nested.length

/-- What the run of the list at a depth leaves when it has ended in some way; the lists below stand where
they stood. -/
structure Leaves (g : Game) (d : Nat) (s t : Session) (how : Ending) : Prop extends AtDepth g d t where
  below : ∀ e < d, (t.frame e).course = (s.frame e).course
  ended : t.HasEnded d how

variable {s s' t : Session} {n d : Nat} {how : Ending}

/-- What a run leaves, seen from where the lists below stood as they stand at its beginning. -/
theorem Leaves.of_below (h : Leaves g d s' t how)
    (hbelow : ∀ e < d, (s'.frame e).course = (s.frame e).course) : Leaves g d s t how :=
  { h with below := fun e he => (h.below e he).trans (hbelow e he) }

/-- A list that goes on finds the room that it had. -/
theorem Proceeds.hasRoom (h : Proceeds g d s t) (hroom : s.interpreter.HasRoom g (n + 1) d) :
    t.interpreter.HasRoom g (n + 1) d := by
  have hshallow : g.Shallow n (s.frame d).list := hroom.1
  rcases h.course with ⟨hended, hnested⟩ | ⟨c, hc, next, -, -, hcourse, hcalls⟩
  · refine ⟨?_, ?_⟩
    · have hnone : (t.frame d).commands = none := by simpa [Frame.isRunning] using hended
      have hlist : (t.interpreter.frame d).list = [] := congrArg (fun c => c.getD []) hnone
      rw [hlist]
      exact Game.shallow_nil n
    · intro hd
      omega
  · have hmoved : (t.frame d).list = { s.frame d with index := next }.list :=
      Frame.list_of_course hcourse
    have hlist : (t.interpreter.frame d).list = (s.frame d).list := hmoved
    refine ⟨hlist ▸ hshallow, ?_⟩
    intro hd
    rcases hcalls with hnested | ⟨hnested, e, he, l, hreads, hl⟩
    · omega
    · have hcallee : e ∈ g.calleesOf (s.frame d).list := List.mem_flatMap.2 ⟨c, hc, he⟩
      cases n with
      | zero =>
          rw [show g.calleesOf (s.frame d).list = [] from hshallow] at hcallee
          cases hcallee
      | succ n =>
          refine ⟨?_, ?_⟩
          · have hcalled : (t.interpreter.frame (d + 1)).list = l := congrArg (fun c => c.getD []) hl
            rw [hcalled]
            exact hshallow e hcallee l hreads
          · intro hd'
            omega

/-- A list that goes on has less left. -/
theorem Proceeds.left_lt (h : Proceeds g d s t) (hrunning : (s.frame d).isRunning = true) :
    (t.frame d).left < (s.frame d).left := by
  rcases h.course with ⟨hended, -⟩ | ⟨c, -, next, hwithin, hbehind, hcourse, -⟩
  · unfold Frame.left
    rw [hended, hrunning]
    simp
  · have hmoved : (t.frame d).left = { s.frame d with index := next }.left :=
      Frame.left_of_course hcourse
    have hlist : ({ s.frame d with index := next } : Frame).list = (s.frame d).list := rfl
    have hruns : ({ s.frame d with index := next } : Frame).isRunning = true := hrunning
    rw [hmoved]
    unfold Frame.left
    rw [hruns, hrunning, hlist]
    simp only [if_true]
    omega

end Session

namespace Play

open Session

variable {s t : Session} {n d budget : Nat}

/-- The run of the list at a depth ends in some way, and comes to a given outcome. -/
def EndsAs (g : Game) (d : Nat) (s : Session) (r : EStateM.Result Fault Session Unit) : Prop :=
  ∃ t how, Ends d s t how ∧ r = how.outcome t ∧ ((∀ e, how ≠ .fails e) → Leaves g d s t how)

/-- What a list does that has called no common event, or whose common event has stopped. -/
def goOnAlone (runNested : Play Unit) (d budget : Nat) : Play Unit := do
  if ← waits d then return
  step d
  runCommands runNested d budget

theorem runCommands_of_called {runNested : Play Unit} (hrunning : (s.frame d).isRunning = true)
    (h : runCallee runNested d s = .ok false t) :
    runCommands runNested d (budget + 1) s = goOnAlone runNested d budget t := by
  rw [runCommands, get_bind_apply, hrunning]
  exact bind_of_ok h

theorem runCommands_of_waiting_callee {runNested : Play Unit}
    (hrunning : (s.frame d).isRunning = true) (h : runCallee runNested d s = .ok true t) :
    runCommands runNested d (budget + 1) s = .ok () t := by
  rw [runCommands, get_bind_apply, hrunning]
  exact bind_of_ok h

theorem runCommands_of_failing_callee {runNested : Play Unit} {e : Fault}
    (hrunning : (s.frame d).isRunning = true) (h : runCallee runNested d s = .error e t) :
    runCommands runNested d (budget + 1) s = .error e t := by
  rw [runCommands, get_bind_apply, hrunning]
  exact bind_of_error h

/-! ### One list -/

/-- Waiting leaves the lists where they stand. -/
theorem waits_of_free_stays (hs : AtDepth g d s) (hcount : ¬0 < (s.frame d).waitCount)
    (hfree : ∀ who, (s.frame d).awaited = some who → (s.character who).forcing = false) :
    ∃ t, waits d s = .ok false t ∧ AtDepth g d t ∧
      t.interpreter.nested.length = s.interpreter.nested.length ∧
      ∀ e, (t.frame e).course = (s.frame e).course := by
  rcases waits_of_free hcount hfree with h | h
  · exact ⟨s, h, hs, rfl, fun _ => rfl⟩
  · have hordered := (sustained_ordered.waits d).of_ok hs.ordered h
    have hlength := Interpreter.length_nested_modify s.interpreter
      (fun f => { f with awaited := none }) d
    have hkeeps : ∀ f : Frame, { f with awaited := none }.course = f.course := fun _ => rfl
    refine ⟨_, h, ⟨hordered, hs.active, Nat.le_trans hs.depth (Nat.le_of_eq hlength.symm)⟩, hlength, ?_⟩
    intro e
    exact frame_updateFrame_of_keeps hkeeps s d e

/-- A list that waits for frames has come to an end for this one. -/
theorem leaves_frames (hs : AtDepth g d s) (hrunning : (s.frame d).isRunning = true)
    (hcount : 0 < (s.frame d).waitCount) :
    Leaves g d s (s.updateFrame d fun f => { f with waitCount := f.waitCount - 1 })
      (.waits .frames) := by
  have hkeeps : ∀ f : Frame, { f with waitCount := f.waitCount - 1 }.course = f.course := fun _ => rfl
  have hself := Interpreter.frame_modify_self hs.depth fun f => { f with waitCount := f.waitCount - 1 }
  have hadjusts : Frame.Adjusts fun f => { f with waitCount := f.waitCount - 1 } :=
    ⟨hkeeps, fun _ => Or.inl rfl⟩
  refine ⟨⟨sustained_ordered.onFrame trivial hadjusts (fun _ => rfl) hs.ordered, hs.active, ?_⟩, ?_, ?_, ?_⟩
  · exact Nat.le_trans hs.depth (Nat.le_of_eq (Interpreter.length_nested_modify ..).symm)
  · intro e _
    exact frame_updateFrame_of_keeps hkeeps s d e
  · exact (congrArg Frame.isRunning hself).trans hrunning
  · have hwaits : (s.frame d).waitCount - 1 =
        ((s.updateFrame d fun f => { f with waitCount := f.waitCount - 1 }).frame d).waitCount :=
      (congrArg Frame.waitCount hself).symm
    omega

/-- A command of a list that has called no common event leaves it with room, and with less left. -/
theorem proceeds_of_step (hs : AtDepth g d s) (hrunning : (s.frame d).isRunning = true)
    (hnested : s.interpreter.nested.length = d) (h : step d s = .ok () t) :
    Proceeds g d s t ∧ AtDepth g d t := by
  have hgoes := step_proceeds hs.ordered.game hs.active hnested hs.ordered.orderly hrunning h
  refine ⟨hgoes, (sustained_ordered.step d).of_ok hs.ordered h, hgoes.active, ?_⟩
  rcases hgoes.course with ⟨-, hended⟩ | ⟨c, -, next, -, -, -, hcalls⟩
  · omega
  · rcases hcalls with hnone | ⟨hcalled, -⟩
    · omega
    · omega

/-- A list that has called no common event ends, if it ends after its next command. -/
theorem goOnAlone_ends {runNested : Play Unit} (hs : AtDepth g d s)
    (hshallow : g.Shallow n (s.frame d).list) (hrunning : (s.frame d).isRunning = true)
    (hnested : s.interpreter.nested.length = d)
    (hrest : ∀ t, AtDepth g d t → t.interpreter.HasRoom g (n + 1) d →
      (t.frame d).left < (s.frame d).left → EndsAs g d t (runCommands runNested d budget t)) :
    EndsAs g d s (goOnAlone runNested d budget s) := by
  have halone : s.interpreter.nested.length ≤ d := Nat.le_of_eq hnested
  by_cases hcount : 0 < (s.frame d).waitCount
  · refine ⟨_, .waits .frames, .frames hrunning halone hcount, ?_, ?_⟩
    · exact bind_of_ok (waits_of_frames hcount)
    · intro _
      exact leaves_frames hs hrunning hcount
  · by_cases hroute : ∃ who, (s.frame d).awaited = some who ∧ (s.character who).forcing = true
    · obtain ⟨who, hwho, hforcing⟩ := hroute
      refine ⟨s, .waits (.route who), .route hrunning halone hcount hwho hforcing, ?_, ?_⟩
      · exact bind_of_ok (waits_of_route hcount hwho hforcing)
      · intro _
        exact { hs with below := fun _ _ => rfl, ended := ⟨hrunning, hwho, hforcing⟩ }
    · have hfree : ∀ who, (s.frame d).awaited = some who → (s.character who).forcing = false := by
        intro who hwho
        exact Bool.eq_false_iff.2 fun hforcing => hroute ⟨who, hwho, hforcing⟩
      obtain ⟨t, hwaits, ht, hlength, hcourse⟩ := waits_of_free_stays hs hcount hfree
      have hgoes : goOnAlone runNested d budget s =
          (do step d; runCommands runNested d budget : Play Unit) t := bind_of_ok hwaits
      rw [hgoes]
      cases hstep : step d t with
      | error e u =>
          refine ⟨u, .fails e, .fails hrunning halone hwaits hstep, bind_of_error hstep, ?_⟩
          intro hnot
          exact absurd rfl (hnot e)
      | ok a u =>
          have hrunning' : (t.frame d).isRunning = true :=
            (Frame.isRunning_of_course (hcourse d)).trans hrunning
          have hroom : t.interpreter.HasRoom g (n + 1) d := by
            refine ⟨?_, ?_⟩
            · rw [show (t.interpreter.frame d).list = _ from Frame.list_of_course (hcourse d)]
              exact hshallow
            · intro hd
              omega
          obtain ⟨hproceeds, hu⟩ := proceeds_of_step ht hrunning' (hlength.trans hnested) hstep
          have hleft := hproceeds.left_lt hrunning'
          rw [Frame.left_of_course (hcourse d)] at hleft
          obtain ⟨v, how, hends, hcomes, hleaves⟩ := hrest u hu (hproceeds.hasRoom hroom) hleft
          refine ⟨v, how, .goesOn hrunning halone hwaits hstep hends, ?_, ?_⟩
          · exact (bind_of_ok hstep).trans hcomes
          · intro hnot
            exact (hleaves hnot).of_below fun e he => (hproceeds.below e he).trans (hcourse e)

/-! ### Lists above each other -/

/-- What is known of the run of a list that was called. -/
def CalleeEnds (g : Game) (n d : Nat) : Prop :=
  ∀ s : Session, s.Ordered g Indented → d ≤ s.interpreter.nested.length →
    s.interpreter.HasRoom g n d → ∃ t how, Ends d (s.acting d) t how ∧
      runFrame n d s = how.outcome (s.backTo t) ∧ ((∀ e, how ≠ .fails e) → Leaves g d s t how)

/-- A list whose common event has stopped stands where it stood, with nothing above it. -/
theorem atDepth_dropCallee (hs : AtDepth g d s) (ht : Leaves g (d + 1) s t .stopped) :
    AtDepth g d ((s.backTo t).dropCallee d) ∧
      ((s.backTo t).dropCallee d).interpreter.nested.length = d ∧
      ∀ e ≤ d, (((s.backTo t).dropCallee d).frame e).course = (s.frame e).course := by
  have hlength : ((s.backTo t).dropCallee d).interpreter.nested.length = d :=
    Interpreter.length_nested_cut (Nat.le_of_succ_le ht.depth)
  have hordered := sustained_ordered.cut d (sustained_ordered.activate s.active ht.ordered)
  refine ⟨⟨hordered, hs.active, Nat.le_of_eq hlength.symm⟩, hlength, ?_⟩
  intro e he
  have hcut := Interpreter.frame_cut he t.interpreter
  exact (congrArg Frame.course hcut).trans (ht.below e (Nat.lt_succ_of_le he))

/-- A list whose common event waits does so, too. -/
theorem leaves_calleeWaits {why : Waiting} (hs : AtDepth g d s)
    (hrunning : (s.frame d).isRunning = true) (ht : Leaves g (d + 1) s t (.waits why)) :
    Leaves g d s (s.backTo t) (.waits (.callee why)) := by
  have hrests : t.Rests (d + 1) why := ht.ended
  have hcourse := ht.below d (Nat.lt_succ_self d)
  refine ⟨⟨sustained_ordered.activate s.active ht.ordered, hs.active, ?_⟩, ?_, ?_, hrests.backTo⟩
  · exact Nat.le_of_succ_le ht.depth
  · intro e he
    exact ht.below e (Nat.lt_succ_of_lt he)
  · exact (Frame.isRunning_of_course hcourse).trans hrunning

/-- A list above which a common event stands ends if the common event does, and if it goes on to its end
alone once the common event has stopped. -/
theorem runCommands_ends_of_callee (hcallee : CalleeEnds g n (d + 1)) (hs : AtDepth g d s)
    (hroom : s.interpreter.HasRoom g (n + 1) d) (hrunning : (s.frame d).isRunning = true)
    (hd : d < s.interpreter.nested.length)
    (halone : ∀ u, AtDepth g d u → u.interpreter.nested.length = d →
      (u.frame d).course = (s.frame d).course →
      EndsAs g d u (goOnAlone (runFrame n (d + 1)) d budget u)) :
    EndsAs g d s (runCommands (runFrame n (d + 1)) d (budget + 1) s) := by
  obtain ⟨t, how, hends, hcomes, hleaves⟩ := hcallee s hs.ordered hd (hroom.2 hd)
  cases how with
  | fails e =>
      refine ⟨_, .fails e, .calleeFails hrunning hd hends, ?_, ?_⟩
      · exact runCommands_of_failing_callee hrunning (runCallee_of_error hd hcomes)
      · intro hnot
        exact absurd rfl (hnot e)
  | waits why =>
      have hrests : t.Rests (d + 1) why := (hleaves nofun).ended
      refine ⟨_, .waits (.callee why), .calleeWaits hrunning hd hends, ?_, ?_⟩
      · have hcalled := runCallee_of_running hd hcomes hrests.isRunning
        exact runCommands_of_waiting_callee hrunning hcalled
      · intro _
        exact leaves_calleeWaits hs hrunning (hleaves nofun)
  | stopped =>
      have hended : (t.frame (d + 1)).isRunning = false := (hleaves nofun).ended
      obtain ⟨hs', hnested, hcourse⟩ := atDepth_dropCallee hs (hleaves nofun)
      obtain ⟨u, how, hends', hcomes', hleaves'⟩ :=
        halone _ hs' hnested (hcourse d (Nat.le_refl d))
      refine ⟨u, how, .calleeStops hrunning hd hends hends', ?_, ?_⟩
      · have hcalled := runCallee_of_stopped hd hcomes hended
        exact (runCommands_of_called hrunning hcalled).trans hcomes'
      · intro hnot
        exact (hleaves' hnot).of_below fun e he => hcourse e (Nat.le_of_lt he)

/-- A list ends if those that it calls do, by induction on what it has left. -/
theorem runCommands_ends (hcallee : CalleeEnds g n (d + 1)) (hs : AtDepth g d s)
    (hroom : s.interpreter.HasRoom g (n + 1) d) (hleft : (s.frame d).left ≤ budget) :
    EndsAs g d s (runCommands (runFrame n (d + 1)) d budget s) := by
  induction budget generalizing s with
  | zero =>
      unfold Frame.left at hleft
      split at hleft
      · omega
      · omega
  | succ budget ih =>
      cases hrunning : (s.frame d).isRunning with
      | false =>
          refine ⟨s, .stopped, .stopped hrunning, ?_, ?_⟩
          · exact runCommands_of_not_running hrunning (Nat.succ_pos _)
          · intro _
            exact { hs with below := fun _ _ => rfl, ended := hrunning }
      | true =>
          have halone : ∀ u, AtDepth g d u → u.interpreter.nested.length = d →
              (u.frame d).course = (s.frame d).course →
              EndsAs g d u (goOnAlone (runFrame n (d + 1)) d budget u) := by
            intro u hu hnested hsame
            have hshallow : g.Shallow n (u.frame d).list := by
              rw [Frame.list_of_course hsame]
              exact hroom.1
            have hrunning' := (Frame.isRunning_of_course hsame).trans hrunning
            refine goOnAlone_ends hu hshallow hrunning' hnested ?_
            intro v hv hroom' hlt
            rw [Frame.left_of_course hsame] at hlt
            exact ih hv hroom' (by omega)
          by_cases hd : d < s.interpreter.nested.length
          · -- the common event that was called goes first
            exact runCommands_ends_of_callee hcallee hs hroom hrunning hd halone
          · have hnested : s.interpreter.nested.length = d := by
              have := hs.depth
              omega
            rw [runCommands_of_called hrunning (runCallee_of_none (Nat.le_of_eq hnested))]
            exact halone s hs hnested rfl

/-- **A run of orderly lists for which there is room ends**, by induction on the room. -/
theorem runFrame_ends (g : Game) (n d : Nat) : CalleeEnds g n d := by
  induction n generalizing d with
  | zero =>
      intro s _ _ hroom
      exact absurd hroom id
  | succ n ih =>
      intro s hordered hdepth hroom
      have hs : AtDepth g d (s.acting d) := ⟨sustained_ordered.activate _ hordered, rfl, hdepth⟩
      have hleft : ((s.acting d).frame d).left ≤ patience ((s.acting d).frame d).list.length :=
        Frame.left_le_patience (hordered.orderly.frame d).index
      obtain ⟨t, how, hends, hcomes, hleaves⟩ := runCommands_ends (ih (d + 1)) hs hroom hleft
      refine ⟨t, how, hends, ?_, ?_⟩
      · rw [runFrame, asActive]
        refine Ending.between_outcome ?_
        rw [get_bind_apply]
        exact hcomes
      intro hnot
      have ht := hleaves hnot
      exact { ht with below := ht.below }

/-- **Every run of the command lists ends.** -/
theorem runInterpreter_ends (h : g.Acyclic) (hs : s.Ordered g Indented) :
    ∃ t how, Ends 0 (s.acting 0) t how ∧ runInterpreter s = how.outcome (s.backTo t) ∧
      ((∀ e, how ≠ .fails e) → Leaves g 0 s t how) := by
  have hroom : s.interpreter.HasRoom g (nestingLimit s) 0 := by
    refine h.hasRoom _ ?_
    unfold nestingLimit
    rw [hs.game]
    omega
  exact runFrame_ends g (nestingLimit s) 0 s hs (Nat.zero_le _) hroom

end Play

end EventLayer
