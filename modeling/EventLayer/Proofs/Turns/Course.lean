/-
**What happens in a game, one thing after another.**

A frame is a sequence of single turns: a command list carries out a command or waits for a frame, a list
that has ended is dropped, the next one is begun, a common event is reserved, characters move and pages
are chosen.  A course records them with the sessions before and after.  Whatever is done in a frame is
such a course, however many lists begin in it, and also where an operation fails on the way.

Main definitions:

* `Doing`, `Session.Does` — a single turn;
* `Play.Arrives` — operations that set up a map or a list from outside;
* `Session.Course` — turns one after another;
* `Play.Partwise` — what the parts of a frame leave.

Main results:

* `Play.ledIn_runCommands`, `Play.ledTo_runInterpreter` — runs of command lists are courses;
* `Play.Partwise.advanceMap` — a frame of the map leaves what its parts leave;
* `Play.ledTo_runLists` — so are the runs of a frame, however many lists begin in it;
* `Play.ledTo_advance` — **a frame is a course**.
-/
import EventLayer.Proofs.Ending.Ends
import EventLayer.Proofs.Ending.Progress
import EventLayer.Proofs.Turns.Choice
import EventLayer.Session.Saving

set_option autoImplicit false
set_option relaxedAutoImplicit false

namespace EventLayer

/-- What is done in a turn. -/
inductive Doing where
  | command (d : Nat)
  | begun (b : Begun)
  | reserved (id : Int)
  | erased (id : Int)
  | forced (who : CharacterId)
  | arrived
  | other

/-- Whether something is done in a frame; nothing is reserved in one unless the player arrives
somewhere. -/
def Doing.isOfFrame (arriving : Bool) : Doing → Bool
  | .command _ | .begun _ | .other => true
  | .reserved _ => arriving
  | .erased _ | .forced _ | .arrived => false

namespace Play

/-- Operations that set up a map, begin a game or load one, or run a list of the host's. -/
inductive Arrives : {α : Type} → Play α → Prop
  | setupMap (id : Int) (given : Option Json) : Arrives (setupMap id given)
  | transfer (map : Int) (p : Point) (d : Int) : Arrives (transfer map p d)
  | newGame (map : Int) (p : Point) (members : List Json) : Arrives (newGame map p members)
  | load (save : Json) : Arrives (load save)
  | setupInterpreter (list : Json) (event : Int) : Arrives (setupInterpreter list event)

end Play

namespace Session

/-! ### Single turns -/

/-- A single turn. -/
inductive Does : Doing → Session → Session → Prop
  -- the innermost list carries out a command; a list that waits for nobody does so
  | command {s : Session} (d : Nat) (hactive : s.active = some d)
      (hdepth : s.interpreter.nested.length = d) (hfree : (s.frame d).awaited = none) :
      Does (.command d) s ((Play.step d).after s)
  | wait {s : Session} (d : Nat) (hdepth : s.interpreter.nested.length = d) :
      Does .other s ((Play.waits d).after s)
  | drop {s : Session} (d : Nat) (hended : (s.frame (d + 1)).isRunning = false) :
      Does .other s (s.dropCallee d)
  -- lists that begin, once the one before has ended
  | begin {s t : Session} {b : Begun} (hended : s.interpreter.isRunning = false)
      (h : s.Begins b t) : Does (.begun b) s t
  | pass {s : Session} (h : s.IsIdle) : Does .other s s.passed
  | reserve {s : Session} (id : Int) : Does (.reserved id) s (s.reserve id)
  -- what happens on the map
  | stir {s : Session} {α : Type} {act : Play α} (h : Play.Stirs act) : Does .other s (act.after s)
  | erase {s : Session} (id : Int) : Does (.erased id) s ((Play.eraseEvent id).after s)
  | force {s : Session} (who : CharacterId) (route : Option Route) :
      Does (.forced who) s (s.updateCharacter who (·.forceRoute route))
  | arrive {s : Session} {α : Type} {act : Play α} (h : Play.Arrives act) :
      Does .arrived s (act.after s)
  -- what concerns neither the map, nor the lists, nor what waits to be run
  | aside {s t : Session} (hmap : t.map = s.map) (hlists : t.interpreter = s.interpreter)
      (hgame : t.game = s.game) (hreserved : t.scratch.reserved = s.scratch.reserved) :
      Does .other s t

/-- What was done, with the sessions before and after. -/
structure Turn where
  before : Session
  doing : Doing
  after : Session

/-- What is done one after another. -/
inductive Course : Session → List Turn → Session → Prop
  | nil (s : Session) : Course s [] s
  | snoc {s t u : Session} {l : List Turn} {k : Doing} :
      Course s l t → Does k t u → Course s (l ++ [⟨t, k, u⟩]) u

/-- A course of what is done in frames leads from one session to another; whether the player arrives
somewhere meanwhile is told apart. -/
def LedTo (s : Session) (arriving : Bool) (t : Session) : Prop :=
  ∃ l, Course s l t ∧ ∀ turn ∈ l, turn.doing.isOfFrame arriving = true

/-- A course, while there is a list at a depth. -/
def LedAt (s : Session) (arriving : Bool) (d : Nat) (t : Session) : Prop :=
  s.LedTo arriving t ∧ d ≤ t.interpreter.nested.length

/-- A course, while the list at a depth carries out commands. -/
def LedIn (s : Session) (arriving : Bool) (d : Nat) (t : Session) : Prop :=
  s.LedAt arriving d t ∧ t.active = some d

variable {s t u : Session} {b : Bool} {d : Nat}

theorem LedTo.refl (s : Session) (b : Bool) : s.LedTo b s :=
  ⟨[], .nil s, fun _ h => absurd h List.not_mem_nil⟩

theorem LedTo.tail {k : Doing} (h : s.LedTo b t) (hdoes : Does k t u)
    (hk : k.isOfFrame b = true) : s.LedTo b u := by
  obtain ⟨l, hl, hturns⟩ := h
  refine ⟨_, hl.snoc hdoes, ?_⟩
  simp only [List.forall_mem_append, List.forall_mem_singleton]
  exact ⟨hturns, hk⟩

theorem Course.append {l l' : List Turn} (h : s.Course l t) (h' : t.Course l' u) :
    s.Course (l ++ l') u := by
  induction h' with
  | nil => simpa using h
  | snoc _ hdoes ih =>
      rw [← List.append_assoc]
      exact ih.snoc hdoes

theorem LedTo.aside (h : s.LedTo b t) (hmap : u.map = t.map) (hlists : u.interpreter = t.interpreter)
    (hgame : u.game = t.game) (hreserved : u.scratch.reserved = t.scratch.reserved) : s.LedTo b u :=
  h.tail (.aside hmap hlists hgame hreserved) rfl

theorem LedTo.activate (h : s.LedTo b t) (a : Option Nat) : s.LedTo b { t with active := a } :=
  h.aside rfl rfl rfl rfl

theorem LedTo.stir {α : Type} {act : Play α} (hact : Play.Stirs act) : act.Preserves (s.LedTo b) :=
  fun _ ht => ht.tail (.stir hact) rfl

end Session

namespace Play

open Session

/-! ### A command list -/

variable {s t : Session} {b : Bool} {d : Nat}

/-- Carrying out a command goes on from the list that does, and leaves it where it is. -/
theorem depth_step (hactive : s.active = some d) (hnested : s.interpreter.nested.length = d) :
    ((step d).after s).active = some d ∧ d ≤ ((step d).after s).interpreter.nested.length := by
  have hdepth : d ≤ s.interpreter.nested.length := Nat.le_of_eq hnested.symm
  have hmodified : ∀ (t : Session) (F : Frame → Frame), d ≤ t.interpreter.nested.length →
      d ≤ (t.updateFrame d F).interpreter.nested.length := by
    intro t F ht
    exact Nat.le_trans ht (Nat.le_of_eq (Interpreter.length_nested_modify ..).symm)
  cases hc : (s.frame d).current? with
  | none =>
      rw [after_of_ok (step_of_end hc)]
      have hcut := Interpreter.length_nested_cut (hmodified s Frame.terminate hdepth)
      exact ⟨hactive, Nat.le_of_eq hcut.symm⟩
  | some c =>
      rcases step_of_current hc with hstep | hstep
      · rw [after_of_error hstep]
        exact ⟨hactive, hdepth⟩
      · have hwork : AtWork s.game d s c.instruction s :=
          ⟨⟨rfl, hactive⟩, fun _ _ => rfl, Or.inl hnested⟩
        have hcarried := atWork_carryOut s.game d s c.instruction _
          (hwork.updateFrame d (F := beginCommand c) fun _ => rfl)
        rw [after, hstep]
        refine holds_after_bind (P := fun t => t.active = some d ∧ d ≤ t.interpreter.nested.length)
          ⟨hactive, hmodified s _ hdepth⟩ fun _ t ht => ?_
        cases ht
        refine holds_after_bind (P := fun t => t.active = some d ∧ d ≤ t.interpreter.nested.length)
          ⟨hcarried.active, hcarried.depth⟩ fun next u hu => ?_
        rw [after_of_ok hu] at hcarried
        exact ⟨hcarried.active, hmodified u _ hcarried.depth⟩

theorem depth_waits (d e : Nat) (a : Option Nat) :
    (waits e).Preserves fun s => s.active = a ∧ d ≤ s.interpreter.nested.length := by
  refine preserves_waits (fun s hs => ?_) fun s hs => ?_
  · exact ⟨hs.1, Nat.le_trans hs.2 (Nat.le_of_eq (Interpreter.length_nested_modify ..).symm)⟩
  · exact ⟨hs.1, Nat.le_trans hs.2 (Nat.le_of_eq (Interpreter.length_nested_modify ..).symm)⟩

/-- A list that is not there waits for nobody either. -/
theorem awaited_forgotten (s : Session) (d : Nat) :
    ((s.updateFrame d fun f => { f with awaited := none }).frame d).awaited = none := by
  by_cases hdepth : d ≤ s.interpreter.nested.length
  · exact congrArg Frame.awaited (Interpreter.frame_modify_self hdepth _)
  · cases d with
    | zero => rfl
    | succ d =>
        have hnone : s.interpreter.nested[d]? = none := List.getElem?_eq_none (by omega)
        simp [frame, updateFrame, Interpreter.frame, Interpreter.modify, List.getD_eq_getElem?_getD,
          hnone]

/-- A list goes on only when it waits for nobody. -/
theorem awaited_of_waits (h : waits d s = .ok false t) :
    (t.frame d).awaited = none ∧ t.interpreter.nested.length = s.interpreter.nested.length := by
  by_cases hcount : 0 < (s.frame d).waitCount
  · rw [waits_of_frames hcount] at h
    cases h
  cases hwho : (s.frame d).awaited with
  | none =>
      rw [waits_of_nobody hcount hwho] at h
      cases h
      exact ⟨hwho, rfl⟩
  | some who =>
      cases hforcing : (s.character who).forcing with
      | true =>
          rw [waits_of_route hcount hwho hforcing] at h
          cases h
      | false =>
          rw [waits_of_ended hcount hwho hforcing] at h
          cases h
          exact ⟨awaited_forgotten s d, Interpreter.length_nested_modify ..⟩

section Nested

variable {runNested : Play Unit} (hn : runNested.Preserves (s.LedAt b (d + 1)))
  (hactive : ∀ a, runNested.Preserves fun t => t.active = a)

include hn hactive

/-- The common event that was called goes first, and is dropped when it has ended; the list itself goes
on when none is left above it. -/
theorem ledIn_runCallee (ht : s.LedIn b d t) : s.LedIn b d ((runCallee runNested d).after t) ∧
    ∀ u, runCallee runNested d t = .ok false u → u.interpreter.nested.length = d := by
  by_cases hdepth : t.interpreter.nested.length ≤ d
  · have hnone : runCallee runNested d t = .ok false t := runCallee_of_none hdepth
    refine ⟨?_, fun u hu => ?_⟩
    · rw [after_of_ok hnone]
      exact ht
    · rw [hnone] at hu
      cases hu
      exact Nat.le_antisymm hdepth ht.1.2
  · have hcalled : d < t.interpreter.nested.length := Nat.lt_of_not_le hdepth
    have hran : s.LedAt b (d + 1) (runNested.after t) := hn t ⟨ht.1.1, hcalled⟩
    have hback : (runNested.after t).active = some d := hactive _ t ht.2
    have hin : s.LedIn b d (runNested.after t) := ⟨⟨hran.1, Nat.le_of_succ_le hran.2⟩, hback⟩
    cases hrun : runNested t with
    | error e u =>
        have hfails : runCallee runNested d t = .error e u := runCallee_of_error hcalled hrun
        rw [after_of_error hrun] at hin
        refine ⟨?_, fun v hv => ?_⟩
        · rw [after_of_error hfails]
          exact hin
        · rw [hfails] at hv
          cases hv
    | ok _ u =>
        rw [after_of_ok hrun] at hran hin
        cases hended : (u.frame (d + 1)).isRunning with
        | true =>
            have hwaits : runCallee runNested d t = .ok true u :=
              runCallee_of_running hcalled hrun hended
            refine ⟨?_, fun v hv => ?_⟩
            · rw [after_of_ok hwaits]
              exact hin
            · rw [hwaits] at hv
              cases hv
        | false =>
            have hstops : runCallee runNested d t = .ok false (u.dropCallee d) :=
              runCallee_of_stopped hcalled hrun hended
            have hlength : (u.dropCallee d).interpreter.nested.length = d :=
              Interpreter.length_nested_cut hin.1.2
            refine ⟨?_, fun v hv => ?_⟩
            · rw [after_of_ok hstops]
              exact ⟨⟨hin.1.1.tail (.drop d hended) rfl, Nat.le_of_eq hlength.symm⟩, hin.2⟩
            · rw [hstops] at hv
              cases hv
              exact hlength

/-- A list carries out commands one after another, each in a turn of its own; by induction on the
commands that are left. -/
theorem ledIn_runCommands (budget : Nat) : (runCommands runNested d budget).Preserves (s.LedIn b d) := by
  induction budget with
  | zero => exact preserves_throw _
  | succ budget ih =>
      refine preserves_getBind fun _ => (preserves_pure ()).ite fun t ht => ?_
      obtain ⟨hcallee, hnested⟩ := ledIn_runCallee hn hactive ht
      refine holds_after_bind hcallee fun called u hcalled => ?_
      rw [after_of_ok hcalled] at hcallee
      cases called with
      | true => exact hcallee
      | false =>
          have hdepth := hnested u hcalled
          have hkept := depth_waits d d (some d) u ⟨hcallee.2, hcallee.1.2⟩
          have hwaited : s.LedIn b d ((waits d).after u) :=
            ⟨⟨hcallee.1.1.tail (.wait d hdepth) rfl, hkept.2⟩, hkept.1⟩
          refine holds_after_bind hwaited fun waiting v hwaits => ?_
          rw [after_of_ok hwaits] at hwaited
          cases waiting with
          | true => exact hwaited
          | false =>
              obtain ⟨hfree, hlength⟩ := awaited_of_waits hwaits
              have hinner := hlength.trans hdepth
              obtain ⟨hsame, hleft⟩ := depth_step hwaited.2 hinner
              have hstepped : s.LedIn b d ((step d).after v) :=
                ⟨⟨hwaited.1.1.tail (.command d hwaited.2 hinner hfree) rfl, hleft⟩, hsame⟩
              refine holds_after_bind hstepped fun _ w hstep => ih w ?_
              exact after_of_ok hstep ▸ hstepped

end Nested

theorem active_runFrame (levels d : Nat) (a : Option Nat) :
    (runFrame levels d).Preserves fun t => t.active = a := by
  cases levels with
  | zero => exact preserves_throw _
  | succ levels =>
      intro t ht
      rw [runFrame, asActive, after_between]
      exact ht

/-- What holds after a list was at work, if an operation keeps a property that holds while it is. -/
theorem holds_after_asActive {α : Type} {P Q : Session → Prop} {x : Play α} (hx : x.Preserves Q)
    (hstart : Q { t with active := some d }) (hend : ∀ u, Q u → P { u with active := t.active }) :
    P ((asActive d x).after t) := by
  rw [asActive, after_between]
  exact hend _ (hx _ hstart)

/-- A run of the list at a depth, by induction on how deep lists can be nested. -/
theorem ledAt_runFrame (s : Session) (levels d : Nat) : (runFrame levels d).Preserves (s.LedAt b d) := by
  induction levels generalizing d with
  | zero => exact preserves_throw _
  | succ levels ih =>
      intro t ht
      rw [runFrame]
      refine holds_after_asActive (Q := s.LedIn b d) ?_ ⟨⟨ht.1.activate (some d), ht.2⟩, rfl⟩
        fun u hu => ⟨hu.1.1.activate _, hu.1.2⟩
      exact preserves_getBind fun _ => ledIn_runCommands (ih (d + 1)) (active_runFrame levels (d + 1)) _

/-- **A run of the map's command lists is a course.** -/
theorem ledTo_runInterpreter (s : Session) : runInterpreter.Preserves (s.LedTo b) :=
  preserves_getBind fun _ => fun t ht => (ledAt_runFrame s _ 0 t ⟨ht, Nat.zero_le _⟩).1

/-! ### Frames -/

/-- The choice of pages leaves the command lists alone. -/
theorem interpreter_refreshIfAsked (s : Session) :
    (refreshIfAsked.after s).interpreter = s.interpreter := by
  have hkeeps : refreshIfAsked.Preserves fun t => t.interpreter = s.interpreter := by
    have hrefresh : refreshMap.Preserves fun t => t.interpreter = s.interpreter :=
      preserves_getBind fun _ => (preserves_reading (fun _ _ ht => ht) _).bind fun _ =>
        preserves_modify fun _ ht => ht
    exact preserves_getBind fun _ => hrefresh.ite (preserves_pure ())
  exact hkeeps s rfl

theorem ledTo_refreshIfAsked (s : Session) : refreshIfAsked.Preserves (s.LedTo b) :=
  preserves_getBind fun _ => (LedTo.stir .refreshMap).ite (preserves_pure ())

/-- A property of sessions that the parts of a frame of the map leave: the choice of pages, the runs of
command lists, their beginnings, each once the list before has ended, and the frames of events. -/
structure Partwise (P : Session → Prop) : Prop where
  choose : refreshIfAsked.Preserves P
  run : runInterpreter.Preserves P
  next : ∀ {t : Session}, P t → t.interpreter.isRunning = false → P (startWaiting.after t)
  own : ∀ id : Int, (advanceEvent id).Preserves P

namespace Partwise

variable {P : Session → Prop}

/-- Once the lists have ended, the next one begins. -/
theorem startNext (h : Partwise P) (ht : P t) (hended : t.interpreter.isRunning = false) :
    P (Play.startNext.after t) := by
  rw [startNext_eq]
  have hfresh := h.choose t ht
  refine holds_after_bind hfresh fun _ u hu => ?_
  rw [after_of_ok hu] at hfresh
  have hrests : u.interpreter.isRunning = false := by
    rw [← after_of_ok hu, interpreter_refreshIfAsked]
    exact hended
  exact h.next hfresh hrests

/-- However many lists begin in a frame, by induction on how many can. -/
theorem runLists (h : Partwise P) (rounds : Nat) : (Play.runLists rounds).Preserves P := by
  induction rounds with
  | zero => exact preserves_pure ()
  | succ rounds ih =>
      refine h.run.bind fun _ => fun t ht => ?_
      cases hrunning : t.interpreter.isRunning with
      | true =>
          have hwaits : (do
              if (← get).interpreter.isRunning then return
              if ← Play.startNext then Play.runLists rounds : Play Unit) t = .ok () t := by
            rw [get_bind_apply, if_pos hrunning]
            rfl
          rw [after_of_ok hwaits]
          exact ht
      | false =>
          have hgoes : (do
              if (← get).interpreter.isRunning then return
              if ← Play.startNext then Play.runLists rounds : Play Unit) t =
                (do if ← Play.startNext then Play.runLists rounds : Play Unit) t := by
            rw [get_bind_apply, hrunning]
            rfl
          rw [after, hgoes]
          refine holds_after_bind (h.startNext ht hrunning) fun begun u hu => ?_
          have hbegun : P u := after_of_ok hu ▸ h.startNext ht hrunning
          cases begun with
          | true => exact ih u hbegun
          | false => exact hbegun

theorem advanceEvents (h : Partwise P) (ids : List Int) : (Play.advanceEvents ids).Preserves P := by
  induction ids with
  | nil => exact preserves_pure ()
  | cons id rest ih => exact (h.own id).bind fun _ => ih

/-- **A frame of the map leaves what its parts leave.** -/
theorem advanceMap (h : Partwise P) : Play.advanceMap.Preserves P := by
  rw [advanceMap_eq]
  refine h.choose.bind fun _ => (h.runLists _).bind fun _ => ?_
  exact preserves_getBind fun _ => h.advanceEvents _

end Partwise

theorem partwise_ledTo (s : Session) : Partwise (s.LedTo b) where
  choose := ledTo_refreshIfAsked s
  run := ledTo_runInterpreter s
  next := fun {t} h hended => by
    rcases startWaiting_cases t with ⟨begun, hbegins⟩ | ⟨hidle, hleft⟩
    · exact h.tail (.begin hended hbegins) rfl
    · rw [hleft]
      exact (h.tail (.pass hidle) rfl).tail (.stir .commonEvents) rfl
  own := fun id => LedTo.stir (.advanceEvent id)

/-- **However many lists begin in a frame, their runs are a course.** -/
theorem ledTo_runLists (s : Session) (rounds : Nat) : (runLists rounds).Preserves (s.LedTo b) :=
  (partwise_ledTo s).runLists rounds

theorem ledTo_advanceMap (s : Session) : advanceMap.Preserves (s.LedTo b) := (partwise_ledTo s).advanceMap

theorem ledTo_reserveAll (s : Session) (commons : List CommonEvent) :
    (reserveAll commons).Preserves (s.LedTo true) := by
  induction commons with
  | nil => exact preserves_pure ()
  | cons c rest ih =>
      refine (preserves_except _).bind fun id => Preserves.bind (preserves_modify ?_) fun _ => ih
      exact fun _ ht => ht.tail (.reserve id) rfl

theorem ledTo_enterRegion (s : Session) (region : Option Int) :
    (enterRegion region).Preserves (s.LedTo true) := by
  refine preserves_getBind fun _ => (preserves_pure ()).ite ?_
  have hentries : (regionEntries region).Preserves (s.LedTo true) :=
    preserves_getBind fun _ => (LedTo.stir .commonEvents).bind fun _ => preserves_pure _
  refine hentries.bind fun found => ?_
  exact (LedTo.stir (.startWhere fun e => found.1.contains e.id)).bind fun _ => ledTo_reserveAll s _

theorem ledTo_advancePlayer (s : Session) : advancePlayer.Preserves (s.LedTo true) := by
  have harrive : arrive.Preserves (s.LedTo true) := by
    refine preserves_getBind fun _ => (preserves_pure ()).ite ?_
    refine (LedTo.stir .touchHere).bind fun _ => (LedTo.stir .touchFollowers).bind fun _ => ?_
    refine (LedTo.stir .regionChanged).bind fun _ => Preserves.ite ?_ (preserves_pure ())
    exact preserves_getBind fun _ => ledTo_enterRegion s _
  have hrest : (do if ← Act.takeMoved .player then arrive : Play Unit).Preserves (s.LedTo true) :=
    (LedTo.stir (.takeMoved .player)).bind fun _ => harrive.ite (preserves_pure ())
  refine preserves_getBind fun _ => ?_
  split
  · exact (LedTo.stir (.walk .player)).bind fun _ => hrest
  · exact hrest

/-- **A frame is a course**, also one that fails on the way. -/
theorem ledTo_advance (s : Session) : advance.Preserves (s.LedTo true) :=
  (ledTo_advanceMap s).bind fun _ => ledTo_advancePlayer s

theorem ledTo_advanceBy (s : Session) (frames : Nat) : (advanceBy frames).Preserves (s.LedTo true) := by
  induction frames with
  | zero => exact preserves_pure ()
  | succ frames ih => exact (ledTo_advance s).bind fun _ => ih

/-! ### Maps and games -/

/-- What the dropping of all lists brings about, and what no change beside them touches, the setting up of
a map leaves: either it fails before, or it drops them. -/
theorem preserves_setupMap {P : Session → Prop} (hn : ∀ s n, P s → P { s with notices := n })
    (hcleared : ∀ {s t : Session}, P s → t.interpreter = s.interpreter.clear → P t) (id : Int)
    (given : Option Json) : (setupMap id given).Preserves P := by
  refine (preserves_mapData hn id given).bind fun data => ?_
  refine (preserves_except _).bind fun _ => (preserves_except _).bind fun _ => ?_
  refine (preserves_except _).bind fun _ => (preserves_except _).bind fun _ => ?_
  refine (preserves_except _).bind fun _ => fun s hs => ?_
  -- from here on the lists of the map before are gone
  have hqueue : queueSetup.Preserves fun t => t.interpreter = s.interpreter.clear :=
    preserves_queueSetup (preserves_commonEvents fun _ _ _ ht => ht) fun _ _ ht => ht
  refine hcleared hs ?_
  refine Preserves.holds_after_modify (P := fun t => t.interpreter = s.interpreter.clear) ?_ rfl
  refine preserves_getBind fun _ => (preserves_except _).bind fun _ => (preserves_except _).bind fun _ => ?_
  refine (preserves_reading (fun _ _ ht => ht) _).bind fun _ => ?_
  exact Preserves.bind (preserves_modify fun _ ht => ht) fun _ => hqueue

section Arrivals

variable {P : Session → Prop}
  (haside : ∀ {s t : Session}, P s → t.interpreter = s.interpreter → t.map = s.map → P t)
  (hsetup : ∀ (id : Int) (given : Option Json), (setupMap id given).Preserves P)

include haside hsetup

theorem preserves_transfer (map : Int) (p : Point) (d : Int) : (transfer map p d).Preserves P := by
  have hplace : (do
      modify (Session.placeParty p d)
      let region ← playerRegion
      modify fun s => { s with player.lastRegion := region } : Play Unit).Preserves P := by
    refine Preserves.bind (preserves_modify fun _ ht => haside ht rfl rfl) fun _ => ?_
    have hregion : playerRegion.Preserves P := preserves_getBind fun _ => preserves_except _
    exact hregion.bind fun _ => preserves_modify fun _ ht => haside ht rfl rfl
  refine preserves_getBind fun _ => ?_
  split
  · exact (hsetup map none).bind fun _ => hplace
  · exact hplace

theorem preserves_loadPosition (position : Json) : (loadPosition position).Preserves P := by
  refine (preserves_pure ()).ite ((preserves_except _).bind fun map => (preserves_pure ()).ite ?_)
  refine (preserves_except _).bind fun id => (hsetup id none).bind fun _ => ?_
  refine (preserves_except _).bind fun x => (preserves_except _).bind fun y => ?_
  refine (preserves_except _).bind fun d => ?_
  exact (preserves_except _).bind fun id => preserves_transfer haside hsetup id _ _

/-- What the setting up of a map leaves, and the beginning of a list, whatever sets up a map leaves. -/
theorem preserves_of_arrives
    (hlist : ∀ (list : Json) (event : Int), (setupInterpreter list event).Preserves P) {α : Type}
    {act : Play α} (hact : Arrives act) : act.Preserves P := by
  cases hact with
  | setupMap id given => exact hsetup id given
  | transfer map p d => exact preserves_transfer haside hsetup map p d
  | setupInterpreter list event => exact hlist list event
  | newGame map p members =>
      refine Preserves.bind (preserves_modify fun _ ht => haside ht rfl rfl) fun _ => ?_
      refine Preserves.bind (preserves_modify fun _ ht => haside ht rfl rfl) fun _ => ?_
      exact (hsetup map none).bind fun _ => preserves_transfer haside hsetup map p 0
  | load save =>
      refine preserves_getBind fun _ => ?_
      refine (preserves_reading (fun _ _ ht => haside ht rfl rfl) _).bind fun _ => ?_
      refine Preserves.bind (preserves_modify fun _ ht => haside ht rfl rfl) fun _ => ?_
      refine Preserves.bind (preserves_modify fun _ ht => haside ht rfl rfl) fun _ => ?_
      exact (preserves_except _).bind fun position => preserves_loadPosition haside hsetup position

end Arrivals

end Play

end EventLayer
