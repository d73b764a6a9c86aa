/-
**Every frame of a map ends.**

In a frame of the map lists begin one after the other, each when the one before it has stopped, and then
the events move.  A bound is set to the lists that begin, none to how long they run.  If no command is
indented below zero, and no common event reaches itself, every one of them ends by itself: it stops, a
command of it fails, or it waits.

Main definitions:

* `Play.RunsLists`, `Play.Advances` — a frame in which lists run for as long as they do;
* `Session.IsIndented` — no command is indented below zero.

Main results:

* `Play.runsLists_runLists`, `Play.advances_advanceMap` — the lists of a frame, and the frame, end;
* `Play.advanceMap_ends` — **in every session that a game comes to, a frame of the map ends**.
-/
import EventLayer.Proofs.Ending.Bounds
import EventLayer.Proofs.Program.Tree

set_option autoImplicit false
set_option relaxedAutoImplicit false

namespace EventLayer

namespace Play

open Session

/-! ### Frames without a bound on what their lists do -/

/-- The lists of a frame, of which at most a number begin, each run until it ends. -/
inductive RunsLists : Nat → Session → EStateM.Result Fault Session Unit → Prop
  /-- As many have begun as can begin in one frame. -/
  | enough {s : Session} : RunsLists 0 s (.ok () s)
  | waits {n : Nat} {s t : Session} {why : Waiting} : Ends 0 (s.acting 0) t (.waits why) →
      RunsLists (n + 1) s (.ok () (s.backTo t))
  | fails {n : Nat} {s t : Session} {e : Fault} : Ends 0 (s.acting 0) t (.fails e) →
      RunsLists (n + 1) s (.error e (s.backTo t))
  /-- The list has stopped, and none begins. -/
  | rests {n : Nat} {s t u : Session} : Ends 0 (s.acting 0) t .stopped →
      startNext (s.backTo t) = .ok false u → RunsLists (n + 1) s (.ok () u)
  | cannotBegin {n : Nat} {s t u : Session} {e : Fault} : Ends 0 (s.acting 0) t .stopped →
      startNext (s.backTo t) = .error e u → RunsLists (n + 1) s (.error e u)
  /-- The list has stopped, and another one begins. -/
  | begins {n : Nat} {s t u : Session} {r : EStateM.Result Fault Session Unit} :
      Ends 0 (s.acting 0) t .stopped → startNext (s.backTo t) = .ok true u → RunsLists n u r →
      RunsLists (n + 1) s r

/-- A frame of the map, whose lists are run until they end. -/
inductive Advances (s : Session) : EStateM.Result Fault Session Unit → Prop
  | cannotRefresh {t : Session} {e : Fault} : refreshIfAsked s = .error e t → Advances s (.error e t)
  | fails {t u : Session} {e : Fault} : refreshIfAsked s = .ok () t →
      RunsLists maxRounds t (.error e u) → Advances s (.error e u)
  /-- The events move after the lists have run. -/
  | moves {t u : Session} : refreshIfAsked s = .ok () t → RunsLists maxRounds t (.ok () u) →
      Advances s (advanceEvents (u.map.eventList.map MapEvent.id) u)

/-! ### They end -/

variable {g : Game} {s : Session}

theorem readsAs_indented_empty : ReadsAs Indented (.arr []) := by
  intro l hl
  have hnone : l = [] := (Except.ok.inj hl).symm
  rw [hnone]
  intro c hc
  cases hc

theorem runLists_of_running {rounds : Nat} {t : Session} (h : runInterpreter s = .ok () t)
    (ht : t.interpreter.isRunning = true) : runLists (rounds + 1) s = .ok () t := by
  rw [runLists, bind_of_ok h, get_bind_apply, if_pos ht]
  rfl

theorem runLists_of_stopped {rounds : Nat} {t : Session} (h : runInterpreter s = .ok () t)
    (ht : t.interpreter.isRunning = false) :
    runLists (rounds + 1) s = (do if ← startNext then runLists rounds : Play Unit) t := by
  rw [runLists, bind_of_ok h, get_bind_apply, ht]
  rfl

/-- The lists of a frame end, by induction on how many can begin. -/
theorem runsLists_runLists (h : g.Acyclic) (hs : s.Ordered g Indented) (rounds : Nat) :
    RunsLists rounds s (runLists rounds s) := by
  induction rounds generalizing s with
  | zero => exact .enough
  | succ rounds ih =>
      obtain ⟨t, how, hends, hcomes, hleaves⟩ := runInterpreter_ends h hs
      cases how with
      | fails e =>
          rw [runLists, bind_of_error hcomes]
          exact .fails hends
      | waits why =>
          have hrests : t.Rests 0 why := (hleaves nofun).ended
          rw [runLists_of_running hcomes hrests.isRunning]
          exact .waits hends
      | stopped =>
          have hordered : (s.backTo t).Ordered g Indented :=
            sustained_ordered.activate s.active (hleaves nofun).ordered
          rw [runLists_of_stopped hcomes (hleaves nofun).ended, bind_apply]
          cases hstart : startNext (s.backTo t) with
          | error e u => exact .cannotBegin hends hstart
          | ok begun u =>
              cases begun with
              | false => exact .rests hends hstart
              | true =>
                  have hu := (ordered_startNext readsAs_indented_empty).of_ok hordered hstart
                  exact .begins hends hstart (ih hu)

/-- A frame of the map ends. -/
theorem advances_advanceMap (h : g.Acyclic) (hs : s.Ordered g Indented) :
    Advances s (advanceMap s) := by
  rw [advanceMap_eq, bind_apply]
  cases hrefresh : refreshIfAsked s with
  | error e t => exact .cannotRefresh hrefresh
  | ok a t =>
      have hlists := runsLists_runLists h (ordered_refreshIfAsked.of_ok hs hrefresh) maxRounds
      dsimp only
      rw [bind_apply, advanceLists]
      cases hrun : runLists maxRounds t with
      | error e u => exact .fails hrefresh (hrun ▸ hlists)
      | ok b u => exact .moves hrefresh (hrun ▸ hlists)

end Play

/-! ### Every session that a game comes to -/

namespace Session

/-- No command of a list that runs, or can begin, is indented below zero. -/
def IsIndented (s : Session) : Prop :=
  s.Supplies Indented ∧ Indented s.interpreter.root.list ∧
    ∀ f ∈ s.interpreter.nested, Indented f.list

instance (s : Session) : Decidable s.IsIndented :=
  inferInstanceAs (Decidable (((∀ run ∈ s.map.pending, ReadsAs Indented run.list) ∧
    (∀ e ∈ s.map.eventList, ∀ p ∈ e.pages, ReadsAs Indented p.list) ∧
    ∀ e ∈ s.game.database.commonEntries, ReadsAs Indented (CommonEvent.listOf e)) ∧
    Indented s.interpreter.root.list ∧ ∀ f ∈ s.interpreter.nested, Indented f.list))

variable {g : Game} {s : Session}

/-- A session that a game comes to is ordered if its commands are not indented below zero. -/
theorem Reachable.ordered (h : Reachable g s) (hindented : s.IsIndented) : s.Ordered g Indented := by
  obtain ⟨hsupplies, hroot, hnested⟩ := hindented
  refine ⟨⟨h.knowsCommons.1, hsupplies⟩, h.orderly.root.of_list hroot, ?_⟩
  intro f hf
  exact (h.orderly.nested f hf).of_list (hnested f hf)

end Session

namespace Play

open Session

/-- **In every session that a game comes to, a frame of the map ends**, if no command is indented below
zero and no common event reaches itself.  The lists that run stop, or they wait: for frames to pass, for a
forced route, or for a common event that waits. -/
theorem advanceMap_ends {g : Game} {s : Session} (hs : Reachable g s) (hindented : s.IsIndented)
    (hacyclic : g.Acyclic) :
    Advances s (advanceMap s) ∧ ∃ t how, Ends 0 (s.acting 0) t how ∧
      runInterpreter s = how.outcome (s.backTo t) ∧ ((∀ e, how ≠ .fails e) → t.HasEnded 0 how) := by
  have hordered := hs.ordered hindented
  refine ⟨advances_advanceMap hacyclic hordered, ?_⟩
  obtain ⟨t, how, hends, hcomes, hleaves⟩ := runInterpreter_ends hacyclic hordered
  exact ⟨t, how, hends, hcomes, fun hnot => (hleaves hnot).ended⟩

/-! ### Lists above each other -/

/-- A game with a common event that runs another one, which waits for a frame and is run to show treasures,
too. -/
def nestingGame : Game where
  config := { treasureDisplay := 2 }
  database := { commonEvents := .arr [.null,
    .obj [("id", 1), ("list", .arr [Program.commandAt 0 117 (.arr [2])])],
    .obj [("id", 2), ("list", .arr [Program.commandAt 0 230 (.arr [1])])]] }

/-- The game with a list that runs the first common event and then gives a treasure. -/
def nestingSession : Session :=
  let treasure := Program.commandAt 0 357
    (.arr [.str layerName, .str "treasure_gold", .str "", .obj [("amount", .str "5")]])
  (setupInterpreter (.arr [Program.commandAt 0 117 (.arr [1]), treasure]) 0).after (Session.begin nestingGame {})

/-- Its frames end. -/
theorem advanceMap_ends_nestingSession : Advances nestingSession (advanceMap nestingSession) ∧
    ∃ t how, Ends 0 (nestingSession.acting 0) t how ∧
      runInterpreter nestingSession = how.outcome (nestingSession.backTo t) ∧
        ((∀ e, how ≠ .fails e) → t.HasEnded 0 how) := by
  have hbegin : Reachable nestingGame (Session.begin nestingGame {}) := .begin {}
  have hreachable : Reachable nestingGame nestingSession := hbegin.after (.setupInterpreter _ 0)
  exact advanceMap_ends hreachable (by decide +kernel) (by decide +kernel)

end Play

end EventLayer
