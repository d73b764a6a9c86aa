/-
**Everything that waits is run once, and in its order.**

When the map's command list has ended, the next one is taken from what waits.  Lists of map setup go first,
in the order in which they were queued; then the common events that were reserved, in the order of their
reservations; then the events that were started, each with its mark taken back; and what runs by itself
only when nothing waits.  This is so however the turns of a game follow each other: nothing is lost on the
way, and nothing is run twice.  A frame ends after a hundred lists, wherever it stands then; since a frame
is a course of single turns for any number of lists, it loses nothing either.

Main definitions:

* `Session.Turn.IsInOrder` — a turn in which nothing begins before its time;
* `Session.Dispatches` — what waits is run in order, and once.

Main results:

* `Session.Does.isInOrder` — a single turn;
* `Session.Course.dispatches` — **all turns on a map, and frames of any number of lists**.
-/
import EventLayer.Proofs.Turns.Queues

set_option autoImplicit false
set_option relaxedAutoImplicit false

namespace EventLayer

theorem Doing.reservation?_eq_some {k : Doing} {id : Int} :
    k.reservation? = some id ↔ k = .reserved id := by
  cases k <;> simp [reservation?]

namespace Session

/-- Whether an event is marked as started. -/
def isStarting (s : Session) (id : Int) : Bool := (s.event? id).any (·.starting)

/-- Whether a turn begins the list of an event that was started. -/
def Turn.runs (id : Int) (turn : Turn) : Bool :=
  match turn.doing with
  | .begun (.event id') => id' == id
  | _ => false

/-- Whether an event is started in a turn. -/
def Turn.starts (id : Int) (turn : Turn) : Bool :=
  !turn.before.isStarting id && turn.after.isStarting id

/-- A turn in which nothing begins before its time. -/
def Turn.IsInOrder (turn : Turn) : Prop :=
  match turn.doing with
  | .begun (.reserved _) => turn.before.map.pending = []
  | .begun (.event id) => turn.before.map.pending = [] ∧ turn.before.scratch.reserved = [] ∧
      turn.before.isStarting id = true ∧ turn.after.isStarting id = false
  | .begun (.autorun _) | .begun (.common _) => turn.before.map.pending = [] ∧
      turn.before.scratch.reserved = [] ∧ ∀ id, turn.before.isStarting id = false
  | _ => True

/-- What waits is run in order, and once: the lists of map setup and the reserved common events begin in
the order of the queues, what is left still waits, nothing begins before its time, and every run of an
event that was started has a start of its own. -/
structure Dispatches (s : Session) (l : List Turn) (t : Session) : Prop where
  pending : s.map.pending = l.filterMap (·.doing.pendingRun?) ++ t.map.pending
  reserved : s.scratch.reserved ++ l.filterMap (·.doing.reservation?) =
    l.filterMap (·.doing.reservedRun?) ++ t.scratch.reserved
  inOrder : ∀ turn ∈ l, turn.IsInOrder
  started : ∀ id, l.countP (·.runs id) + (t.isStarting id).toNat ≤
    l.countP (·.starts id) + (s.isStarting id).toNat

variable {s t u : Session} {k : Doing}

/-! ### Single turns -/

theorem isStarting_eq_false (h : s.map.eventList.find? (·.starting) = none) (id : Int) :
    s.isStarting id = false := by
  unfold isStarting
  cases he : s.event? id with
  | none => rfl
  | some e =>
      have hnone := List.find?_eq_none.mp h e (OrderedMap.mem_values_of_get? he)
      exact Bool.eq_false_iff.mpr hnone

/-- **Nothing begins before its time**, and a started event has its mark taken back when it does. -/
theorem Does.isInOrder (h : Does k s t) (hknown : s.KnowsReserved) (hs : Numbered s.map.events) :
    Turn.IsInOrder ⟨s, k, t⟩ := by
  cases h with
  | begin _ hbegins =>
      cases hbegins with
      | pending _ => trivial
      | reserved hpending _ _ => exact hpending
      | @event e hidle he =>
          have hfound : s.event? e.id = some e := event?_of_mem hs (List.mem_of_find?_eq_some he)
          refine ⟨hidle.1, hidle.reserved_eq_nil hknown, ?_, ?_⟩
          · have hstarting := List.find?_some he
            rw [isStarting, hfound]
            exact hstarting
          · have hmap := Play.map_setupInterpreter e.list e.id
              (s.passed.updateEvent e.id MapEvent.clearStarting)
            have hcleared : (s.passed.updateEvent e.id MapEvent.clearStarting).event? e.id =
                some e.clearStarting := by
              rw [event?_updateEvent]
              exact congrArg (Option.map MapEvent.clearStarting) hfound
            rw [isStarting, event?, hmap]
            exact congrArg (Option.any (·.starting)) hcleared
      | autorun hidle hnone _ =>
          exact ⟨hidle.1, hidle.reserved_eq_nil hknown, isStarting_eq_false hnone⟩
      | common hidle hnone _ _ =>
          exact ⟨hidle.1, hidle.reserved_eq_nil hknown, isStarting_eq_false hnone⟩
  | _ => trivial

/-- A run of an event uses up a start. -/
theorem Turn.IsInOrder.started {turn : Turn} (h : turn.IsInOrder) (id : Int) :
    (turn.runs id).toNat + (turn.after.isStarting id).toNat ≤
      (turn.starts id).toNat + (turn.before.isStarting id).toNat := by
  cases hruns : turn.runs id with
  | false =>
      unfold starts
      cases turn.before.isStarting id <;> cases turn.after.isStarting id <;> decide
  | true =>
      unfold runs at hruns
      unfold IsInOrder at h
      split at hruns
      · next id' hdoing =>
          rw [hdoing] at h
          obtain rfl := eq_of_beq hruns
          obtain ⟨-, -, hbefore, hafter⟩ := h
          rw [hbefore, hafter]
          exact Nat.le_add_left _ _
      · cases hruns

/-! ### All turns -/

/-- The reserved common events go on to exist, if those do that are reserved. -/
theorem TakesTurn.knowsReserved (h : s.TakesTurn k t) (hknown : s.KnowsReserved)
    (hnew : ∀ id, k = .reserved id → (s.reservedCommon? id).isSome = true) : t.KnowsReserved := by
  intro id hid
  have hentry : t.reservedCommon? id = s.reservedCommon? id := by rw [reservedCommon?, h.game]; rfl
  have hmem : id ∈ s.scratch.reserved ++ k.reservation?.toList := by
    rw [h.reserved]
    exact List.mem_append_right _ hid
  rw [hentry]
  rcases List.mem_append.mp hmem with hold | hadded
  · exact hknown id hold
  · exact hnew id (Doing.reservation?_eq_some.mp (Option.mem_toList.mp hadded))

theorem Dispatches.nil (s : Session) : s.Dispatches [] s where
  pending := rfl
  reserved := List.append_nil _
  inOrder := fun _ h => absurd h List.not_mem_nil
  started := fun _ => Nat.le_refl _

theorem Dispatches.snoc {l : List Turn} (h : s.Dispatches l t) (hturn : t.TakesTurn k u)
    (horder : Turn.IsInOrder ⟨t, k, u⟩) : s.Dispatches (l ++ [⟨t, k, u⟩]) u where
  pending := by
    rw [h.pending, hturn.pending, List.filterMap_append, List.append_assoc]
    cases hk : k.pendingRun? <;> simp [hk]
  reserved := by
    have hlast : ∀ look : Doing → Option Int, [(⟨t, k, u⟩ : Turn)].filterMap (fun turn => look turn.doing) =
        (look k).toList := fun look => by cases hk : look k <;> simp [hk]
    rw [List.filterMap_append, List.filterMap_append, hlast, hlast, ← List.append_assoc, h.reserved,
      List.append_assoc, hturn.reserved, List.append_assoc]
  inOrder := by
    simp only [List.forall_mem_append, List.forall_mem_singleton]
    exact ⟨h.inOrder, horder⟩
  started := fun id => by
    have hbefore := h.started id
    have hlast := horder.started id
    have hsum : ∀ look : Turn → Bool, (l ++ [(⟨t, k, u⟩ : Turn)]).countP look =
        l.countP look + (look ⟨t, k, u⟩).toNat := fun look => by
      cases hlook : look ⟨t, k, u⟩ <;> simp [List.countP_append, hlook]
    rw [hsum, hsum]
    dsimp only at hlast
    omega

theorem Course.dispatches_of_numbered {l : List Turn} (h : s.Course l t)
    (hmap : ∀ turn ∈ l, turn.doing ≠ .arrived) (hs : Numbered s.map.events)
    (hknown : s.KnowsReserved)
    (hnew : ∀ turn ∈ l, ∀ id, turn.doing = .reserved id → (s.reservedCommon? id).isSome = true) :
    s.Dispatches l t ∧ t.KnowsReserved ∧ t.game = s.game := by
  induction h with
  | nil => exact ⟨.nil _, hknown, rfl⟩
  | @snoc t u l k hcourse hdoes ih =>
      simp only [List.forall_mem_append, List.forall_mem_singleton] at hmap hnew
      obtain ⟨hdispatches, hstill, hgame⟩ := ih hmap.1 hnew.1
      have hturn := hdoes.takesTurn hmap.2 hstill
      have hentries : ∀ id, t.reservedCommon? id = s.reservedCommon? id := fun id => by
        rw [reservedCommon?, hgame]
        rfl
      refine ⟨hdispatches.snoc hturn (hdoes.isInOrder hstill (hcourse.numbered hs)), ?_, ?_⟩
      · refine hturn.knowsReserved hstill fun id hid => ?_
        rw [hentries]
        exact hnew.2 id hid
      · exact hturn.game.trans hgame

/-- **Everything that waits is run once, and in its order.**  Take a session of a game, in which only common
events that exist are reserved, and whatever is done from there on without a change of the map: the lists of
map setup begin in the order of their queue, the reserved common events in the order of their reservations,
nothing begins before its time, and no event runs more often than it is started.  A frame of the map is
again such a course, and so are its runs of any number of lists. -/
theorem Course.dispatches {g : Game} {draws : Draws} {before l : List Turn}
    (hbefore : (Session.begin g draws).Course before s) (h : s.Course l t)
    (hmap : ∀ turn ∈ l, turn.doing ≠ .arrived) (hknown : s.KnowsReserved)
    (hnew : ∀ turn ∈ l, ∀ id, turn.doing = .reserved id → (s.reservedCommon? id).isSome = true) :
    s.Dispatches l t ∧ t.LedTo false (Play.advanceMap.after t) ∧
      ∀ rounds, t.LedTo false ((Play.runLists rounds).after t) := by
  have hs : Numbered s.map.events := hbefore.numbered numbered_empty
  refine ⟨(h.dispatches_of_numbered hmap hs hknown hnew).1, ?_, fun rounds => ?_⟩
  · exact Play.ledTo_advanceMap t t (.refl t false)
  · exact Play.ledTo_runLists t rounds t (.refl t false)

/-! ### A square -/

/-- A game with a common event, and a map on which there are two events; one of them is run when the map is
set up. -/
def squareGame : Game where
  database := { commonEvents := .arr [.null, .obj [("id", 1), ("list", .arr [])]] }
  mapFile := fun _ =>
    let list : Json := .arr [.obj [("code", 0)]]
    .ok (some (.obj [("events", .arr [.null, .obj [("id", 1), ("pages", .arr [.obj [("list", list)]])],
      .obj [("id", 2), ("pages", .arr [.obj [("trigger", 7), ("list", list)]])]])]))

/-- The game on its map; the common event is reserved, and the first event is started. -/
def onSquare : Session :=
  (((Play.setupMap 1).after (Session.begin squareGame {})).reserve 1).startWhere (·.id == 1)

/-- On the square everything is run, the list of map setup first. -/
theorem dispatches_onSquare : onSquare.map.pending.length = 1 ∧
    ∃ l, onSquare.Course l ((Play.runLists 5).after onSquare) ∧ (∀ turn ∈ l, turn.IsInOrder) ∧
      l.filterMap (·.doing.pendingRun?) = onSquare.map.pending ∧ l.filterMap (·.doing.reservedRun?) = [1] := by
  have hbefore : (Session.begin squareGame {}).Course _ onSquare :=
    .snoc (.snoc (.snoc (.nil _) (.arrive (.setupMap 1 none))) (.reserve 1)) (.stir (.startWhere _))
  obtain ⟨l, hruns, hframe⟩ := Play.ledTo_runLists onSquare 5 onSquare (.refl onSquare false)
  have hmap : ∀ turn ∈ l, turn.doing ≠ .arrived := fun turn hturn hdoing => by
    have hinner := hframe turn hturn
    rw [hdoing] at hinner
    cases hinner
  have hnone : ∀ turn ∈ l, turn.doing.reservation? = none := fun turn hturn => by
    have hinner := hframe turn hturn
    cases hdoing : turn.doing with
    | reserved id =>
        rw [hdoing] at hinner
        cases hinner
    | _ => rfl
  have hdispatches := (hbefore.dispatches hruns hmap (by unfold KnowsReserved; decide +kernel)
    fun turn hturn id hdoing => by
      have hreservation := hnone turn hturn
      rw [hdoing] at hreservation
      cases hreservation).1
  have hempty : ((Play.runLists 5).after onSquare).map.pending.isEmpty = true ∧
      ((Play.runLists 5).after onSquare).scratch.reserved = [] ∧ onSquare.scratch.reserved = [1] := by
    decide +kernel
  refine ⟨by decide +kernel, l, hruns, hdispatches.inOrder, ?_, ?_⟩
  · rw [hdispatches.pending, List.isEmpty_iff.mp hempty.1, List.append_nil]
  · have hqueue := hdispatches.reserved
    rw [hempty.2.1, hempty.2.2, List.filterMap_eq_nil_iff.mpr hnone] at hqueue
    simpa using hqueue.symm

end Session

end EventLayer
