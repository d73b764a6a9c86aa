/-
**The positions at which a list carries out its commands.**

A command list is run over many turns, between which other lists, the map and the characters have theirs.
In each turn of its own it fetches the command at its position and moves on: behind the command, to the
end of the list, or, from a weight command whose branch is not the chosen one, to where that branch ends.
So the positions increase.  The exception is a branch that is left open, which lies below indentation zero
and which no command ends: passing it by takes the list back to its start, and it runs anew.

The turns are those of a course, and so those of any number of frames (`Play.ledTo_advanceBy`).

Main definitions:

* `Frame.HasBegun`, `Frame.Stands` — a list as it is opened, and while it is run;
* `Frame.PassesOpen`, `Session.Turn.PassesOpen` — a branch that is left open is passed by;
* `Session.upcoming?`, `Session.fetches` — the position of the next command, and those of the commands
  fetched in a course;
* `Session.Turn.IsOfRun` — turns in which a list is run;
* `Session.RunOf` — how the run of a list stands.

Main results:

* `Play.hasBegun_setupInterpreter`, `Play.hasBegun_callCommon` — lists that begin;
* `Play.weigh_eq_ok` — what a weight command does;
* `Play.step_moves` — **a command moves its list forward, unless it passes an open branch by**;
* `Session.Turn.IsOfRun.keeps` — the turns of others leave a list where it stands;
* `Session.Course.runOf` — the run of a list from its beginning;
* `Session.Course.fetches_increase_iff` — **no command of a run is fetched twice, exactly if no open branch
  is passed by**.
-/
import EventLayer.Proofs.Turns.Callers
import EventLayer.Proofs.Weights.Texts

set_option autoImplicit false
set_option relaxedAutoImplicit false

namespace EventLayer

open EventCommand

/-! ### Lists that are run -/

namespace Frame

/-- A list as it is opened. -/
structure HasBegun (l : List EventCommand) (f : Frame) : Prop where
  commands : f.commands = some l
  table : f.table = WeightTable.build l
  index : f.index = 0

/-- A list that is being run, in front of its first command or behind. -/
structure Stands (l : List EventCommand) (f : Frame) : Prop where
  commands : f.commands = some l
  table : f.table = WeightTable.build l
  index : 0 ≤ f.index

/-- The next command of a list gives weight to a branch that is left open, and afterwards this branch is
not the chosen one. -/
def PassesOpen (f f' : Frame) : Prop :=
  ∃ c, f.current? = some c ∧ c.instruction.Weighs ∧ LeftOpen f.list f.place ∧
    f'.selections.get? c.indent ≠ some f.place

variable {l : List EventCommand} {f f' : Frame}

theorem HasBegun.stands (h : f.HasBegun l) : f.Stands l :=
  ⟨h.commands, h.table, Int.le_of_eq h.index.symm⟩

theorem Stands.list (h : f.Stands l) : f.list = l := by rw [Frame.list, h.commands, Option.getD_some]

theorem Stands.place (h : f.Stands l) : (f.place : Int) = f.index := by
  have hindex := h.index
  rw [Frame.place, if_neg (by omega)]
  omega

theorem Stands.passesOpen_iff {c : EventCommand} (h : f.Stands l) (hc : f.current? = some c) :
    f.PassesOpen f' ↔ (c.instruction.Weighs ∧ LeftOpen l f.place) ∧
      f'.selections.get? c.indent ≠ some f.place := by
  rw [PassesOpen, h.list]
  constructor
  · rintro ⟨c', hc', hweighs, hopen, hother⟩
    cases hc.symm.trans hc'
    exact ⟨⟨hweighs, hopen⟩, hother⟩
  · rintro ⟨⟨hweighs, hopen⟩, hother⟩
    exact ⟨c, hc, hweighs, hopen, hother⟩

theorem Stands.of_course (h : f.Stands l) (hsame : f'.course = f.course) : f'.Stands l := by
  obtain ⟨hcommands, hindex, htable⟩ := eq_of_course hsame
  exact ⟨hcommands.trans h.commands, htable.trans h.table, hindex ▸ h.index⟩

theorem course_of_standing (h : f'.standing = f.standing) : f'.course = f.course := by
  have hsame : f'.standing.course = f.standing.course := by rw [h]
  exact hsame

theorem current?_of_course (h : f'.course = f.course) :
    f'.current? = f.current? ∧ f'.place = f.place := by
  obtain ⟨-, hindex, -⟩ := eq_of_course h
  have hlist := list_of_course h
  have hplace : f'.place = f.place := by rw [place, place, hindex, hlist]
  exact ⟨by rw [current?, current?, hlist, hplace], hplace⟩

theorem current?_of_ended (h : f.isRunning = false) : f.current? = none := by
  cases hc : f.current? with
  | none => rfl
  | some c =>
      rw [isRunning_of_current? hc] at h
      cases h

end Frame

namespace Play

open Session

variable {s t : Session} {d : Nat}

/-! ### Lists that begin -/

theorem openFrame_of_reads {list : Json} {l : List EventCommand} (h : (readList list).result = .ok l)
    (event : Int) (s : Session) :
    ∃ f t, openFrame list event s = .ok f t ∧ f.HasBegun l ∧ t.interpreter = s.interpreter := by
  have hopen : openFrame list event s =
      .ok { map := s.map.id, event, commands := some l, table := WeightTable.build l }
        { s with notices := s.notices ++ (readList list).notices } := by
    rw [openFrame, get_bind_apply, bind_of_ok (lift_reading_of_ok h s)]
    rfl
  exact ⟨_, _, hopen, ⟨rfl, rfl, rfl⟩, rfl⟩

/-- A list that is set up begins. -/
theorem hasBegun_setupInterpreter {list : Json} {l : List EventCommand} (h : (readList list).result = .ok l)
    (event : Int) (s : Session) : (((setupInterpreter list event).after s).frame 0).HasBegun l := by
  obtain ⟨f, t, hopen, hbegun, -⟩ := openFrame_of_reads h event (s.updateInterpreter Interpreter.clear)
  have hsetup : setupInterpreter list event s = .ok () { t with interpreter := { root := f } } :=
    bind_of_ok hopen
  rw [after_of_ok hsetup]
  exact hbegun

/-- A common event that is called begins above the list that calls it. -/
theorem hasBegun_callCommon {id entry : Json} {l : List EventCommand}
    (hdepth : d ≤ s.interpreter.nested.length) (hentry : s.game.database.commonEvent? id = some entry)
    (h : (readList (CommonEvent.listOf entry)).result = .ok l) :
    (((callCommon d id).after s).frame (d + 1)).HasBegun l := by
  obtain ⟨f, t, hopen, hbegun, hlists⟩ := openFrame_of_reads h (callee s (s.frame d)) s
  have hcall : callCommon d id s = .ok () { t with interpreter := t.interpreter.push d f } := by
    rw [callCommon, get_bind_apply]
    simp only [hentry]
    exact bind_of_ok hopen
  have hframe : (t.interpreter.push d f).frame (d + 1) = f := Interpreter.frame_push_self (hlists ▸ hdepth) f
  rw [after_of_ok hcall]
  change ((t.interpreter.push d f).frame (d + 1)).HasBegun l
  rwa [hframe]

/-! ### One command -/

/-- A draw among branches is no matter of the lists. -/
theorem interpreter_drawBranch {set : BranchSet} {b : Nat} (h : drawBranch set s = .ok b t) :
    t.interpreter = s.interpreter := by
  cases hat : set.total.atMost (.finite 0) with
  | true =>
      rw [drawBranch_of_atMost hat] at h
      cases h
      rfl
  | false =>
      rw [drawBranch_of_not_atMost hat] at h
      cases h
      rfl

/-- **What a weight command does.**  Where its marker names a set, some branch of the set is the chosen one
afterwards, and the list jumps unless it is its own. -/
theorem weigh_eq_ok {m : Marker} {set : BranchSet} {jump : Option Nat}
    (hdepth : d ≤ s.interpreter.nested.length)
    (hm : (s.frame d).table.marker? (s.frame d).index = some m)
    (hset : setOf? (s.frame d).table m = some set) (h : weigh d s = .ok jump t) :
    ∃ chosen, (t.frame d).selections.get? (s.frame d).indent = some chosen ∧
      jump = if (chosen : Int) = (s.frame d).index then none else some m.nextStop := by
  rw [weigh, get_bind_apply] at h
  simp only [hm, hset] at h
  cases hkept : ((s.frame d).selections.get? (s.frame d).indent).filter set.branches.contains with
  | some chosen =>
      rw [hkept] at h
      cases h
      exact ⟨chosen, (Option.filter_eq_some_iff.1 hkept).1, rfl⟩
  | none =>
      rw [hkept] at h
      obtain ⟨drawn, v, hbranch, h⟩ := bind_eq_ok h
      cases h
      have hlists := interpreter_drawBranch hbranch
      have hdepth' : d ≤ v.interpreter.nested.length := hlists ▸ hdepth
      have hframe : v.frame d = s.frame d := congrArg (fun i => i.frame d) hlists
      refine ⟨drawn, ?_, rfl⟩
      rw [frame, updateFrame, Interpreter.frame_modify_self hdepth']
      change ((v.frame d).selections.insert (v.frame d).indent drawn).get? _ = _
      rw [hframe, OrderedMap.get?_insert_self]

/-- The weight command of a branch that is left open lets its list go on behind it if the branch is the
chosen one, and else at the start. -/
theorem carryOut_open {l : List EventCommand} {f : Frame} {c : EventCommand} {next : Int}
    (hdepth : d ≤ s.interpreter.nested.length) (hframe : s.frame d = beginCommand c f) (hstands : f.Stands l)
    (hweighs : c.instruction.Weighs) (hopen : LeftOpen l f.place)
    (h : carryOut d c.instruction s = .ok next t) :
    ∃ chosen, (t.frame d).selections.get? c.indent = some chosen ∧
      next = if chosen = f.place then f.index + 1 else 0 := by
  obtain ⟨call, hcall, hlookup⟩ := hweighs
  rw [hcall, carryOut_weighs hlookup] at h
  obtain ⟨jump, u, hweighed, h⟩ := bind_eq_ok h
  have hplace := hstands.place
  obtain ⟨c', hc', hweight, hneg, hunended⟩ := hopen
  obtain ⟨m, set, hm, hmem, hindex, -, -, hset⟩ := WeightTable.exists_marker_build hc' hweight
  have hstop : m.nextStop = 0 := by
    rcases WeightTable.marker_jumps hmem with ⟨-, hzero⟩ | ⟨hnot, -⟩
    · exact hzero
    · exact absurd ⟨c', hindex ▸ hc', hweight, hneg, hindex ▸ hunended⟩ hnot
  have hm' : (s.frame d).table.marker? (s.frame d).index = some m := by
    rw [hframe]
    change f.table.marker? f.index = some m
    rw [hstands.table, ← hplace, hm]
  have hset' : setOf? (s.frame d).table m = some set := by
    rw [hframe]
    change m.set.bind (fun k => f.table.sets[k]?) = some set
    rw [hstands.table, hset]
  obtain ⟨chosen, hchosen, rfl⟩ := weigh_eq_ok hdepth hm' hset' hweighed
  rw [hframe] at hchosen h
  have hindent : (beginCommand c f).indent = c.indent := rfl
  have hat : (beginCommand c f).index = f.index := rfl
  rw [hindent] at hchosen
  rw [hat, hstop] at h
  by_cases heq : chosen = f.place
  · rw [if_pos (by omega)] at h
    cases h
    exact ⟨chosen, hchosen, (if_pos heq).symm⟩
  · rw [if_neg (by omega)] at h
    cases h
    exact ⟨chosen, hchosen, (if_neg heq).symm⟩

/-- Any other command lets its list go on further ahead. -/
theorem carryOut_forward {l : List EventCommand} {f : Frame} {c : EventCommand} {next : Int}
    (hframe : s.frame d = beginCommand c f) (hstands : f.Stands l) (hc : f.current? = some c)
    (hnot : ¬(c.instruction.Weighs ∧ LeftOpen l f.place)) (h : carryOut d c.instruction s = .ok next t) :
    f.index < next := by
  obtain ⟨-, hwithin⟩ := Frame.mem_of_current? hc
  by_cases hweighs : c.instruction.Weighs
  · have hleads := carryOut_leadsTo c.instruction next t h
    rw [hframe] at hleads
    cases hleads with
    | past n =>
        change f.index < f.index + 1 + n
        omega
    | out => exact hwithin
    | @jump m hm hat =>
        have hplace := hstands.place
        have hindex : m.index = f.place := by
          have hat : (m.index : Int) = f.index := hat
          omega
        have hm : m ∈ (WeightTable.build l).markers := by
          rw [← hstands.table]
          exact hm
        rcases WeightTable.marker_jumps hm with ⟨hopen, -⟩ | ⟨-, hlt⟩
        · exact absurd ⟨hweighs, hindex ▸ hopen⟩ hnot
        · omega
  · have hpasses := carryOut_passes hweighs next t h
    rw [hframe] at hpasses
    exact hpasses.lt hwithin

/-- **A command moves its list forward, unless it passes an open branch by**: then it moves it back to the
start. -/
theorem step_moves {l : List EventCommand} {c : EventCommand} (hactive : s.active = some d)
    (hnested : s.interpreter.nested.length = d) (hstands : (s.frame d).Stands l)
    (hc : (s.frame d).current? = some c) (h : step d s = .ok () t) :
    (t.frame d).Stands l ∧
      ((s.frame d).PassesOpen (t.frame d) ∧ (t.frame d).index = 0 ∨
        ¬(s.frame d).PassesOpen (t.frame d) ∧ (s.frame d).index < (t.frame d).index) := by
  obtain ⟨next, u, hcarried, rfl⟩ := step_carries hc h
  have hbegun : (s.updateFrame d (beginCommand c)).frame d = beginCommand c (s.frame d) :=
    Interpreter.frame_modify_self (Nat.le_of_eq hnested.symm) _
  have hwork := (atWork_carryOut s.game d s c.instruction).of_ok (atWork_begun hactive hnested) hcarried
  obtain ⟨hcommands, -, htable⟩ := Frame.eq_of_course (hwork.stands d (Nat.le_refl d))
  have hmoved : (u.updateFrame d fun f => { f with index := next }).frame d =
      { u.frame d with index := next } := Interpreter.frame_modify_self hwork.depth _
  rw [hmoved]
  have hmoves : (s.frame d).PassesOpen { u.frame d with index := next } ∧ next = 0 ∨
      ¬(s.frame d).PassesOpen { u.frame d with index := next } ∧ (s.frame d).index < next := by
    rw [hstands.passesOpen_iff hc]
    by_cases hopen : c.instruction.Weighs ∧ LeftOpen l (s.frame d).place
    · obtain ⟨chosen, hchosen, rfl⟩ :=
        carryOut_open (length_nested_begun hnested c).ge hbegun hstands hopen.1 hopen.2 hcarried
      by_cases heq : chosen = (s.frame d).place
      · -- the branch is the chosen one, and the list goes on in it
        rw [if_pos heq]
        exact Or.inr ⟨fun hpasses => hpasses.2 (hchosen.trans (congrArg some heq)), by omega⟩
      · rw [if_neg heq]
        exact Or.inl ⟨⟨hopen, fun hsame => heq (Option.some.inj (hchosen.symm.trans hsame))⟩, rfl⟩
    · exact Or.inr ⟨fun hpasses => hopen hpasses.1, carryOut_forward hbegun hstands hc hopen hcarried⟩
  refine ⟨⟨hcommands.trans hstands.commands, htable.trans hstands.table, ?_⟩, hmoves⟩
  have hindex := hstands.index
  change 0 ≤ next
  rcases hmoves with ⟨-, hzero⟩ | ⟨-, hlt⟩ <;> omega

/-- A list without a next command ends. -/
theorem isRunning_of_step_none (hdepth : d ≤ s.interpreter.nested.length)
    (hc : (s.frame d).current? = none) (h : step d s = .ok () t) : (t.frame d).isRunning = false := by
  rw [step_of_end hc] at h
  cases h
  have hcut := Interpreter.frame_cut (Nat.le_refl d) (s.interpreter.modify Frame.terminate d)
  exact congrArg Frame.isRunning (hcut.trans (Interpreter.frame_modify_self hdepth Frame.terminate))

end Play

/-! ### Turns -/

namespace Session

/-- The position of the command that the list at a depth fetches next. -/
def upcoming? (s : Session) (d : Nat) : Option Nat := (s.frame d).current?.map fun _ => (s.frame d).place

namespace Turn

/-- The position at which the list at a depth fetches a command in a turn. -/
def fetched? (turn : Turn) (d : Nat) : Option Nat :=
  match turn.doing with
  | .command e => if e = d then turn.before.upcoming? d else none
  | _ => none

/-- A turn in which the list at a depth is being run: it has not ended before, it is not dropped, the player
arrives on no map, and a command of its own is accepted by what carries it out. -/
structure IsOfRun (turn : Turn) (d : Nat) : Prop where
  stays : turn.doing ≠ .arrived
  running : (turn.before.frame d).isRunning = true
  depth : d ≤ turn.after.interpreter.nested.length
  accepted : turn.doing = .command d → (Play.step d).succeeds turn.before = true

/-- The list at a depth passes a branch by that is left open. -/
def PassesOpen (turn : Turn) (d : Nat) : Prop :=
  turn.doing = .command d ∧ (turn.before.frame d).PassesOpen (turn.after.frame d)

end Turn

/-- The positions at which the list at a depth fetches commands, in order. -/
def fetches (d : Nat) (l : List Turn) : List Nat := l.filterMap (·.fetched? d)

variable {s t u v : Session} {d : Nat} {k : Doing} {l : List Turn} {list : List EventCommand}

theorem upcoming?_of_course (h : (t.frame d).course = (s.frame d).course) :
    t.upcoming? d = s.upcoming? d := by
  obtain ⟨hcurrent, hplace⟩ := Frame.current?_of_course h
  rw [upcoming?, upcoming?, hcurrent, hplace]

theorem upcoming?_of_ended (h : (s.frame d).isRunning = false) : s.upcoming? d = none := by
  rw [upcoming?, Frame.current?_of_ended h, Option.map_none]

theorem Turn.fetched?_of_ne {turn : Turn} (h : turn.doing ≠ .command d) : turn.fetched? d = none := by
  unfold Turn.fetched?
  split
  · next e hdoing =>
      refine if_neg fun heq => h ?_
      rw [hdoing, heq]
  · rfl

theorem Turn.fetched?_of_command {turn : Turn} (h : turn.doing = .command d) :
    turn.fetched? d = turn.before.upcoming? d := by
  unfold Turn.fetched?
  rw [h]
  exact if_pos rfl

theorem fetches_snoc (d : Nat) (l : List Turn) (turn : Turn) :
    fetches d (l ++ [turn]) = fetches d l ++ (turn.fetched? d).toList := by
  rw [fetches, List.filterMap_append]
  cases h : turn.fetched? d with
  | none => exact congrArg _ (List.filterMap_cons_none h)
  | some p => exact congrArg _ (List.filterMap_cons_some h)

/-- **The turns of others leave a list where it stands.** -/
theorem Turn.IsOfRun.keeps (h : Turn.IsOfRun ⟨s, k, t⟩ d) (hdoes : Does k s t)
    (hdepth : d ≤ s.interpreter.nested.length) (hk : k ≠ .command d) :
    (t.frame d).course = (s.frame d).course := by
  have hafter : d ≤ t.interpreter.nested.length := h.depth
  cases hdoes.restacks h.stays with
  | same hlists => exact congrArg (fun i => (i.frame d).course) hlists
  | command e hactive hinner =>
      obtain ⟨hbelow, -⟩ := Play.step_hasCalled hactive hinner
      have hne : e ≠ d := fun heq => hk (by rw [heq])
      exact congrArg Frame.course (hbelow d (by omega))
  | wait e hinner =>
      obtain ⟨-, hothers, hstands⟩ := Play.waits_stands e s
      by_cases heq : e = d
      · subst heq
        exact Frame.course_of_standing hstands
      · exact congrArg Frame.course (hothers d heq)
  | drop e _ =>
      have hlength := length_nested_dropCallee s e
      exact congrArg Frame.course (frame_dropCallee (by omega) s)
  | begin hended hnested =>
      -- only the outermost list begins anew, and not while it is run
      have hzero : d = 0 := by
        rw [hnested] at hafter
        exact Nat.le_zero.1 hafter
      subst hzero
      have hrunning := h.running
      rw [show (s.frame 0).isRunning = false from hended] at hrunning
      cases hrunning

/-! ### Runs -/

/-- Positions that increase go on increasing with a greater one. -/
theorem pairwise_append_toList {xs : List Nat} {p : Nat} {next : Option Nat} (h : ∀ q ∈ next, p < q) :
    ((xs ++ [p]) ++ next.toList).Pairwise (· < ·) ↔ (xs ++ [p]).Pairwise (· < ·) := by
  refine ⟨fun hall => (List.pairwise_append.1 hall).1, fun hxs => ?_⟩
  cases next with
  | none => simpa using hxs
  | some q =>
      have hpq : p < q := h q rfl
      refine List.pairwise_append.2 ⟨hxs, List.pairwise_singleton _ _, ?_⟩
      intro a ha b hb
      cases List.mem_singleton.1 hb
      rcases List.mem_append.1 ha with ha | ha
      · exact Nat.lt_trans ((List.pairwise_append.1 hxs).2.2 a ha p (List.mem_singleton_self p)) hpq
      · cases List.mem_singleton.1 ha
        exact hpq

/-- How the run of a list stands after a course: where its commands were fetched so far. -/
structure RunOf (t : Session) (list : List EventCommand) (d : Nat) (l : List Turn) (u : Session) : Prop where
  depth : d ≤ u.interpreter.nested.length
  stands : (u.frame d).isRunning = true → (u.frame d).Stands list
  first : u.upcoming? d ≠ none → t.upcoming? d ≠ none
  opens : ∀ turn ∈ l, turn.PassesOpen d → ∃ i, LeftOpen list i
  increasing : (fetches d l ++ (u.upcoming? d).toList).Pairwise (· < ·) ↔ ∀ turn ∈ l, ¬turn.PassesOpen d

theorem runOf_start (hbegun : (t.frame d).HasBegun list) (hdepth : d ≤ t.interpreter.nested.length) :
    t.RunOf list d [] t where
  depth := hdepth
  stands _ := hbegun.stands
  first := id
  opens _ h := absurd h List.not_mem_nil
  increasing := by
    refine iff_of_true ?_ (fun _ h => absurd h List.not_mem_nil)
    rw [fetches, List.filterMap_nil, List.nil_append]
    cases t.upcoming? d with
    | none => exact .nil
    | some p => exact List.pairwise_singleton _ _

/-- A turn of others. -/
theorem RunOf.others (h : t.RunOf list d l u) (hdoes : Does k u v) (hrun : Turn.IsOfRun ⟨u, k, v⟩ d)
    (hk : k ≠ .command d) : t.RunOf list d (l ++ [⟨u, k, v⟩]) v := by
  have hcourse := hrun.keeps hdoes h.depth hk
  have hupcoming := upcoming?_of_course hcourse
  have hfetches : fetches d (l ++ [⟨u, k, v⟩]) = fetches d l := by
    rw [fetches_snoc, Turn.fetched?_of_ne hk, Option.toList_none, List.append_nil]
  refine ⟨hrun.depth, fun _ => (h.stands hrun.running).of_course hcourse, hupcoming ▸ h.first, ?_, ?_⟩
  · exact List.forall_mem_append.2 ⟨h.opens, List.forall_mem_singleton.2 fun hpasses => absurd hpasses.1 hk⟩
  · rw [hfetches, hupcoming, h.increasing]
    simp only [List.forall_mem_append, List.forall_mem_singleton]
    exact ⟨fun hall => ⟨hall, fun hpasses => hk hpasses.1⟩, fun hall => hall.1⟩

theorem fetches_command (d : Nat) (l : List Turn) (u w : Session) :
    fetches d (l ++ [⟨u, .command d, w⟩]) = fetches d l ++ (u.upcoming? d).toList := by
  rw [fetches_snoc, Turn.fetched?_of_command rfl]

theorem forall_not_passesOpen_command (d : Nat) (l : List Turn) (u w : Session) :
    (∀ turn ∈ l ++ [⟨u, .command d, w⟩], ¬turn.PassesOpen d) ↔
      (∀ turn ∈ l, ¬turn.PassesOpen d) ∧ ¬(u.frame d).PassesOpen (w.frame d) := by
  simp only [List.forall_mem_append, List.forall_mem_singleton]
  exact and_congr Iff.rfl (not_congr ⟨fun hpasses => hpasses.2, fun hpasses => ⟨rfl, hpasses⟩⟩)

theorem RunOf.opens_command (h : t.RunOf list d l u) (hstands : (u.frame d).Stands list) (w : Session) :
    ∀ turn ∈ l ++ [⟨u, .command d, w⟩], turn.PassesOpen d → ∃ i, LeftOpen list i := by
  refine List.forall_mem_append.2 ⟨h.opens, List.forall_mem_singleton.2 ?_⟩
  rintro ⟨-, _, -, -, hopen, -⟩
  exact ⟨_, hstands.list ▸ hopen⟩

/-- A turn in which the list ends. -/
theorem RunOf.ends (h : t.RunOf list d l u) (hrun : Turn.IsOfRun ⟨u, .command d, v⟩ d)
    (hc : (u.frame d).current? = none) (hended : (v.frame d).isRunning = false) :
    t.RunOf list d (l ++ [⟨u, .command d, v⟩]) v := by
  have hnone : u.upcoming? d = none := by rw [upcoming?, hc, Option.map_none]
  have hdone := upcoming?_of_ended hended
  have hincreasing := h.increasing
  refine ⟨hrun.depth, fun hrunning => ?_, fun hsome => absurd hdone hsome,
    h.opens_command (h.stands hrun.running) v, ?_⟩
  · rw [hended] at hrunning
    cases hrunning
  · rw [hnone, Option.toList_none, List.append_nil] at hincreasing
    rw [fetches_command, forall_not_passesOpen_command, hnone, hdone, Option.toList_none, List.append_nil,
      List.append_nil, ← hincreasing]
    refine ⟨fun hall => ⟨hall, ?_⟩, fun hall => hall.1⟩
    rintro ⟨c, hc', -⟩
    rw [hc] at hc'
    cases hc'

/-- A turn in which the list moves, forward or back to the start. -/
theorem RunOf.moves (hbegun : (t.frame d).HasBegun list) (h : t.RunOf list d l u)
    (hrun : Turn.IsOfRun ⟨u, .command d, v⟩ d) {c : EventCommand} (hc : (u.frame d).current? = some c)
    (hstands : (v.frame d).Stands list)
    (hmoves : (u.frame d).PassesOpen (v.frame d) ∧ (v.frame d).index = 0 ∨
      ¬(u.frame d).PassesOpen (v.frame d) ∧ (u.frame d).index < (v.frame d).index) :
    t.RunOf list d (l ++ [⟨u, .command d, v⟩]) v := by
  have hbefore := h.stands hrun.running
  have hsome : u.upcoming? d = some (u.frame d).place := by rw [upcoming?, hc, Option.map_some]
  have hfirst : t.upcoming? d ≠ none := h.first (by rw [hsome]; exact Option.some_ne_none _)
  have hincreasing := h.increasing
  rw [hsome, Option.toList_some] at hincreasing
  refine ⟨hrun.depth, fun _ => hstands, fun _ => hfirst, h.opens_command hbefore v, ?_⟩
  rw [fetches_command, forall_not_passesOpen_command, ← hincreasing, hsome, Option.toList_some]
  rcases hmoves with ⟨hpasses, hzero⟩ | ⟨hnot, hlt⟩
  · -- the list stands at its start again, where its first command has been fetched before
    refine iff_of_false (fun hall => ?_) (fun hall => hall.2 hpasses)
    have hcourse : (v.frame d).course = (t.frame d).course := by
      simp only [Frame.course, hstands.commands, hstands.table, hzero, hbegun.commands, hbegun.table,
        hbegun.index]
    obtain ⟨q, hq⟩ := Option.ne_none_iff_exists'.1 hfirst
    rw [upcoming?_of_course hcourse, hq, Option.toList_some] at hall
    have hlt : (u.frame d).place < q :=
      (List.pairwise_append.1 hall).2.2 _ (List.mem_append_right _ (List.mem_singleton_self _)) q
        (List.mem_singleton_self q)
    obtain ⟨_, -, rfl⟩ := Option.map_eq_some_iff.1 hq
    have hstart := hbegun.stands.place
    have hindex := hbegun.index
    omega
  · have hplace := hbefore.place
    have hplace' := hstands.place
    rw [pairwise_append_toList]
    · exact ⟨fun hall => ⟨hall, hnot⟩, fun hall => hall.1⟩
    · intro q hq
      obtain ⟨_, -, rfl⟩ := Option.map_eq_some_iff.1 hq
      omega

/-- A turn in which the list carries out a command, or ends. -/
theorem RunOf.command (hbegun : (t.frame d).HasBegun list) (h : t.RunOf list d l u)
    (hdoes : Does (.command d) u v) (hrun : Turn.IsOfRun ⟨u, .command d, v⟩ d) :
    t.RunOf list d (l ++ [⟨u, .command d, v⟩]) v := by
  obtain ⟨hactive, hnested, -, rfl⟩ := Does.command_iff.1 hdoes
  have hstep := Play.eq_ok_of_succeeds (hrun.accepted rfl)
  cases hc : (u.frame d).current? with
  | none => exact h.ends hrun hc (Play.isRunning_of_step_none h.depth hc hstep)
  | some c =>
      obtain ⟨hstands, hmoves⟩ := Play.step_moves hactive hnested (h.stands hrun.running) hc hstep
      exact h.moves hbegun hrun hc hstands hmoves

/-- A run of a list from its beginning, over any number of turns. -/
theorem Course.runOf (hbegun : (t.frame d).HasBegun list) (hdepth : d ≤ t.interpreter.nested.length)
    (h : t.Course l u) (hrun : ∀ turn ∈ l, turn.IsOfRun d) : t.RunOf list d l u := by
  induction h with
  | nil => exact runOf_start hbegun hdepth
  | @snoc u v l k _ hdoes ih =>
      obtain ⟨hbefore, hlast⟩ := List.forall_mem_append.1 hrun
      have hturn := List.forall_mem_singleton.1 hlast
      have hsofar := ih hbefore
      by_cases hk : k = .command d
      · subst hk
        exact hsofar.command hbegun hdoes hturn
      · exact hsofar.others hdoes hturn hk

/-- **No command of a run is fetched twice, exactly if no open branch is passed by.**  From the beginning of
a list on, the positions at which it fetched a command and that of the next one increase unless the list
passes a branch by that is left open; so do, once it has ended, all at which it fetched one.  A list that
leaves no branch open passes none. -/
theorem Course.fetches_increase_iff (hbegun : (t.frame d).HasBegun list)
    (hdepth : d ≤ t.interpreter.nested.length) (hcourse : t.Course l u)
    (hrun : ∀ turn ∈ l, turn.IsOfRun d) :
    ((fetches d l ++ (u.upcoming? d).toList).Pairwise (· < ·) ↔ ∀ turn ∈ l, ¬turn.PassesOpen d) ∧
      ((u.frame d).isRunning = false →
        ((fetches d l).Pairwise (· < ·) ↔ ∀ turn ∈ l, ¬turn.PassesOpen d)) ∧
      ((∀ i, ¬LeftOpen list i) → ∀ turn ∈ l, ¬turn.PassesOpen d) := by
  have hrunof := hcourse.runOf hbegun hdepth hrun
  refine ⟨hrunof.increasing, fun hended => ?_, fun hnone turn hturn hpasses => ?_⟩
  · have hincreasing := hrunof.increasing
    rwa [upcoming?_of_ended hended, Option.toList_none, List.append_nil] at hincreasing
  · obtain ⟨i, hopen⟩ := hrunof.opens turn hturn hpasses
    exact hnone i hopen

/-! ### A choice around a wait -/

/-- A random choice between two branches, of which the first waits for a frame and the second does nothing,
and which no command closes. -/
def choiceAround (indent : Int) : Json :=
  .arr [Program.commandAt indent 357 (Program.weightParams (.str "1")),
    Program.commandAt indent 230 (.arr [.int 1]),
    Program.commandAt indent 357 (Program.weightParams (.str "1"))]

/-- Its commands. -/
def choiceAroundCommands (indent : Int) : List EventCommand :=
  [Program.weightAt indent (.str "1"), { indent, instruction := .wait 1 },
    Program.weightAt indent (.str "1")]

/-- A game where the choice has begun. -/
def atChoice (indent : Int) : Session :=
  { (Play.setupInterpreter (choiceAround indent) 0).after (Session.begin {} {}) with active := some 0 }

/-- The first branch waits. -/
def inFirst (indent : Int) : Session := (Play.step 0).after ((Play.step 0).after (atChoice indent))

/-- It has waited, and the list is about to come to the second. -/
def atSecond (indent : Int) : Session := (Play.waits 0).after (inFirst indent)

/-- The list has passed the second branch by. -/
def pastSecond (indent : Int) : Session := (Play.step 0).after (atSecond indent)

theorem hasBegun_atChoice (indent : Int) :
    ((atChoice indent).frame 0).HasBegun (choiceAroundCommands indent) := by
  have hread : (readList (choiceAround indent)).result = .ok (choiceAroundCommands indent) :=
    Program.Reads.cons (Program.read_weight indent (.str "1"))
      (.cons (Program.read_commandAt indent 230 (.arr [.int 1]) (by decide))
        (.cons (Program.read_weight indent (.str "1")) .nil))
  exact Play.hasBegun_setupInterpreter hread 0 _

/-- The outermost list is the innermost one, and is about to carry out a command. -/
def IsAtCommand (s : Session) : Prop :=
  s.active = some 0 ∧ s.interpreter.nested.length = 0 ∧ (s.frame 0).awaited = none ∧
    (s.frame 0).isRunning = true ∧ (Play.step 0).succeeds s = true

instance (s : Session) : Decidable s.IsAtCommand := inferInstanceAs (Decidable (_ ∧ _))

theorem IsAtCommand.does (h : s.IsAtCommand) : Does (.command 0) s ((Play.step 0).after s) :=
  .command 0 h.1 h.2.1 h.2.2.1

theorem IsAtCommand.isOfRun (h : s.IsAtCommand) : Turn.IsOfRun ⟨s, .command 0, t⟩ 0 :=
  ⟨nofun, h.2.2.2.1, Nat.zero_le _, fun _ => h.2.2.2.2⟩

/-- Three commands are fetched, and then a fourth if there is one. -/
theorem course_atChoice {indent : Int} (h : indent = 0 ∨ indent = -1) :
    ∃ l, (atChoice indent).Course l ((Play.step 0).after (pastSecond indent)) ∧
      (∀ turn ∈ l, turn.IsOfRun 0) ∧
      fetches 0 l = if indent = 0 then [0, 1, 2] else [0, 1, 2, 0] := by
  have hcommands : (atChoice indent).IsAtCommand ∧ ((Play.step 0).after (atChoice indent)).IsAtCommand ∧
      (atSecond indent).IsAtCommand ∧ (pastSecond indent).IsAtCommand := by
    rcases h with rfl | rfl <;> decide +kernel
  have hwait : (inFirst indent).interpreter.nested.length = 0 ∧
      ((inFirst indent).frame 0).isRunning = true := by
    rcases h with rfl | rfl <;> decide +kernel
  obtain ⟨hfirst, hinner, hsecond, hlast⟩ := hcommands
  refine ⟨_, .snoc (.snoc (.snoc (.snoc (.snoc (.nil _) hfirst.does) hinner.does) (.wait 0 hwait.1))
    hsecond.does) hlast.does, ?isOfRun, ?fetches⟩
  case isOfRun =>
    refine List.forall_mem_append.2 ⟨List.forall_mem_append.2 ⟨List.forall_mem_append.2
      ⟨List.forall_mem_append.2 ⟨List.forall_mem_append.2 ⟨List.forall_mem_nil _, ?_⟩, ?_⟩, ?_⟩, ?_⟩, ?_⟩
    · exact List.forall_mem_singleton.2 hfirst.isOfRun
    · exact List.forall_mem_singleton.2 hinner.isOfRun
    · exact List.forall_mem_singleton.2 ⟨nofun, hwait.2, Nat.zero_le _, nofun⟩
    · exact List.forall_mem_singleton.2 hsecond.isOfRun
    · exact List.forall_mem_singleton.2 hlast.isOfRun
  case fetches =>
    rcases h with rfl | rfl <;> decide +kernel

/-- A choice that is not indented below zero fetches every command once. -/
theorem fetches_increase_atChoice : ∃ l u, (atChoice 0).Course l u ∧ (∀ turn ∈ l, turn.IsOfRun 0) ∧
    fetches 0 l = [0, 1, 2] ∧ (∀ turn ∈ l, ¬turn.PassesOpen 0) ∧
      (fetches 0 l ++ (u.upcoming? 0).toList).Pairwise (· < ·) := by
  obtain ⟨l, hcourse, hrun, hfetches⟩ := course_atChoice (Or.inl rfl)
  obtain ⟨hincrease, -, hnone⟩ :=
    Course.fetches_increase_iff (hasBegun_atChoice 0) (Nat.zero_le _) hcourse hrun
  have hpasses := hnone fun i => not_leftOpen (by simp [choiceAroundCommands, Program.weightAt])
  exact ⟨l, _, hcourse, hrun, hfetches, hpasses, hincrease.2 hpasses⟩

/-- One that is begins anew when it comes to the second branch, and fetches its first command again. -/
theorem fetches_again_atChoice : ((atChoice (-1)).frame 0).HasBegun (choiceAroundCommands (-1)) ∧
    ∃ l u, (atChoice (-1)).Course l u ∧ (∀ turn ∈ l, turn.IsOfRun 0) ∧ fetches 0 l = [0, 1, 2, 0] ∧
      ¬(fetches 0 l).Pairwise (· < ·) := by
  obtain ⟨l, hcourse, hrun, hfetches⟩ := course_atChoice (Or.inr rfl)
  exact ⟨hasBegun_atChoice (-1), l, _, hcourse, hrun, hfetches, by rw [hfetches]; decide⟩

end Session

end EventLayer
