/-
**Two routes side by side.**

A route and the same route without its stray markers are gone through side by side, from sessions
that differ in the places of the characters alone.  A line that both have does the same in both, and
leads to the same line: where a line leads depends on the stack of branches before and after it, and
on nothing else.  A stray closing marker is passed without a change.  A stray alternative leaves the
route: outside every chain the stack says that a branch has been taken, and a marker without a chain
leads to the end.

Main definitions:

* `Way`, `Leads`, `Play.LeadsOn` — where a line leads, from the stack of branches before and after
  it;
* `Route.cut` — the first stray alternative;
* `InStep` — two characters at the same line of the two routes.

Main results:

* `Play.leads_runLine` — a line leads on as the stack tells;
* `Play.runLine_stray` — what stray markers do;
* `InStep.passStray`, `InStep.leaveStray`, `InStep.runBoth` — one line;
* `InStep.strides` — **the lines of a frame up to where it stops**.
-/
import EventLayer.Proofs.Route.Placeless
import EventLayer.Proofs.Route.Renumbering

set_option autoImplicit false
set_option relaxedAutoImplicit false

namespace EventLayer

open Pairing (kindAt depth Belongs Stray IsNext IsEnd OpenAt Kept rank)

/-! ### Where lines lead -/

/-- Where a line leads. -/
inductive Way where
  /-- To the line that follows. -/
  | onward
  /-- To the next marker of the chain. -/
  | skip
  /-- To the end of the chain. -/
  | leave
deriving DecidableEq

/-- The position that a line leads to. -/
def Way.target (r : Route) (i : Nat) : Way → Nat
  | .onward => i + 1
  | .skip => r.failTarget i
  | .leave => r.leaveTarget i

/-- What a line does to the stack of branches, and where it leads. -/
inductive Leads : RouteInstruction → List Bool → List Bool → Way → Prop
  | plain {line : RouteInstruction} (bs : List Bool) (h : line.marker? = none) :
      Leads line bs bs .onward
  | enter (c : RouteCondition) (bs : List Bool) : Leads (.openIf c) bs (true :: bs) .onward
  | refuse (c : RouteCondition) (bs : List Bool) : Leads (.openIf c) bs (false :: bs) .skip
  | leave (c : Option RouteCondition) {bs : List Bool} (h : bs.headD true = true) :
      Leads (.orElse c) bs bs .leave
  | turn (c : Option RouteCondition) (bs : List Bool) :
      Leads (.orElse c) (false :: bs) (true :: bs) .onward
  | pass (c : Option RouteCondition) (bs : List Bool) :
      Leads (.orElse c) (false :: bs) (false :: bs) .skip
  | close {bs : List Bool} (h : 1 < bs.length) : Leads .endIf bs bs.tail .onward
  | keep {bs : List Bool} (h : bs.length ≤ 1) : Leads .endIf bs bs .onward

/-- Only a marker that opens or continues a chain leads elsewhere than onward. -/
theorem Leads.eq_onward {line : RouteInstruction} {bs bs' : List Bool} {w : Way}
    (h : Leads line bs bs' w) (ho : line.marker? ≠ some .opening)
    (ha : line.marker? ≠ some .alternative) : w = .onward := by
  cases h <;> first | rfl | exact absurd rfl ho | exact absurd rfl ha

/-- The stack before and after a line says where the line leads. -/
theorem Leads.unique {line : RouteInstruction} {bs bs' : List Bool} {w w' : Way}
    (h : Leads line bs bs' w) (h' : Leads line bs bs' w') : w = w' := by
  cases h with
  | plain _ hk => exact (h'.eq_onward (by simp [hk]) (by simp [hk])).symm
  | enter c =>
      cases h' with
      | enter => rfl
  | refuse c =>
      cases h' with
      | refuse => rfl
  | leave c hb =>
      cases h' with
      | leave => rfl
      | pass => cases hb
      | plain _ hk => cases hk
  | turn c =>
      cases h' with
      | turn => rfl
  | pass c =>
      cases h' with
      | pass => rfl
      | leave _ hb => cases hb
      | plain _ hk => cases hk
  | close hb => exact (h'.eq_onward nofun nofun).symm
  | keep hb => exact (h'.eq_onward nofun nofun).symm

namespace Play

open Session

variable {who : CharacterId} {r : Route} {s t : Session} {c : Course} {line : RouteInstruction}
  {next : Nat}

/-- A line that is carried out can be carried out on record. -/
theorem exists_recordedLine {i : Nat} (run : runLine who r i line s = .ok next t) :
    ∃ deeds, recordedLine who r i line s = .ok (deeds, next) t := by
  rw [runLine_eq, map_apply] at run
  cases hr : recordedLine who r i line s with
  | error e u =>
      rw [hr] at run
      cases run
  | ok found u =>
      rw [hr] at run
      cases run
      exact ⟨found.1, rfl⟩

/-- A line leads somewhere as the stack of branches before and after it tells. -/
def LeadsOn (who : CharacterId) (r : Route) (c : Course) (line : RouteInstruction) (next : Nat)
    (t : Session) : Prop :=
  ∃ bs w, t.course? who = some { c with branches := bs } ∧ Leads line c.branches bs w ∧
    next = w.target r c.index

theorem leads_openIf {cond : RouteCondition} (h : s.course? who = some c)
    (run : runLine who r c.index (.openIf cond) s = .ok next t) :
    LeadsOn who r c (.openIf cond) next t := by
  obtain ⟨deeds, hrecorded⟩ := exists_recordedLine run
  obtain ⟨answer, -, hcourse, hnext⟩ := recordedLine_openIf h hrecorded
  cases answer with
  | true => exact ⟨_, _, hcourse, .enter cond _, hnext⟩
  | false => exact ⟨_, _, hcourse, .refuse cond _, hnext⟩

/-- The marker of an alternative; with no chain open it leads to the end as if a branch had been
taken. -/
theorem leads_orElse {cond : Option RouteCondition} (h : s.course? who = some c)
    (run : runLine who r c.index (.orElse cond) s = .ok next t) :
    LeadsOn who r c (.orElse cond) next t := by
  obtain ⟨deeds, hrecorded⟩ := exists_recordedLine run
  cases hb : c.branches with
  | nil =>
      have htaken : (s.character who).branches.headD true = true := by
        rw [branches_character h, hb]
        rfl
      rw [runLine, nextBranch, get_bind_apply] at run
      simp only [if_pos htaken] at run
      cases run
      exact ⟨_, .leave, h, .leave cond (by rw [hb]; rfl), rfl⟩
  | cons b bs =>
      cases b with
      | true =>
          obtain ⟨-, hnext, rfl⟩ := recordedLine_orElse_taken h hb hrecorded
          exact ⟨_, .leave, h, .leave cond (by rw [hb]; rfl), hnext⟩
      | false =>
          cases cond with
          | none =>
              obtain ⟨-, hnext, hcourse⟩ := recordedLine_orElse_none h hb hrecorded
              exact ⟨_, .onward, hcourse, by rw [hb]; exact .turn none bs, hnext⟩
          | some cond =>
              obtain ⟨answer, -, hcourse, hnext⟩ := recordedLine_orElse_some h hb hrecorded
              cases answer with
              | true => exact ⟨_, .onward, hcourse, by rw [hb]; exact .turn _ bs, hnext⟩
              | false => exact ⟨_, .skip, hcourse, by rw [hb]; exact .pass _ bs, hnext⟩

/-- The closing marker; with no chain open it leaves the stack as it is. -/
theorem leads_endIf (h : s.course? who = some c) (run : runLine who r c.index .endIf s = .ok next t) :
    LeadsOn who r c .endIf next t := by
  by_cases hopen : 1 < c.branches.length
  · obtain ⟨deeds, hrecorded⟩ := exists_recordedLine run
    obtain ⟨b, bs, hb⟩ : ∃ b bs, c.branches = b :: bs :=
      List.exists_cons_of_length_pos (by omega)
    have hne : bs ≠ [] := by
      rintro rfl
      rw [hb] at hopen
      exact absurd hopen (lt_irrefl 1)
    obtain ⟨-, hnext, hcourse⟩ := recordedLine_endIf h hb hne hrecorded
    exact ⟨bs, .onward, hcourse, hb ▸ .close (hb ▸ hopen), hnext⟩
  · have hclosed : ¬1 < (s.character who).branches.length := by rwa [branches_character h]
    rw [runLine, closeBranch, get_bind_apply] at run
    simp only [if_neg hclosed] at run
    cases run
    exact ⟨_, .onward, h, .keep (by omega), rfl⟩

/-- **Where a line of a route leads** is told by the stack of branches before and after it. -/
theorem leads_runLine (h : s.course? who = some c) (run : runLine who r c.index line s = .ok next t) :
    LeadsOn who r c line next t := by
  cases line with
  | openIf cond => exact leads_openIf h run
  | orElse cond => exact leads_orElse h run
  | endIf => exact leads_endIf h run
  | _ =>
      obtain ⟨hnext, hcourse⟩ := runLine_plain rfl run
      exact ⟨_, .onward, by rw [hcourse, h], .plain _ rfl, hnext⟩

/-- **What a marker does where no chain is open**: a closing one leaves a notice and leads onward,
and an alternative leads to where its chain ends. -/
theorem runLine_stray (hb : (s.character who).branches = [true]) {kind : MarkerKind}
    (hk : line.marker? = some kind) (hne : kind ≠ .opening) (i : Nat) :
    ∃ notices, runLine who r i line s =
      .ok (if kind = .closing then i + 1 else r.leaveTarget i) { s with notices } := by
  cases line with
  | openIf cond =>
      cases hk
      exact absurd rfl hne
  | orElse cond =>
      cases hk
      have htaken : (s.character who).branches.headD true = true := by rw [hb]; rfl
      rw [runLine, nextBranch, get_bind_apply]
      simp only [if_pos htaken]
      exact ⟨s.notices, rfl⟩
  | endIf =>
      cases hk
      have hclosed : ¬1 < (s.character who).branches.length := by rw [hb]; decide
      rw [runLine, closeBranch, get_bind_apply]
      simp only [if_neg hclosed]
      exact ⟨_, rfl⟩
  | _ => cases hk

end Play

/-! ### The number of open chains where a line leads -/

namespace Pairing

variable {kinds : List (Option MarkerKind)} {o i j e : Nat}

/-- Behind a marker of a chain that does not close it, the chain is the innermost one. -/
theorem Belongs.depth_succ (h : Belongs kinds o i) (hi : kindAt kinds i ≠ some .closing) :
    depth kinds (i + 1) = depth kinds o + 1 := by
  rcases h with ⟨hk, rfl⟩ | ⟨hk, hin⟩
  · exact depth_succ_opening hk
  · rw [depth_succ_alternative (hk.resolve_right hi)]
    exact (innermost_iff.1 hin).2

/-- Before a marker of a chain that does not open it, the chain is the innermost one. -/
theorem Belongs.depth_eq (h : Belongs kinds o i) (hne : o ≠ i) : depth kinds i = depth kinds o + 1 :=
  (innermost_iff.1 (h.innermost hne)).2

theorem IsNext.depth_eq (h : IsNext kinds i j) : depth kinds j = depth kinds (i + 1) := by
  obtain ⟨o, hi, hj, hlt, -⟩ := h
  have hle := hi.le
  have hopen : kindAt kinds i ≠ some .closing := fun hc =>
    not_openAt_of_closing hi hc hlt (hj.innermost (by omega)).1
  rw [hi.depth_succ hopen, hj.depth_eq (by omega)]

theorem IsEnd.depth_eq (h : IsEnd kinds i e) (hi : kindAt kinds i ≠ some .closing) :
    e = kinds.length ∨ depth kinds e = depth kinds (i + 1) := by
  have hlt := (h.lt hi).1
  obtain ⟨o, ho, ⟨he, -⟩ | ⟨heq, -⟩⟩ := h
  · have := ho.le
    rw [ho.depth_succ hi, he.depth_eq (by omega)]
    exact .inr rfl
  · exact .inl heq

end Pairing

namespace Route

variable {r : Route} {i c : Nat} {kind : MarkerKind}

/-- The first alternative outside every chain, or the end of the route. -/
def cut (r : Route) : Nat :=
  ((List.range r.length).find? fun i =>
    decide (kindAt r.kinds i = some .alternative ∧ Stray r.kinds i)).getD r.length

theorem cut_le_length (r : Route) : r.cut ≤ r.length := by
  rw [cut]
  cases h : (List.range r.length).find? fun i =>
      decide (kindAt r.kinds i = some .alternative ∧ Stray r.kinds i) with
  | none => exact le_rfl
  | some c => exact (List.mem_range.1 (List.mem_of_find?_eq_some h)).le

/-- The cut is an alternative outside every chain. -/
theorem stray_cut (h : r.cut < r.length) :
    kindAt r.kinds r.cut = some .alternative ∧ Stray r.kinds r.cut := by
  rw [cut] at h ⊢
  cases hf : (List.range r.length).find? fun i =>
      decide (kindAt r.kinds i = some .alternative ∧ Stray r.kinds i) with
  | none =>
      rw [hf] at h
      exact absurd h (lt_irrefl _)
  | some c => simpa using List.find?_some hf

/-- There is no alternative outside every chain before the cut. -/
theorem cut_le_of_stray (hk : kindAt r.kinds i = some .alternative) (h : Stray r.kinds i) :
    r.cut ≤ i := by
  have hlt : i < r.length := r.length_kinds ▸ Pairing.lt_length_of_kindAt hk
  rw [cut]
  cases hf : (List.range r.length).find? fun i =>
      decide (kindAt r.kinds i = some .alternative ∧ Stray r.kinds i) with
  | none =>
      have := List.find?_eq_none.1 hf i (List.mem_range.2 hlt)
      simp [hk, h] at this
  | some c =>
      obtain ⟨-, -, hfirst⟩ := List.find?_range_eq_some.1 hf
      by_contra hic
      have := hfirst i (not_le.1 hic)
      simp [hk, h] at this

namespace Paired

/-- The end of a chain, as far as the number of open chains goes. -/
theorem leaveTarget_depth (hr : r.Paired) (hk : kindAt r.kinds i = some kind) (hne : kind ≠ .closing) :
    r.leaveTarget i = r.length ∨ depth r.kinds (r.leaveTarget i) = depth r.kinds (i + 1) := by
  rw [Route.leaveTarget]
  cases he : r.pairing.ends.lookup i with
  | none => exact .inl rfl
  | some e =>
      rw [← r.length_kinds]
      exact (hr.ends_iff.1 he).depth_eq (by simpa [hk] using hne)

theorem failTarget_depth (hr : r.Paired) (hk : kindAt r.kinds i = some kind) (hne : kind ≠ .closing) :
    r.failTarget i = r.length ∨ depth r.kinds (r.failTarget i) = depth r.kinds (i + 1) := by
  rw [Route.failTarget]
  cases hn : r.pairing.next.lookup i with
  | none => exact hr.leaveTarget_depth hk hne
  | some j => exact .inr (hr.next_iff.1 hn).depth_eq

/-- Outside every chain a marker leads to the end of the route. -/
theorem leaveTarget_stray (hr : r.Paired) (h : Stray r.kinds i) : r.leaveTarget i = r.length := by
  rw [Route.leaveTarget]
  cases he : r.pairing.ends.lookup i with
  | none => rfl
  | some e =>
      obtain ⟨o, ho, -⟩ := hr.ends_iff.1 he
      exact absurd ho h.not_belongs

/-- A chain that began before the cut ends before it, or is the last one of the route. -/
theorem leaveTarget_le_cut (hr : r.Paired) {o : Nat} (ho : Belongs r.kinds o i) (hi : i < r.cut)
    (hne : kindAt r.kinds i ≠ some .closing) : r.leaveTarget i ≤ r.cut := by
  obtain ⟨e, hend⟩ := Pairing.exists_isEnd ho
  have htarget : r.leaveTarget i = e := by
    rw [Route.leaveTarget, hr.ends_iff.2 hend]
    rfl
  rw [htarget]
  by_contra hlt
  have hle := (hend.lt hne).2
  rw [r.length_kinds] at hle
  exact (stray_cut (by omega)).2.2 o (hend.openAt ho hi (by omega))

theorem failTarget_le_cut (hr : r.Paired) {o : Nat} (ho : Belongs r.kinds o i) (hi : i < r.cut)
    (hne : kindAt r.kinds i ≠ some .closing) : r.failTarget i ≤ r.cut := by
  rw [Route.failTarget]
  cases hn : r.pairing.next.lookup i with
  | none => exact hr.leaveTarget_le_cut ho hi hne
  | some j =>
      change j ≤ r.cut
      have hnext := hr.next_iff.1 hn
      have hlt := hnext.lt
      obtain ⟨o', ho', hj, -, -⟩ := hnext
      by_contra hcut
      rw [r.length_kinds] at hlt
      exact (stray_cut (by omega)).2.2 o' (ho'.openAt hj hi (by omega))

end Paired

end Route

/-! ### Two characters in step -/

/-- The line that a part of a way begins with. -/
def Visit.place? : Visit → Option Nat
  | .line i _ => some i
  | .again => none

namespace Route

/-- The commands of a route other than markers, and other than the end of the route. -/
def takes (r : Route) (i : Nat) : Bool :=
  match r.steps[i]? with
  | some (.move _) => true
  | some (.script line) => line.marker?.isNone
  | _ => false

/-- The commands among the lines of a way. -/
def taken (r : Route) (l : List Visit) : List Nat := (l.filterMap Visit.place?).filter r.takes

/-- A command that is taken is no marker, and is on the route. -/
theorem kindAt_of_takes {r : Route} {i : Nat} (h : r.takes i = true) :
    kindAt r.kinds i = none ∧ i < r.length := by
  rw [takes] at h
  cases hline : r.steps[i]? with
  | none => rw [hline] at h; cases h
  | some step =>
      rw [hline] at h
      refine ⟨?_, (List.getElem?_eq_some_iff.1 hline).1⟩
      rw [kindAt_kinds hline]
      cases step with
      | move m => rfl
      | script line => exact Option.isNone_iff_eq_none.1 h
      | finish => cases h

theorem kept_of_takes {r : Route} {i : Nat} (h : r.takes i = true) : Kept r.kinds i := by
  have hk := (kindAt_of_takes h).1
  exact Pairing.kept_of_kindAt (by simp [hk]) (by simp [hk])

theorem taken_cons_line {r : Route} {i next : Nat} {l : List Visit} :
    r.taken (.line i next :: l) = if r.takes i then i :: r.taken l else r.taken l := by
  simp only [taken, List.filterMap_cons, Visit.place?, List.filter_cons]

theorem taken_append (r : Route) (l l' : List Visit) : r.taken (l ++ l') = r.taken l ++ r.taken l' := by
  rw [taken, List.filterMap_append, List.filter_append, taken, taken]

end Route

namespace Play

open Session

theorem twin_goTo (who : CharacterId) (next : Nat) (s : Session) : (goTo who next s).Twin s :=
  twin_updateCharacter (f := fun c => { c with routeIndex := next }) who s fun _ => rfl

/-- The character is on a route. -/
def On (who : CharacterId) (r : Route) (s : Session) : Prop := ∃ c, StandsOn who r c s

end Play

open Play Session

/-- A character at a line of a route, and at the same line of the route without its stray markers, in
sessions that differ in their places alone.  The stack of branches has an entry for each open chain,
and one for the route itself. -/
structure InStep (who : CharacterId) (r r' : Route) (s t : Session) : Prop where
  on : On who r s
  on' : On who r' t
  twin : s.Twin t
  same : place who t = rank r.kinds (place who s)
  before : place who s ≤ r.cut
  stack : place who s < r.length → ∃ l, (s.character who).branches = l ++ [true] ∧
    l.length = depth r.kinds (place who s)

namespace InStep

variable {who : CharacterId} {r r' : Route} {s t u v : Session} {line : RouteInstruction} {next : Nat}

theorem branches_stray (h : InStep who r r' s t) (hs : Stray r.kinds (place who s)) :
    (s.character who).branches = [true] := by
  have hlt : place who s < r.length := by
    rw [← r.length_kinds]
    rcases hs.1 with hk | hk <;> exact Pairing.lt_length_of_kindAt hk
  obtain ⟨l, hl, hlength⟩ := h.stack hlt
  rw [(Pairing.stray_iff_depth.1 hs).2, List.length_eq_zero_iff] at hlength
  rw [hl, hlength, List.nil_append]

/-- The stack behind a line, if the line leads to an open chain as deep as there are entries. -/
theorem stack_of_leads (hr : r.Paired) {i : Nat} {bs bs' l : List Bool} {w : Way}
    (hline : r.steps[i]? = some (.script line)) (hkept : Kept r.kinds i)
    (hw : Leads line bs bs' w) (hl : bs = l ++ [true]) (hlength : l.length = depth r.kinds i)
    (hin : w.target r i < r.length) :
    ∃ l', bs' = l' ++ [true] ∧ l'.length = depth r.kinds (w.target r i) := by
  have hkind := Route.kindAt_kinds hline
  -- an alternative of a chain stands where the chain is open
  have hopen : kindAt r.kinds i = some .alternative → ∃ b l', l = b :: l' := fun hk => by
    refine List.exists_cons_of_length_pos (Nat.pos_of_ne_zero fun h0 => hkept ?_)
    exact Pairing.stray_iff_depth.2 ⟨.inl hk, hlength ▸ h0⟩
  cases hw with
  | plain _ hplain =>
      refine ⟨l, hl, ?_⟩
      rw [hlength, Way.target, Pairing.depth_succ_none (hkind.trans hplain)]
  | enter c =>
      refine ⟨true :: l, by rw [hl, List.cons_append], ?_⟩
      rw [List.length_cons, hlength, Way.target, Pairing.depth_succ_opening hkind]
  | refuse c =>
      refine ⟨false :: l, by rw [hl, List.cons_append], ?_⟩
      rw [List.length_cons, hlength, ← Pairing.depth_succ_opening hkind]
      exact ((hr.failTarget_depth hkind nofun).resolve_left hin.ne).symm
  | leave c hb =>
      refine ⟨l, hl, ?_⟩
      rw [hlength, ← Pairing.depth_succ_alternative hkind]
      exact ((hr.leaveTarget_depth hkind nofun).resolve_left hin.ne).symm
  | turn c rest =>
      obtain ⟨b, l', rfl⟩ := hopen hkind
      cases hl
      exact ⟨true :: l', rfl, by rw [Way.target, Pairing.depth_succ_alternative hkind, ← hlength]; rfl⟩
  | pass c rest =>
      obtain ⟨b, l', rfl⟩ := hopen hkind
      refine ⟨b :: l', hl, ?_⟩
      rw [hlength, ← Pairing.depth_succ_alternative hkind]
      exact ((hr.failTarget_depth hkind nofun).resolve_left hin.ne).symm
  | close hlen =>
      cases l with
      | nil =>
          rw [hl] at hlen
          exact absurd hlen (lt_irrefl 1)
      | cons b l =>
          refine ⟨l, by rw [hl]; rfl, ?_⟩
          rw [Way.target, Pairing.depth_succ_closing hkind, ← hlength]
          rfl
  | keep hlen =>
      have hnil : l = [] := by
        rw [hl, List.length_append] at hlen
        exact List.length_eq_zero_iff.1 (by simpa using hlen)
      refine ⟨l, hl, ?_⟩
      rw [Way.target, Pairing.depth_succ_closing hkind, ← hlength, hnil]
      rfl

/-- A line before the cut leads to the cut at most, unless it is a stray alternative. -/
theorem target_le_cut (hr : r.Paired) {i : Nat} {bs bs' : List Bool} {w : Way}
    (hline : r.steps[i]? = some (.script line)) (hkept : Kept r.kinds i) (hw : Leads line bs bs' w)
    (hi : i ≤ r.cut) : w.target r i ≤ r.cut := by
  have hkind := Route.kindAt_kinds hline
  have hlt : i < r.cut := by
    refine lt_of_le_of_ne hi fun heq => hkept ?_
    have hin : i < r.length := (List.getElem?_eq_some_iff.1 hline).1
    exact heq ▸ (Route.stray_cut (heq ▸ hin)).2
  have hchain : ∀ kind, kindAt r.kinds i = some kind → ∃ o, Belongs r.kinds o i := fun kind hk =>
    (Pairing.belongs_or_stray hk).resolve_right hkept
  cases hw with
  | refuse c =>
      obtain ⟨o, ho⟩ := hchain _ hkind
      exact hr.failTarget_le_cut ho hlt (by rw [hkind]; nofun)
  | leave c hb =>
      obtain ⟨o, ho⟩ := hchain _ hkind
      exact hr.leaveTarget_le_cut ho hlt (by rw [hkind]; nofun)
  | pass c rest =>
      obtain ⟨o, ho⟩ := hchain _ hkind
      exact hr.failTarget_le_cut ho hlt (by rw [hkind]; nofun)
  | _ => exact hlt

/-- The same way in the route without its stray markers. -/
theorem target_tidied (h : r.Tidied r') {i : Nat} (hkept : Kept r.kinds i) (w : Way) :
    w.target r' (rank r.kinds i) = rank r.kinds (w.target r i) := by
  cases w with
  | onward => exact (Pairing.rank_succ_of_kept hkept).symm
  | skip => exact h.failTarget hkept
  | leave => exact h.leaveTarget hkept

/-- **A stray closing marker** is passed in the one route, while the other stays where it is. -/
theorem passStray (h : InStep who r r' s t)
    (hk : kindAt r.kinds (place who s) = some .closing) (hs : Stray r.kinds (place who s))
    (hline : r.steps[place who s]? = some (.script line))
    (run : runLine who r (place who s) line s = .ok next u) :
    InStep who r r' (goTo who next u) t := by
  have hmarker : line.marker? = some .closing := (Route.kindAt_kinds hline).symm.trans hk
  obtain ⟨notices, hrun⟩ := runLine_stray (r := r) (h.branches_stray hs) hmarker nofun (place who s)
  rw [if_pos rfl] at hrun
  obtain ⟨rfl, rfl⟩ : next = place who s + 1 ∧ u = { s with notices } := by
    rw [hrun] at run
    cases run
    exact ⟨rfl, rfl⟩
  obtain ⟨c, hc⟩ := h.on
  obtain ⟨hon, hplace⟩ := hc.line run
  refine ⟨⟨c, hon⟩, h.on', ?_, ?_, ?_, fun hin => ?_⟩
  · exact ((twin_goTo who _ _).trans (show Twin { s with notices } s from rfl)).trans h.twin
  · rw [hplace, h.same, Pairing.rank_succ_of_stray hs]
  · rw [hplace]
    refine Nat.lt_of_le_of_ne h.before fun heq => ?_
    have hlt : place who s < r.length := (List.getElem?_eq_some_iff.1 hline).1
    have := (Route.stray_cut (heq ▸ hlt)).1
    rw [← heq, hk] at this
    cases this
  · refine ⟨[], ((twin_goTo who _ _).branches who).trans (h.branches_stray hs), ?_⟩
    rw [hplace, hs.depth_succ, (Pairing.stray_iff_depth.1 hs).2]
    rfl

/-- **A line that both routes have** does the same in both, and leads to the same line. -/
theorem runBoth (hr : r.Tidied r') (h : InStep who r r' s t) (hkept : Kept r.kinds (place who s))
    (hline : r.steps[place who s]? = some (.script line))
    (run : runLine who r (place who s) line s = .ok next u) :
    ∃ next' u', runLine who r' (place who t) line t = .ok next' u' ∧
      InStep who r r' (goTo who next u) (goTo who next' u') := by
  obtain ⟨c, hc⟩ := h.on
  obtain ⟨c', hc'⟩ := h.on'
  obtain ⟨b, hb, -⟩ := hc.course
  obtain ⟨b', hb', -⟩ := hc'.course
  rcases twin_runLine h.twin who r r' (place who s) (place who t) line with
    ⟨next₁, next', u₁, u', hu, hu', htwin⟩ | ⟨e, u₁, u', hu, -⟩
  · rw [run] at hu
    cases hu
    refine ⟨next', u', hu', ?_⟩
    obtain ⟨hon, hplace⟩ := hc.line run
    obtain ⟨hon', hplace'⟩ := hc'.line hu'
    have hat : place who s = b.index := place_of_course hb
    have hat' : place who t = b'.index := place_of_course hb'
    obtain ⟨bs, w, hbs, hw, hnext⟩ := leads_runLine hb (hat ▸ run)
    obtain ⟨bs', w', hbs', hw', hnext'⟩ := leads_runLine hb' (hat' ▸ hu')
    -- the stacks before and after the line are the same in both
    have hbefore : b'.branches = b.branches := by
      rw [← branches_character hb, ← branches_character hb', h.twin.branches who]
    have hafter : bs' = bs := by
      have := htwin.branches who
      rw [branches_character hbs, branches_character hbs'] at this
      exact this.symm
    rw [hbefore, hafter] at hw'
    obtain rfl := hw.unique hw'
    rw [← hat] at hnext
    rw [← hat', h.same, target_tidied hr hkept, ← hnext] at hnext'
    have hbranches : ((goTo who next u).character who).branches = bs := by
      rw [(twin_goTo who next u).branches who, branches_character hbs]
    refine ⟨⟨c, hon⟩, ⟨c', hon'⟩, ?_, ?_, ?_, fun hin => ?_⟩
    · exact (twin_goTo who next u).trans (htwin.trans (twin_goTo who next' u').symm)
    · rw [hplace, hplace', hnext']
    · rw [hplace, hnext]
      exact target_le_cut hr.paired hline hkept hw h.before
    · rw [hplace] at hin ⊢
      obtain ⟨l, hl, hlength⟩ := h.stack (List.getElem?_eq_some_iff.1 hline).1
      rw [hbranches, hnext]
      rw [branches_character hb] at hl
      exact stack_of_leads hr.paired hline hkept hw hl hlength (hnext ▸ hin)
  · rw [run] at hu
    cases hu

/-- A command that is taken on the way stands before the cut. -/
theorem lt_cut (h : InStep who r r' s t) (ht : r.takes (place who s) = true) : place who s < r.cut := by
  obtain ⟨hk, hlt⟩ := Route.kindAt_of_takes ht
  refine lt_of_le_of_ne h.before fun heq => ?_
  rw [heq, (Route.stray_cut (heq ▸ hlt)).1] at hk
  cases hk

/-- The line of a kept position is a command in both routes or in neither. -/
theorem takes_tidied (hr : r.Tidied r') {i : Nat} (hi : Kept r.kinds i) :
    r'.takes (rank r.kinds i) = r.takes i := by
  rw [Route.takes, hr.step hi, Route.takes]

/-- The stray alternative has led out of the one route; in the other the character stands behind
it. -/
structure Left (who : CharacterId) (r r' : Route) (u v : Session) : Prop where
  cut : r.cut < r.length
  ended : place who u = r.length
  on' : On who r' v
  behind : place who v = rank r.kinds r.cut

/-- Nothing stands behind the end of the route. -/
theorem Left.stays {l : List Visit} (h : Left who r r' u v) (way : Strides who r u l s)
    (once : .again ∉ l) : l = [] ∧ s = u := by
  cases way with
  | here _ => exact ⟨rfl, rfl⟩
  | line hline _ _ =>
      rw [h.ended, Route.length, List.getElem?_length] at hline
      cases hline
  | again _ _ _ => exact absurd List.mem_cons_self once

/-- **A stray alternative** leads out of the one route, while the other stays where it is. -/
theorem leaveStray (hr : r.Paired) (h : InStep who r r' s t)
    (hk : kindAt r.kinds (place who s) = some .alternative) (hs : Stray r.kinds (place who s))
    (hline : r.steps[place who s]? = some (.script line))
    (run : runLine who r (place who s) line s = .ok next u) : Left who r r' (goTo who next u) t := by
  have hmarker : line.marker? = some .alternative := (Route.kindAt_kinds hline).symm.trans hk
  obtain ⟨notices, hrun⟩ := runLine_stray (r := r) (h.branches_stray hs) hmarker (by decide) (place who s)
  rw [if_neg (by decide), hr.leaveTarget_stray hs] at hrun
  obtain ⟨c, hc⟩ := h.on
  have hplace := (hc.line run).2
  have hend : next = r.length := by
    rw [hrun] at run
    cases run
    rfl
  have hcut : r.cut = place who s := le_antisymm (Route.cut_le_of_stray hk hs) h.before
  have hlt : place who s < r.length := (List.getElem?_eq_some_iff.1 hline).1
  exact ⟨hcut ▸ hlt, hplace.trans hend, h.on', hcut ▸ h.same⟩

/-- **The lines of a frame**: up to where it stops the one route is gone through as the other, but
for the stray markers, unless a stray alternative leaves it. -/
theorem strides (hr : r.Tidied r') {l : List Visit} (way : Strides who r s l u) (once : .again ∉ l)
    (h : InStep who r r' s t) :
    ∃ l' v, Strides who r' t l' v ∧ .again ∉ l' ∧
      r'.taken l' = (r.taken l).map (rank r.kinds) ∧ (∀ i ∈ r.taken l, i < r.cut) ∧
      (InStep who r r' u v ∨ Left who r r' u v) := by
  induction way generalizing t with
  | here s => exact ⟨[], t, .here t, List.not_mem_nil, rfl, List.forall_mem_nil _, .inl h⟩
  | @line s s₁ u l line next hline run rest ih =>
      have honce : .again ∉ l := fun hin => once (List.mem_cons_of_mem _ hin)
      have hkind := Route.kindAt_kinds hline
      by_cases hs : Stray r.kinds (place who s)
      · -- a stray marker is no command
        have htakes : r.takes (place who s) = false := by
          rw [Route.takes, hline]
          rcases hs.1 with hk | hk <;> simp [← show _ = line.marker? from hkind, hk]
        have htaken : r.taken (.line (place who s) next :: l) = r.taken l := by
          rw [Route.taken_cons_line, htakes, if_neg Bool.false_ne_true]
        rw [htaken]
        rcases hs.1 with hk | hk
        · have hleft := h.leaveStray hr.paired hk hs hline run
          obtain ⟨rfl, rfl⟩ := hleft.stays rest honce
          exact ⟨[], t, .here t, List.not_mem_nil, rfl, List.forall_mem_nil _, .inr hleft⟩
        · exact ih honce (h.passStray hk hs hline run)
      · obtain ⟨next', u', run', hstep⟩ := h.runBoth hr hs hline run
        obtain ⟨l', v, hl', honce', htaken, hcut, hend⟩ := ih honce hstep
        have hline' : r'.steps[place who t]? = some (.script line) := by
          rw [h.same, hr.step hs, hline]
        refine ⟨_, v, .line hline' run' hl', ?_, ?_, ?_, hend⟩
        · exact fun hin => honce' ((List.mem_cons.1 hin).resolve_left (by simp))
        · rw [Route.taken_cons_line, Route.taken_cons_line, h.same, takes_tidied hr hs, htaken]
          split <;> rfl
        · rw [Route.taken_cons_line]
          split
          · next ht =>
              intro i hi
              rcases List.mem_cons.1 hi with rfl | hi
              · exact h.lt_cut ht
              · exact hcut i hi
          · exact hcut
  | again hend hrep rest ih => exact absurd List.mem_cons_self once

end InStep

end EventLayer
