/-
**Arms that are never entered.**

The arm of a marker is what stands between it and the place where it leads if its condition fails.
Chains are nested, so that a jump into an arm comes from within it, and from outside an arm is entered
only at its marker.  A branch whose condition cannot be read is kept with a condition that is false:
its arm is entered by nobody who is not in it, and nobody comes to be in it in another way, whatever
routes a character is given or made to go through.

Main definitions:

* `Route.Inside` — the arm of a marker;
* `Route.PairedAs` — the jumps that bracket matching prescribes for the markers written;
* `Play.Guided` — routes given and forced, frames, and whatever leaves a course alone;
* `Route.NeverEntered` — an arm that nobody enters.

Main results:

* `Route.Paired.inside_of_target` — **a jump into an arm comes from within it**;
* `Play.avoids_walk`, `Play.avoids_of_guided` — a frame, and any sequence of them, stays outside;
* `Route.pairs_as_brackets` — **pairing is bracket matching of the markers written**.
-/
import Mathlib.Logic.Relation
import EventLayer.Proofs.Route.Written

set_option autoImplicit false
set_option relaxedAutoImplicit false

namespace EventLayer

open Pairing

namespace Pairing

variable {kinds : List (Option MarkerKind)} {o i k : Nat}

/-- A marker that is not the last one of its chain leads to a next one. -/
theorem exists_isNext (hi : Belongs kinds o i) (hk : Belongs kinds o k) (hlt : i < k) :
    ∃ j, IsNext kinds i j := by
  induction k using Nat.strongRecOn with
  | ind k ih =>
      by_cases hnone : ∀ l, Belongs kinds o l → l ≤ i ∨ k ≤ l
      · exact ⟨k, o, hi, hk, hlt, hnone⟩
      · push Not at hnone
        obtain ⟨l, hl, hil, hlk⟩ := hnone
        exact ih l hlk hl hil

end Pairing

namespace Route

/-- A position in the arm of the marker at `i`: behind it, and before the place where it leads if its
condition fails. -/
def Inside (r : Route) (i k : Nat) : Prop := i < k ∧ k < r.failTarget i

variable {r : Route} {o i k t : Nat}

theorem not_inside_zero : ¬r.Inside i 0 := fun h => Nat.not_lt_zero _ h.1

theorem not_inside_failTarget : ¬r.Inside i (r.failTarget i) := fun h => lt_irrefl _ h.2

/-- A position that follows one outside an arm is outside, unless that was the marker of the arm. -/
theorem inside_succ (h : r.Inside i (k + 1)) : k = i ∨ r.Inside i k := by
  rcases Nat.lt_or_eq_of_le (Nat.le_of_lt_succ h.1) with hlt | heq
  · exact .inr ⟨hlt, (Nat.lt_succ_self k).trans h.2⟩
  · exact .inl heq.symm

/-- In the arm of a marker its chain is open. -/
theorem Paired.openAt_inside (hr : r.Paired) (ho : Belongs r.kinds o i) (hin : r.Inside i k) :
    OpenAt r.kinds o k := by
  obtain ⟨hlt, hle⟩ := hin
  rw [failTarget, leaveTarget] at hle
  cases hj : r.pairing.next.lookup i with
  | some j =>
      rw [hj, Option.getD_some] at hle
      obtain ⟨o', ho', hbelongs, -⟩ := hr.next_iff.1 hj
      obtain rfl := ho.unique ho'
      exact ho.openAt hbelongs hlt hle.le
  | none =>
      obtain ⟨e, he⟩ := exists_isEnd ho
      rw [hj, hr.ends_iff.2 he, Option.getD_none, Option.getD_some] at hle
      exact he.openAt ho hlt hle.le

/-- In the arm of a marker there is no other marker of its chain. -/
theorem Paired.not_belongs_inside (hr : r.Paired) (ho : Belongs r.kinds o i)
    (hin : r.Inside i k) : ¬Belongs r.kinds o k := by
  intro hk
  obtain ⟨j, hj⟩ := exists_isNext ho hk hin.1
  obtain ⟨hlt, hle⟩ := hin
  rw [failTarget, hr.next_iff.2 hj, Option.getD_some] at hle
  obtain ⟨o', ho', -, -, hnone⟩ := hj
  obtain rfl := ho.unique ho'
  rcases hnone k hk with hki | hjk
  · exact absurd hlt (not_lt.2 hki)
  · exact absurd hle (not_lt.2 hjk)

/-- A marker jumps to a marker of its chain, or to the end of the route. -/
theorem Paired.belongs_target (hr : r.Paired) (ht : t = r.failTarget k ∨ t = r.leaveTarget k)
    (hlt : t < r.length) : ∃ o, Belongs r.kinds o k ∧ Belongs r.kinds o t := by
  have hleave : t = r.leaveTarget k → ∃ o, Belongs r.kinds o k ∧ Belongs r.kinds o t := by
    rintro rfl
    rw [leaveTarget] at hlt ⊢
    cases he : r.pairing.ends.lookup k with
    | none =>
        rw [he] at hlt
        exact absurd hlt (lt_irrefl _)
    | some e =>
        rw [he] at hlt
        obtain ⟨o, ho, ⟨hbelongs, -⟩ | ⟨rfl, -⟩⟩ := hr.ends_iff.1 he
        · exact ⟨o, ho, hbelongs⟩
        · rw [Option.getD_some, r.length_kinds] at hlt
          exact absurd hlt (lt_irrefl _)
  rcases ht with ht | ht
  · rw [failTarget] at ht
    cases hj : r.pairing.next.lookup k with
    | none =>
        rw [hj] at ht
        exact hleave ht
    | some j =>
        rw [hj, Option.getD_some] at ht
        obtain ⟨o, ho, hbelongs, -⟩ := hr.next_iff.1 hj
        exact ⟨o, ho, ht ▸ hbelongs⟩
  · exact hleave ht

/-- **A jump into an arm comes from within it.** -/
theorem Paired.inside_of_target (hr : r.Paired) {kind kind' : MarkerKind}
    (hi : kindAt r.kinds i = some kind) (hne : kind ≠ .closing)
    (hk : kindAt r.kinds k = some kind') (hne' : kind' ≠ .closing)
    (ht : t = r.failTarget k ∨ t = r.leaveTarget k) (hin : r.Inside i t) : r.Inside i k := by
  have hkt : k < t := by
    rcases ht with rfl | rfl
    · exact (hr.failTarget_forward hk hne').1
    · exact (hr.leaveTarget_forward hk hne').1
  obtain ⟨o', hk', ht'⟩ := hr.belongs_target ht
    (hin.2.trans_le (hr.failTarget_forward hi hne).2)
  have hopened : i < o' := by
    rcases belongs_or_stray hi with ⟨o, ho⟩ | hstray
    · refine ho.nested ht' hin.1 (hr.openAt_inside ho hin) ?_
      rintro rfl
      exact hr.not_belongs_inside ho hin ht'
    · exact hstray.lt_of_belongs ht' hin.1
  exact ⟨hopened.trans_le hk'.le, hkt.trans hin.2⟩

/-- A branch that is never taken stands at a position. -/
def ShutAt (r : Route) (i : Nat) : Prop := ∃ step, r.steps[i]? = some step ∧ NeverTaken step

theorem ShutAt.kindAt (h : r.ShutAt i) : ∃ kind, kindAt r.kinds i = some kind ∧ kind ≠ .closing := by
  obtain ⟨step, hat, rfl | rfl⟩ := h
  · exact ⟨.opening, kindAt_kinds hat, nofun⟩
  · exact ⟨.alternative, kindAt_kinds hat, nofun⟩

end Route

/-! ### One line -/

namespace Play

open Session

variable {who : CharacterId} {r : Route} {i k next : Nat} {s t : Session} {c : Course}

/-- A false condition is asked. -/
theorem next_of_false {enter skip : Nat}
    (h : (do
      if ← (RouteCondition.const false).holds who then
        onCharacter who fun h => { h with branches := true :: h.branches.tail }
        return enter
      return skip : Play Nat) s = .ok next t) : next = skip := by
  cases h
  rfl

/-- A branch that is never taken is passed over. -/
theorem next_of_shut (hshut : r.ShutAt i) {line : RouteInstruction}
    (hline : r.steps[i]? = some (.script line)) (h : runLine who r i line s = .ok next t) :
    next = r.failTarget i ∨ next = r.leaveTarget i := by
  obtain ⟨step, hat, hnever⟩ := hshut
  rw [hline] at hat
  cases hat
  rcases hnever with heq | heq <;> cases heq
  · rw [runLine, openBranch, onCharacter, modify_bind_apply] at h
    exact .inl (next_of_false h)
  · rw [runLine, nextBranch, get_bind_apply] at h
    split at h
    · cases h
      exact .inr rfl
    · exact .inl (next_of_false h)

/-- **A script line outside the arm leads outside.** -/
theorem outside_runLine (hr : r.Paired) (hshut : r.ShutAt i) (hk : ¬r.Inside i k)
    {line : RouteInstruction} (hline : r.steps[k]? = some (.script line))
    (h : runLine who r k line s = .ok next t) : ¬r.Inside i next := by
  intro hin
  obtain ⟨kind, hkind, hne⟩ := hshut.kindAt
  by_cases hki : k = i
  · subst hki
    exact hk (hr.inside_of_target hkind hne hkind hne (next_of_shut hshut hline h) hin)
  · rcases next_runLine h with rfl | ⟨⟨kind', hmarker, hne'⟩, hjump⟩
    · exact (Route.inside_succ hin).elim hki hk
    · exact hk (hr.inside_of_target hkind hne ((Route.kindAt_kinds hline).trans hmarker) hne' hjump hin)

end Play

/-! ### Whole frames -/

/-- A character is outside the arm of a marker, and so is the place to which it will return. -/
structure Course.Avoids (r : Route) (i : Nat) (c : Course) : Prop where
  here : c.route = some r → ¬r.Inside i c.index
  aside : c.savedRoute = some r → ¬r.Inside i c.savedIndex

namespace Play

open Session

variable {who : CharacterId} {r : Route} {i : Nat} {s t u : Session} {c : Course} {l : List Visit}

/-- **On its way a frame stays outside.** -/
theorem Strides.outside (hr : r.Paired) (hshut : r.ShutAt i) (h : Strides who r s l u)
    (hs : StandsOn who r c s) (hout : ¬r.Inside i (place who s)) :
    (∀ k next, .line k next ∈ l → ¬r.Inside i k ∧ ¬r.Inside i next) ∧ ¬r.Inside i (place who u) :=
  h.reaches (P := fun k => ¬r.Inside i k) hs (fun hk hline => outside_runLine hr hshut hk hline)
    Route.not_inside_zero hout

/-- A character whose course is the given one but for the branches. -/
def AtPlace (who : CharacterId) (c : Course) (s : Session) : Prop :=
  ∃ bs, s.course? who = some { c with branches := bs }

theorem unsteered_atPlace : Unsteered who (AtPlace who c) where
  of_steersNobody h := h.preserves fun f => ∃ bs, f who = some { c with branches := bs }
  branches g := by
    refine preserves_modify fun s ⟨bs, h⟩ => ⟨g bs, ?_⟩
    exact course?_onCharacter (g := fun c => { c with branches := g c.branches }) (fun _ => rfl) h

theorem AtPlace.of_course (h : s.course? who = some c) : AtPlace who c s := ⟨c.branches, h⟩

/-- A character whose course avoids an arm. -/
def AvoidsArm (who : CharacterId) (r : Route) (i : Nat) (s : Session) : Prop :=
  ∃ c, s.course? who = some c ∧ c.Avoids r i

/-- A character that avoids an arm goes on outside it. -/
theorem AvoidsArm.move {c' : Course} (h : c.Avoids r i) (hc : c.Keeps c')
    (hs : AtPlace who c' s) (hout : c.route = some r → ¬r.Inside i c'.index) :
    AvoidsArm who r i s := by
  obtain ⟨bs, hs⟩ := hs
  refine ⟨_, hs, fun hroute => hout (hc.route.symm.trans hroute), fun hroute => ?_⟩
  rw [show ({ c' with branches := bs } : Course).savedIndex = c'.savedIndex from rfl, hc.savedIndex]
  exact h.aside (hc.savedRoute.symm.trans hroute)

/-- A character that takes up the route that was put aside. -/
theorem AvoidsArm.restored (h : c.Avoids r i) (hs : s.course? who = some c.restored) :
    AvoidsArm who r i s :=
  ⟨_, hs, h.aside, nofun⟩

theorem avoidsArm_afterStep {m : Move} {c' : Course} (h : c.Avoids r i) (hk : c.Keeps c')
    (hu : u.course? who = some c') (hshut : r.ShutAt i) (hout : ¬r.Inside i c'.index)
    (hline : r.steps[c'.index]? = some (.move m)) (run : takeStep who m u = .ok () t) :
    AvoidsArm who r i (if (t.character who).moveSucceeded || r.skippable
      then t.updateCharacter who fun c => { c with routeIndex := c.routeIndex + 1 } else t) := by
  have ht : t.course? who = some c' := by rw [(steersNobody_takeStep who m).of_ok run, hu]
  split
  · have hnext : c.Keeps { c' with index := c'.index + 1 } :=
      ⟨hk.route, hk.savedRoute, hk.savedIndex, hk.forcing⟩
    refine AvoidsArm.move h hnext (.of_course ?_) fun _ hin => ?_
    · exact course?_onCharacter (g := fun c => { c with index := c.index + 1 }) (fun _ => rfl) ht
    · rcases Route.inside_succ hin with heq | hin
      · obtain ⟨step, hat, rfl | rfl⟩ := hshut <;> rw [← heq, hline] at hat <;> cases hat
      · exact hout hin
  · exact AvoidsArm.move h hk (.of_course ht) fun _ => hout

/-- At the end of its route a character is outside. -/
theorem avoidsArm_afterEnd {c' : Course} (hr : r.Paired) (hshut : r.ShutAt i) (h : c.Avoids r i)
    (hk : c.Keeps c') (hu : u.course? who = some c') (hout : ¬r.Inside i c'.index)
    (hend : t = u ∨ t = goTo who r.length u) :
    AvoidsArm who r i (if (t.character who).forcing then resumed who t else t) := by
  obtain ⟨kind, hkind, hne⟩ := hshut.kindAt
  have ht : ∃ c'', t.course? who = some c'' ∧ c.Keeps c'' ∧ ¬r.Inside i c''.index := by
    rcases hend with rfl | rfl
    · exact ⟨c', hu, hk, hout⟩
    · refine ⟨_, course?_onCharacter (g := fun c => { c with index := r.length }) (fun _ => rfl) hu,
        ⟨hk.route, hk.savedRoute, hk.savedIndex, hk.forcing⟩, fun hin => ?_⟩
      exact absurd hin.2 (not_lt.2 (hr.failTarget_forward hkind hne).2)
  obtain ⟨c'', ht, hk', hout'⟩ := ht
  split
  · exact AvoidsArm.restored h (hk'.restored ▸ course?_resumed ht)
  · exact AvoidsArm.move h hk' (.of_course ht) fun _ => hout'

/-- A frame on the route itself. -/
theorem avoids_walkLines (hr : r.Paired) (hshut : r.ShutAt i) (h : c.Avoids r i)
    (hc : s.course? who = some c) (hroute : c.route = some r) (n : Nat) :
    AvoidsArm who r i ((walkLines who r n).after s) := by
  have hs : StandsOn who r c s := ⟨⟨c, hc, .refl c⟩, by rw [hroute]; rfl⟩
  obtain ⟨l, u, hl, hstop⟩ := walkLines_strides n hs
  have hout := (hl.outside hr hshut hs (place_of_course hc ▸ h.here hroute)).2
  obtain ⟨c', hu, hk⟩ := (hl.standsOn hs).course
  rw [place_of_course hu] at hout
  generalize hresult : walkLines who r n s = result at hstop
  rcases hstop with ⟨-, rfl⟩ | hraise | hstep | hover
  · rw [after_of_ok hresult]
    exact .move h hk (.of_course hu) fun _ => hout
  · cases hraise with
    | line hline run =>
        rw [after_of_error hresult]
        exact .move h hk ((unsteered_atPlace.runLine _ _ _).of_error (.of_course hu) run) fun _ => hout
    | step hline run =>
        rw [after_of_error hresult]
        exact .move h hk ((unsteered_atPlace.of_steersNobody (steersNobody_takeStep who _)).of_error
          (.of_course hu) run) fun _ => hout
  · cases hstep with
    | step hline run =>
        rw [after_of_ok hresult]
        exact avoidsArm_afterStep h hk hu hshut hout (place_of_course hu ▸ hline) run
  · cases hover with
    | ended hrep hend =>
        rw [after_of_ok hresult]
        exact avoidsArm_afterEnd hr hshut h hk hu hout (hend.imp And.right And.right)

/-- **A frame stays outside an arm that is never entered.** -/
theorem avoids_walk (hr : r.Paired) (hshut : r.ShutAt i) (h : AvoidsArm who r i s) :
    AvoidsArm who r i ((walk who).after s) := by
  obtain ⟨c, hc, h⟩ := h
  by_cases hroute : c.route = some r
  · by_cases hwait : 0 < (s.character who).waitCount
    · rw [after_of_ok (by rw [walk_apply, if_pos hwait])]
      have hsame : (s.updateCharacter who fun c => { c with waitCount := c.waitCount - 1 }).course? =
          s.course? := course?_updateCharacter fun _ => rfl
      exact ⟨c, by rw [hsame, hc], h⟩
    · have hactive : (s.character who).activeRoute = r := activeRoute_character hc hroute
      have hwalk := avoids_walkLines hr hshut h hc hroute (r.length + 1)
      rwa [after, walk_apply, if_neg hwait, hactive]
  · obtain ⟨c', hc', hk | ⟨-, rfl⟩⟩ := course_walk hc
    · exact AvoidsArm.move h hk (.of_course hc') fun hsome => absurd hsome hroute
    · exact AvoidsArm.restored h hc'

/-- A character is given a route or made to go through one, a frame passes, or something happens that
leaves its course alone.  Operations that fail count for what they did. -/
inductive Guided (who : CharacterId) (s : Session) : Session → Prop
  | given (v : Json) : Guided who s ((setRoute who v).after s)
  | forced (v : Json) : Guided who s ((forceRoute who v).after s)
  | frame : Guided who s ((walk who).after s)
  | aside {t : Session} (ht : t.course? who = s.course? who) : Guided who s t

/-- A route that cannot be read is not handed to anybody. -/
theorem after_readingBind_of_error {α β : Type} {x : Reading α} {e : Fault} (h : x.result = .error e)
    (f : α → Play β) (s : Session) :
    ((liftM x >>= f : Play β).after s).course? = s.course? := by
  rw [after_of_error (bind_of_error (lift_reading_of_error h s))]
  rfl

theorem AvoidsArm.guided (hr : r.Paired) (hshut : r.ShutAt i) (h : AvoidsArm who r i s)
    (hst : Guided who s t) : AvoidsArm who r i t := by
  cases hst with
  | given v =>
      obtain ⟨c, hc, h⟩ := h
      cases hv : (Route.read v).result with
      | ok found =>
          exact ⟨_, course?_setRoute hv hc, fun _ => Route.not_inside_zero, h.aside⟩
      | error e => exact ⟨c, (congrFun (after_readingBind_of_error hv _ s) who).trans hc, h⟩
  | forced v =>
      obtain ⟨c, hc, h⟩ := h
      cases hv : (Route.read v).result with
      | ok found =>
          refine ⟨_, course?_forceRoute hv hc, fun _ => Route.not_inside_zero, ?_⟩
          simp only [Course.interruptedBy]
          split
          · exact h.here
          · exact h.aside
      | error e => exact ⟨c, (congrFun (after_readingBind_of_error hv _ s) who).trans hc, h⟩
  | frame => exact avoids_walk hr hshut h
  | aside ht =>
      obtain ⟨c, hc, h⟩ := h
      exact ⟨c, ht.trans hc, h⟩

/-- **Whatever happens to a character**, it stays outside an arm that is never entered. -/
theorem avoids_of_guided (hr : r.Paired) (hshut : r.ShutAt i) (h : AvoidsArm who r i s)
    (hst : Relation.ReflTransGen (Guided who) s t) : AvoidsArm who r i t := by
  induction hst with
  | refl => exact h
  | tail _ hstep ih => exact ih.guided hr hshut hstep

end Play

/-! ### Pairing -/

namespace Route

open Play

/-- The jumps that bracket matching prescribes for certain markers, and no others: where they lead,
that they lead forward, and that a marker outside every chain leads nowhere. -/
structure PairedAs (r : Route) (kinds : List (Option MarkerKind)) : Prop where
  next : ∀ i j, r.pairing.next.lookup i = some j ↔ IsNext kinds i j
  ends : ∀ i e, r.pairing.ends.lookup i = some e ↔ IsEnd kinds i e
  stray : ∀ i, Stray kinds i → r.pairing.next.lookup i = none ∧ r.pairing.ends.lookup i = none
  next_forward : ∀ i j, r.pairing.next.lookup i = some j → i < j
  ends_forward : ∀ i e, r.pairing.ends.lookup i = some e →
    if kindAt kinds i = some .closing then e = i else i < e

theorem Paired.pairedAs {r : Route} (hr : r.Paired) : r.PairedAs r.kinds where
  next _ _ := hr.next_iff
  ends _ _ := hr.ends_iff
  stray i hi := by
    rw [hr]
    exact hi.fresh
  next_forward _ _ h := (hr.next_iff.1 h).lt.1
  ends_forward i e h := by
    split
    · next hk => exact (hr.ends_iff.1 h).eq_of_closing hk
    · next hk => exact ((hr.ends_iff.1 h).lt hk).1

/-- Nobody who is outside the arm of a marker enters it: neither on the way of a frame, nor through
any sequence of frames and of routes given and forced. -/
structure NeverEntered (r : Route) (i : Nat) : Prop where
  onTheWay : ∀ who s c, s.course? who = some c → c.route = some r → ¬r.Inside i c.index →
    ∀ l u, Strides who r s l u →
      (∀ k next, .line k next ∈ l → ¬r.Inside i k ∧ ¬r.Inside i next) ∧ ¬r.Inside i (place who u)
  everAfter : ∀ who s t, AvoidsArm who r i s → Relation.ReflTransGen (Guided who) s t →
    AvoidsArm who r i t

theorem Paired.neverEntered {r : Route} {i : Nat} (hr : r.Paired) (hshut : r.ShutAt i) :
    r.NeverEntered i where
  onTheWay who s c hc hroute hout l u hl :=
    hl.outside hr hshut ⟨⟨c, hc, .refl c⟩, by rw [hroute]; rfl⟩ (place_of_course hc ▸ hout)
  everAfter _ _ _ h hst := avoids_of_guided hr hshut h hst

/-- **Pairing is bracket matching of the markers written.**  A route as the editor writes it can be
read just if none of its conditions balks, which no condition of few ASCII characters does.  The jumps
of a route that was read are those that bracket matching prescribes for the names that its lines call,
so that routes with the same markers have the same jumps; and the arm of a branch whose condition
cannot be read is entered by nobody. -/
theorem pairs_as_brackets (v : Json) :
    (Orderly v → ((∃ r, (Route.read v).result = .ok (some r)) ↔
      ∀ c ∈ commands v, ∀ text, condition? c = some text → ¬RouteCondition.Balks text)) ∧
    (∀ text : String, RouteCondition.Plain text.toList → ¬RouteCondition.Balks text) ∧
    ∀ r, (Route.read v).result = .ok (some r) →
      r.PairedAs (written v) ∧
      (∀ v' r', (Route.read v').result = .ok (some r') → written v' = written v →
        r'.pairing = r.pairing) ∧
      ∀ i c, (commands v)[i]? = some c → Misspelled c → r.NeverEntered i := by
  refine ⟨read_iff, fun _ => RouteCondition.not_balks, fun r hv => ?_⟩
  have hr := paired_of_read hv
  refine ⟨kinds_of_read hv ▸ hr.pairedAs, fun v' r' hv' hsame => ?_, fun i c hc hm => ?_⟩
  · rw [paired_of_read hv', hr, kinds_of_read hv', kinds_of_read hv, hsame]
  · exact hr.neverEntered (step_of_misspelled hv hc hm)

/-- A chain that opens with a misspelled condition, and a closing marker too many. -/
theorem pairs_as_brackets_sometimes :
    let line (text : String) : Json := .obj [("code", .int 45), ("parameters", .arr [.str text])]
    let v : Json := .obj [("list", .arr [line "rbIf(sometimes)", .obj [("code", .int 9)],
      line "rbElse()", line "rbEnd()", line "rbEnd()"])]
    Orderly v ∧ written v = [some .opening, none, some .alternative, some .closing, some .closing] ∧
      ∃ r, (Route.read v).result = .ok (some r) ∧ r.PairedAs (written v) ∧ r.NeverEntered 0 := by
  intro line v
  have horderly : Orderly v := by
    refine ⟨_, _, rfl, rfl, ?_⟩
    simp only [List.forall_mem_cons]
    exact ⟨⟨_, rfl, fun _ => rfl⟩, ⟨_, rfl, nofun⟩, ⟨_, rfl, fun _ => rfl⟩, ⟨_, rfl, fun _ => rfl⟩,
      ⟨_, rfl, fun _ => rfl⟩, nofun⟩
  obtain ⟨hread, hplain, hpaired⟩ := pairs_as_brackets v
  have hconditions : (commands v).filterMap condition? = ["sometimes"] := rfl
  obtain ⟨r, hr⟩ := (hread horderly).2 fun c hc text htext => by
    have hmem : text ∈ (commands v).filterMap condition? := List.mem_filterMap.2 ⟨c, hc, htext⟩
    rw [hconditions, List.mem_singleton] at hmem
    subst hmem
    exact hplain _ ⟨RouteCondition.ascii_of_all (by decide), by decide⟩
  obtain ⟨hbrackets, -, harms⟩ := hpaired r hr
  refine ⟨horderly, rfl, r, hr, hbrackets, ?_⟩
  exact harms 0 _ rfl ⟨_, _, rfl, .inl rfl, rfl⟩

/-- **Not every route can be read whose markers can be paired**: a condition names a direction with a
letter that only counts as one of the name's letters. -/
theorem not_pairedAs_dotless :
    ¬ ∀ v, Orderly v → ∃ r, (Route.read v).result = .ok (some r) ∧ r.PairedAs (written v) := by
  intro claim
  let line (text : String) : Json := .obj [("code", .int 45), ("parameters", .arr [.str text])]
  have horderly : Orderly (.obj [("list", .arr [line "rbIf(facing(r\u0131ght))", line "rbEnd()"])]) := by
    refine ⟨_, _, rfl, rfl, ?_⟩
    simp only [List.forall_mem_cons]
    exact ⟨⟨_, rfl, fun _ => rfl⟩, ⟨_, rfl, fun _ => rfl⟩, nofun⟩
  have hbalks : RouteCondition.Balks "facing(r\u0131ght)" :=
    ⟨.missingKey, by decide +kernel, nofun⟩
  obtain ⟨r, hr, -⟩ := claim _ horderly
  exact (read_iff horderly).1 ⟨r, hr⟩ (line "rbIf(facing(r\u0131ght))") List.mem_cons_self _ rfl hbalks

end Route

end EventLayer
