/-
**What stray markers do.**

A marker outside every chain is reported when a route is read, as one that has no open chain.  It is
meant to do nothing.  Two passes are compared here, one through a route and one through the route
without its stray markers, begun in the same session and with the same things happening between the
frames.  A stray closing marker does nothing.  A stray alternative ends the pass: what stands behind
the first one is never reached, while it is in the route without it.

Main definitions:

* `Abreast` — two passes side by side;
* `Aligned` — how far they have come.

Main results:

* `Aligned.frames` — one frame of both passes;
* `Route.strays_idle_iff` — **stray markers do nothing just as long as no command behind a stray
  alternative is taken without them**.
-/
import EventLayer.Proofs.Route.Legs

set_option autoImplicit false
set_option relaxedAutoImplicit false

namespace EventLayer

open Pairing (kindAt Stray Kept rank)
open Play Session

/-! ### Two passes -/

/-- A pass through a route that was read from `v` and one through a route that was read from `v'`:
both are begun in one session, and as long as both are under way, what happens between their frames
leaves sessions that differ in the places of the characters alone. -/
inductive Abreast (who : CharacterId) (v v' : Json) (r r' : Route) : Leg → Leg → Prop
  | given {s : Session} {c : Course} (there : s.course? who = some c) :
      Abreast who v v' r r' ⟨(setRoute who v).after s, [], .underway⟩
        ⟨(setRoute who v').after s, [], .underway⟩
  | forced {s : Session} {c : Course} (there : s.course? who = some c) :
      Abreast who v v' r r' ⟨(forceRoute who v).after s, [], .underway⟩
        ⟨(forceRoute who v').after s, [], .underway⟩
  | frames {a a' b b' : Leg} (run : Abreast who v v' r r' a a') (first : a.Frame who r b)
      (second : a'.Frame who r' b') : Abreast who v v' r r' b b'
  | aside {a a' b b' : Leg} (run : Abreast who v v' r r' a a') (first : a.Aside who b)
      (second : a'.Aside who b') (same : b.session.Twin b'.session) : Abreast who v v' r r' b b'
  /-- The second pass is over, and the first goes on. -/
  | first {a a' b : Leg} (run : Abreast who v v' r r' a a') (ended : a'.progress ≠ .underway)
      (next : a.Frame who r b ∨ a.Aside who b) : Abreast who v v' r r' b a'
  /-- The first pass is over, and the second goes on. -/
  | second {a a' b : Leg} (run : Abreast who v v' r r' a a') (ended : a.progress ≠ .underway)
      (next : a'.Frame who r' b ∨ a'.Aside who b) : Abreast who v v' r r' a b

/-! ### One frame of both passes -/

/-- Commands that stand before the first stray alternative. -/
def Route.Before (r : Route) (l : List Nat) : Prop := ∀ i ∈ l, i < r.cut ∧ r.takes i = true

/-- Two passes side by side: in step, or both over in the same way, or the first over at a stray
alternative, and the second behind it. -/
inductive Aligned (who : CharacterId) (r r' : Route) : Leg → Leg → Prop
  | together {s t : Session} {l : List Nat} (step : InStep who r r' s t) (before : r.Before l) :
      Aligned who r r' ⟨s, l, .underway⟩ ⟨t, l.map (rank r.kinds), .underway⟩
  | done {s t : Session} {l : List Nat} {p : Progress} (ended : p ≠ .underway)
      (before : r.Before l) : Aligned who r r' ⟨s, l, p⟩ ⟨t, l.map (rank r.kinds), p⟩
  | alone {s t : Session} {l more : List Nat} {p : Progress} (before : r.Before l)
      (cut : r.cut < r.length) (behind : ∀ i ∈ more, rank r.kinds r.cut ≤ i)
      (on : p = .underway → On who r' t ∧ rank r.kinds r.cut ≤ place who t) :
      Aligned who r r' ⟨s, l, .ended⟩ ⟨t, l.map (rank r.kinds) ++ more, p⟩

section Frames

variable {who : CharacterId} {r r' : Route} {s t u v : Session}

/-- The character waits in both sessions or in neither. -/
theorem waitCount_twin (h : s.Twin t) : (s.character who).waitCount = (t.character who).waitCount := by
  have := congrArg Character.waitCount (h.character who)
  exact this

/-- A frame in which the character waits does nothing else. -/
theorem walk_of_wait (h : 0 < (s.character who).waitCount) :
    (walk who).after s = s.updateCharacter who (fun c => { c with waitCount := c.waitCount - 1 }) ∧
      ((walk who).after s).course? who = s.course? who := by
  have hwalk : (walk who).after s =
      s.updateCharacter who fun c => { c with waitCount := c.waitCount - 1 } :=
    after_of_ok (by rw [walk_apply, if_pos h])
  refine ⟨hwalk, ?_⟩
  rw [hwalk]
  exact congrFun (course?_updateCharacter (f := fun c => { c with waitCount := c.waitCount - 1 })
    fun _ => rfl) who

/-- Being on a route is a matter of the course. -/
theorem on_congr (h : t.course? who = s.course? who) (hs : On who r s) :
    On who r t ∧ place who t = place who s := by
  obtain ⟨c, ⟨c', hc, hk⟩, hroute⟩ := hs
  exact ⟨⟨c, ⟨c', h.trans hc, hk⟩, hroute⟩,
    (place_of_course (h.trans hc)).trans (place_of_course hc).symm⟩

namespace InStep

/-- Two characters stay in step when the same happens in both sessions and their courses are left
alone. -/
theorem of_course {s' t' : Session} (h : InStep who r r' s t) (same : s'.Twin t')
    (hs : s'.course? who = s.course? who) (ht : t'.course? who = t.course? who) :
    InStep who r r' s' t' := by
  obtain ⟨hon, hplace⟩ := on_congr hs h.on
  obtain ⟨hon', hplace'⟩ := on_congr ht h.on'
  refine ⟨hon, hon', same, by rw [hplace, hplace', h.same], hplace ▸ h.before, fun hin => ?_⟩
  rw [hplace] at hin ⊢
  obtain ⟨l, hl, hlength⟩ := h.stack hin
  obtain ⟨c, ⟨c', hc, -⟩, -⟩ := h.on
  refine ⟨l, ?_, hlength⟩
  rw [branches_character (hs.trans hc), ← branches_character hc, hl]

/-- A frame in which the character waits leaves it where it is. -/
theorem waits (h : InStep who r r' s t) (hs : 0 < (s.character who).waitCount) :
    InStep who r r' ((walk who).after s) ((walk who).after t) := by
  obtain ⟨hs', hcourse⟩ := walk_of_wait hs
  obtain ⟨ht', hcourse'⟩ := walk_of_wait (waitCount_twin h.twin ▸ hs)
  refine h.of_course ?_ hcourse hcourse'
  rw [hs', ht']
  exact (blind_updateCharacter (f := fun c => { c with waitCount := c.waitCount - 1 }) who
    fun _ => rfl).twin h.twin

/-- A command has been passed in both routes. -/
theorem advance (h : InStep who r r' s t) (ht : r.takes (place who s) = true) :
    InStep who r r' (s.updateCharacter who fun c => { c with routeIndex := c.routeIndex + 1 })
      (t.updateCharacter who fun c => { c with routeIndex := c.routeIndex + 1 }) := by
  have hkind := (Route.kindAt_of_takes ht).1
  have hon : ∀ {r : Route} {w : Session}, On who r w →
      On who r (w.updateCharacter who fun c => { c with routeIndex := c.routeIndex + 1 }) ∧
        place who (w.updateCharacter who fun c => { c with routeIndex := c.routeIndex + 1 }) =
          place who w + 1 := by
    rintro r w ⟨c, hc, hroute⟩
    refine ⟨⟨c, hc.update (· + 1) id fun _ => rfl, hroute⟩, ?_⟩
    obtain ⟨c', hc', -⟩ := hc
    rw [place_of_course (course?_onCharacter (g := fun c => { c with index := c.index + 1 })
      (fun _ => rfl) hc'), place_of_course hc']
  have hsilent : ∀ w : Session, (w.updateCharacter who fun c =>
      { c with routeIndex := c.routeIndex + 1 }).Twin w := fun w =>
    twin_updateCharacter (f := fun c => { c with routeIndex := c.routeIndex + 1 }) who w fun _ => rfl
  have hcut := h.lt_cut ht
  refine ⟨(hon h.on).1, (hon h.on').1, (hsilent s).trans (h.twin.trans (hsilent t).symm), ?_, ?_,
    fun hin => ?_⟩
  · rw [(hon h.on).2, (hon h.on').2, h.same, Pairing.rank_succ_of_kept (Route.kept_of_takes ht)]
  · rw [(hon h.on).2]
    exact hcut
  · rw [(hon h.on).2, Pairing.depth_succ_none hkind, (hsilent s).branches who]
    exact h.stack (lt_of_lt_of_le hcut r.cut_le_length)

/-- Where a frame stops there is no stray marker. -/
theorem kept_of_halts (h : InStep who r r' s t) {result : EStateM.Result Fault Session Unit}
    {p : Progress} (hs : Halts who r s result p) : Kept r.kinds (place who s) := by
  intro hstray
  obtain ⟨kind, hk, hne⟩ : ∃ kind, kindAt r.kinds (place who s) = some kind ∧ kind ≠ .opening :=
    hstray.1.elim (fun hk => ⟨_, hk, nofun⟩) fun hk => ⟨_, hk, nofun⟩
  -- a stray marker is a line that is passed
  have hline : ∃ line, r.steps[place who s]? = some (.script line) ∧ line.marker? = some kind := by
    cases hline : r.steps[place who s]? with
    | none => rw [kindAt, Route.kinds, List.getElem?_map, hline] at hk; cases hk
    | some step =>
        rw [Route.kindAt_kinds hline] at hk
        cases step with
        | script line => exact ⟨line, rfl, hk⟩
        | _ => cases hk
  obtain ⟨line, hline, hmarker⟩ := hline
  obtain ⟨notices, hrun⟩ := runLine_stray (r := r) (h.branches_stray hstray) hmarker hne (place who s)
  exact hs.halted line _ _ hline hrun

/-- At a script line that fails both characters halt at the same fault. -/
theorem halts_at_script (h : InStep who r r' s t) {line : RouteInstruction} {e e' : Fault}
    {s₁ t₁ : Session} (run : runLine who r (place who s) line s = .error e s₁)
    (run' : runLine who r' (place who t) line t = .error e' t₁) : e' = e := by
  rcases twin_runLine h.twin who r r' (place who s) (place who t) line with
    ⟨_, _, _, _, hok, -⟩ | ⟨_, _, _, hfault, hfault', -⟩
  · rw [run] at hok
    cases hok
  · rw [run] at hfault
    rw [run'] at hfault'
    cases hfault
    cases hfault'
    rfl

/-- A step that both characters have taken leaves them in step: it has been passed by both or is still to
come for both. -/
theorem stepped (hr : r.Tidied r') (h : InStep who r r' s t) {m : Move} {s₁ t₁ : Session}
    (hline : r.steps[place who s]? = some (.move m)) (run : takeStep who m s = .ok () s₁)
    (run' : takeStep who m t = .ok () t₁) (htwin : s₁.Twin t₁) :
    InStep who r r'
      (if (s₁.character who).moveSucceeded || r.skippable
        then s₁.updateCharacter who fun c => { c with routeIndex := c.routeIndex + 1 } else s₁)
      (if (t₁.character who).moveSucceeded || r'.skippable
        then t₁.updateCharacter who fun c => { c with routeIndex := c.routeIndex + 1 } else t₁) := by
  have hcourse := congrFun ((steersNobody_takeStep who m).of_ok run) who
  have hcourse' := congrFun ((steersNobody_takeStep who m).of_ok run') who
  have hstep := h.of_course htwin hcourse hcourse'
  have hmoved : (t₁.character who).moveSucceeded = (s₁.character who).moveSucceeded := by
    have := congrArg Character.moveSucceeded (htwin.character who)
    exact this.symm
  rw [hmoved, hr.skippable]
  split
  · refine hstep.advance ?_
    rw [Route.takes, (on_congr hcourse h.on).2, hline]
  · exact hstep

/-- **Where one of two characters in step halts, the other halts in the same way.** -/
theorem halts (hr : r.Tidied r') (h : InStep who r r' s t) {u v : Session} {p p' : Progress}
    (hu : Halts who r s (walk who u) p) (hv : Halts who r' t (walk who v) p') :
    p' = p ∧ (p = .underway → InStep who r r' ((walk who).after u) ((walk who).after v)) := by
  have hsame : r'.steps[place who t]? = r.steps[place who s]? := by
    rw [h.same, hr.step (h.kept_of_halts hu)]
  cases hline : r.steps[place who s]? with
  | none =>
      obtain rfl := hu.of_end (.inl hline)
      exact ⟨hv.of_end (.inl (hsame.trans hline)), nofun⟩
  | some step =>
      cases step with
      | finish =>
          obtain rfl := hu.of_end (.inr hline)
          exact ⟨hv.of_end (.inr (hsame.trans hline)), nofun⟩
      | script line =>
          obtain ⟨e, s₁, run, rfl⟩ := hu.of_script hline
          obtain ⟨e', t₁, run', rfl⟩ := hv.of_script (hsame.trans hline)
          rw [halts_at_script h run run']
          exact ⟨rfl, nofun⟩
      | move m =>
          rcases hu.of_move hline with ⟨s₁, run, rfl, hresult⟩ | ⟨e, s₁, run, rfl⟩
          · obtain ⟨t₁, run', htwin⟩ := (twin_takeStep m).of_ok h.twin run
            rcases hv.of_move (hsame.trans hline) with ⟨t₂, run'', rfl, hresult'⟩ | ⟨e, t₂, run'', -⟩ <;>
              rw [run'] at run'' <;> cases run''
            refine ⟨rfl, fun _ => ?_⟩
            rw [after_of_ok hresult, after_of_ok hresult']
            exact stepped hr h hline run run' htwin
          · obtain ⟨t₁, run', -⟩ := (twin_takeStep m).of_error h.twin run
            rcases hv.of_move (hsame.trans hline) with ⟨t₂, run'', -, -⟩ | ⟨e', t₂, run'', rfl⟩ <;>
              rw [run'] at run'' <;> cases run''
            exact ⟨rfl, nofun⟩

/-- Where one of two characters in step halts, the other passes no line either. -/
theorem halted (hr : r.Tidied r') (h : InStep who r r' s t)
    {result : EStateM.Result Fault Session Unit} {p : Progress} (hs : Halts who r s result p) :
    Halted who r' t := by
  intro line next t₁ hline hrun
  rw [h.same, hr.step (h.kept_of_halts hs)] at hline
  obtain ⟨e, s₁, run, -⟩ := hs.of_script hline
  rcases twin_runLine h.twin who r r' (place who s) (place who t) line with
    ⟨_, _, _, _, hok, -⟩ | ⟨_, _, _, -, hfault, -⟩
  · rw [run] at hok
    cases hok
  · rw [hrun] at hfault
    cases hfault

end InStep

/-- After a step the character is on its route, and not behind the step. -/
theorem on_of_underway {w : Session} (h : Halts who r s (walk who w) .underway) (hs : On who r s) :
    On who r ((walk who).after w) ∧ place who s ≤ place who ((walk who).after w) := by
  generalize hresult : walk who w = result at h
  cases h with
  | step h =>
      cases h with
      | @step m t hline run =>
          obtain ⟨hon, hplace⟩ := on_congr (congrFun ((steersNobody_takeStep who m).of_ok run) who) hs
          obtain ⟨c, hc, hroute⟩ := hon
          rw [after_of_ok hresult]
          split
          · refine ⟨⟨c, hc.update (· + 1) id fun _ => rfl, hroute⟩, ?_⟩
            obtain ⟨c', hc', -⟩ := hc
            rw [place_of_course (course?_onCharacter (g := fun c => { c with index := c.index + 1 })
              (fun _ => rfl) hc'), ← hplace, place_of_course hc']
            exact Nat.le_succ _
          · exact ⟨⟨c, hc, hroute⟩, hplace.ge⟩

/-- The commands of a frame, up to where it stops. -/
theorem mem_taken_of_go (hr : r.Paired) {way : List Visit} (h : Strides who r s way u) (hs : On who r s)
    (once : .again ∉ way) {i : Nat} (hi : i ∈ r.taken way ++ [place who u].filter r.takes) :
    place who s ≤ i := by
  obtain ⟨hall, hend⟩ := h.place_le hr hs once
  rcases List.mem_append.1 hi with hi | hi
  · exact hall i hi
  · obtain rfl := List.mem_singleton.1 (List.mem_filter.1 hi).1
    exact hend

namespace Aligned

/-- The first pass may stop at a stray alternative, while the second goes on behind it. -/
theorem frames_left (hr : r.Tidied r') {l : List Nat} {way way₁ more : List Visit} {p p' : Progress}
    {u' : Session} (before : r.Before (l ++ r.taken way)) (h : InStep.Left who r r' u v)
    (hu : Halts who r u (walk who s) p) (hu' : Halts who r' u' (walk who t) p')
    (taken : r'.taken way₁ = (r.taken way).map (rank r.kinds)) (hmore : Strides who r' v more u')
    (once : .again ∉ more) :
    Aligned who r r' ⟨(walk who).after s, l ++ (r.taken way ++ [place who u].filter r.takes), p⟩
      ⟨(walk who).after t, l.map (rank r.kinds) ++
        (r'.taken (way₁ ++ more) ++ [place who u'].filter r'.takes), p'⟩ := by
  have hnone : r.steps[place who u]? = none := by
    rw [h.ended, Route.length, List.getElem?_length]
  obtain rfl := hu.of_end (.inl hnone)
  have hfirst : l ++ (r.taken way ++ [place who u].filter r.takes) = l ++ r.taken way := by
    have htakes : r.takes (place who u) = false := by rw [Route.takes, hnone]
    simp [htakes]
  have hsecond : l.map (rank r.kinds) ++ (r'.taken (way₁ ++ more) ++ [place who u'].filter r'.takes) =
      (l ++ r.taken way).map (rank r.kinds) ++ (r'.taken more ++ [place who u'].filter r'.takes) := by
    rw [Route.taken_append, taken, List.map_append, List.append_assoc, List.append_assoc]
  rw [hfirst, hsecond]
  refine .alone before h.cut (fun i hi => ?_) fun hp => ?_
  · exact h.behind ▸ mem_taken_of_go hr.paired' hmore h.on' once hi
  · subst hp
    obtain ⟨hon, hplace⟩ := on_of_underway hu' (hmore.on h.on')
    exact ⟨hon, h.behind ▸ ((hmore.place_le hr.paired' h.on' once).2.trans hplace)⟩

/-- The two passes stop at the same line. -/
theorem frames_together (hr : r.Tidied r') {l : List Nat} {way way' : List Visit} {p p' : Progress}
    (before : r.Before (l ++ r.taken way)) (h : InStep who r r' u v)
    (hu : Halts who r u (walk who s) p) (hu' : Halts who r' v (walk who t) p')
    (taken : r'.taken way' = (r.taken way).map (rank r.kinds)) :
    Aligned who r r' ⟨(walk who).after s, l ++ (r.taken way ++ [place who u].filter r.takes), p⟩
      ⟨(walk who).after t, l.map (rank r.kinds) ++
        (r'.taken way' ++ [place who v].filter r'.takes), p'⟩ := by
  obtain ⟨rfl, hstep⟩ := h.halts hr hu hu'
  have htakes : r'.takes (place who v) = r.takes (place who u) := by
    rw [h.same, InStep.takes_tidied hr (h.kept_of_halts hu)]
  have hlast : [place who v].filter r'.takes = ([place who u].filter r.takes).map (rank r.kinds) := by
    rw [List.filter_singleton, List.filter_singleton, htakes, h.same]
    cases r.takes (place who u) <;> rfl
  have hsecond : l.map (rank r.kinds) ++ (r'.taken way' ++ [place who v].filter r'.takes) =
      (l ++ (r.taken way ++ [place who u].filter r.takes)).map (rank r.kinds) := by
    rw [taken, hlast, List.map_append, List.map_append]
  have hbefore : r.Before (l ++ (r.taken way ++ [place who u].filter r.takes)) := by
    intro i hi
    rw [← List.append_assoc] at hi
    rcases List.mem_append.1 hi with hi | hi
    · exact before i hi
    · obtain ⟨hi, ht⟩ := List.mem_filter.1 hi
      obtain rfl := List.mem_singleton.1 hi
      exact ⟨h.lt_cut ht, ht⟩
  rw [hsecond]
  by_cases hp : p' = .underway
  · subst hp
    exact .together (hstep rfl) hbefore
  · exact .done hp hbefore

/-- **One frame of both passes.** -/
theorem frames (hr : r.Tidied r') {a a' b b' : Leg} (h : Aligned who r r' a a')
    (first : a.Frame who r b) (second : a'.Frame who r' b') : Aligned who r r' b b' := by
  cases h with
  | done ended => cases first <;> exact absurd rfl ended
  | alone => cases first
  | @together s t l step before =>
      cases first with
      | wait hs =>
          cases second with
          | wait ht => exact .together (step.waits hs) before
          | go ht => exact absurd (waitCount_twin step.twin ▸ hs) (by omega)
      | @go _ u _ way p hs hway once hu =>
          cases second with
          | wait ht => exact absurd (waitCount_twin step.twin ▸ hs) (by omega)
          | @go _ u' _ way' p' ht hway' once' hu' =>
              obtain ⟨way₁, v, hway₁, once₁, htaken, hcut, hend⟩ := step.strides hr hway once
              -- the way in the tidied route begins with the lines that both have
              obtain ⟨more, rfl, hmore⟩ := hway₁.continues hway' once₁ once' hu'.halted
              have honce : .again ∉ more := fun hin => once' (List.mem_append_right _ hin)
              have hall : r.Before (l ++ r.taken way) := fun i hi =>
                (List.mem_append.1 hi).elim (before i) fun hi => ⟨hcut i hi, (List.mem_filter.1 hi).2⟩
              rcases hend with hstep | hleft
              · obtain ⟨rfl, rfl⟩ := hmore.eq_nil honce (hstep.halted hr hu)
                rw [List.append_nil]
                exact frames_together hr hall hstep hu hu' htaken
              · exact frames_left hr hall hleft hu hu' htaken hmore honce

/-- What happens between the frames of both passes. -/
theorem aside {a a' b b' : Leg} (h : Aligned who r r' a a') (first : a.Aside who b)
    (second : a'.Aside who b') (same : b.session.Twin b'.session) : Aligned who r r' b b' := by
  cases h with
  | done ended => cases first; exact absurd rfl ended
  | alone => cases first
  | together step before =>
      cases first with
      | mk _ hs =>
          cases second with
          | mk _ ht => exact .together (step.of_course same hs ht) before

/-- A first pass does not go on alone. -/
theorem first {a a' b : Leg} (h : Aligned who r r' a a') (ended : a'.progress ≠ .underway)
    (next : a.Frame who r b ∨ a.Aside who b) : Aligned who r r' b a' := by
  cases h with
  | together => exact absurd rfl ended
  | done hp => rcases next with next | next <;> cases next <;> exact absurd rfl hp
  | alone => rcases next with next | next <;> cases next

/-- A second pass goes on alone behind the stray alternative. -/
theorem second (hr : r.Tidied r') {a a' b : Leg} (h : Aligned who r r' a a')
    (ended : a.progress ≠ .underway) (next : a'.Frame who r' b ∨ a'.Aside who b) :
    Aligned who r r' a b := by
  cases h with
  | together => exact absurd rfl ended
  | done hp => rcases next with next | next <;> cases next <;> exact absurd rfl hp
  | @alone s t l more p before cut behind on =>
      rcases next with next | next
      · cases next with
        | wait ht =>
            obtain ⟨hon, hplace⟩ := on rfl
            obtain ⟨hon', hplace'⟩ := on_congr (walk_of_wait ht).2 hon
            exact .alone before cut behind fun _ => ⟨hon', hplace' ▸ hplace⟩
        | @go _ u _ way p ht hway once hu =>
            obtain ⟨hon, hplace⟩ := on rfl
            rw [List.append_assoc]
            refine .alone before cut (fun i hi => ?_) fun hp => ?_
            · rcases List.mem_append.1 hi with hi | hi
              · exact behind i hi
              · exact hplace.trans (mem_taken_of_go hr.paired' hway hon once hi)
            · subst hp
              obtain ⟨hon', hplace'⟩ := on_of_underway hu (hway.on hon)
              exact ⟨hon', hplace.trans ((hway.place_le hr.paired' hon once).2.trans hplace')⟩
      · cases next with
        | mk _ ht =>
            obtain ⟨hon, hplace⟩ := on rfl
            obtain ⟨hon', hplace'⟩ := on_congr ht hon
            exact .alone before cut behind fun _ => ⟨hon', hplace' ▸ hplace⟩

end Aligned

end Frames

/-! ### Passes side by side -/

section Passes

variable {who : CharacterId} {v v' : Json} {r r' : Route} {a a' : Leg}

/-- Two characters at the starts of their routes. -/
theorem inStep_start {s t : Session} {c c' : Course} (same : s.Twin t) (hs : s.course? who = some c)
    (ht : t.course? who = some c') (hr : c.route = some r) (hr' : c'.route = some r')
    (hi : c.index = 0) (hi' : c'.index = 0) (hb : c.branches = [true]) : InStep who r r' s t := by
  have hplace : place who s = 0 := (place_of_course hs).trans hi
  have hplace' : place who t = 0 := (place_of_course ht).trans hi'
  refine ⟨⟨c, ⟨c, hs, .refl c⟩, by rw [hr]; rfl⟩, ⟨c', ⟨c', ht, .refl c'⟩, by rw [hr']; rfl⟩, same, ?_,
    hplace ▸ Nat.zero_le _, fun _ => ⟨[], by rw [branches_character hs, hb]; rfl, hplace ▸ rfl⟩⟩
  rw [hplace, hplace']
  rfl

/-- Two routes handed to a character in the same way, in sessions that differ in their notices. -/
theorem twin_handed {f : Option Route → Character → Character} (s : Session) (m n : List Notice)
    (hf : ∀ (r : Option Route) (c : Character), f r c = { f none c with route := r })
    (blind : ∀ c : Character, (f none c.placeless).placeless = (f none c).placeless)
    (r r' : Option Route) : ({ s with notices := m }.updateCharacter who (f r)).Twin
      ({ s with notices := n }.updateCharacter who (f r')) := by
  have hsilent : ∀ (w : Session) (r : Option Route),
      (w.updateCharacter who (f r)).Twin (w.updateCharacter who (f none)) := by
    intro w r
    have hroute : w.updateCharacter who (f r) =
        (w.updateCharacter who (f none)).updateCharacter who fun c => { c with route := r } := by
      rw [updateCharacter_updateCharacter]
      exact congrArg (w.updateCharacter who) (funext (hf r))
    rw [hroute]
    exact twin_updateCharacter (f := fun c => { c with route := r }) who _ fun _ => rfl
  have hnotices : Twin { s with notices := m } { s with notices := n } := rfl
  exact (hsilent _ r).trans (((blind_updateCharacter who blind).twin hnotices).trans (hsilent _ r').symm)

theorem after_handed {f : Option Route → Character → Character} {o : Option Route}
    (hv : (Route.read v).result = .ok o) (s : Session) :
    (do
      let route ← Route.read v
      onCharacter who (f route) : Play Unit).after s =
      { s with notices := s.notices ++ (Route.read v).notices }.updateCharacter who (f o) := by
  rw [after, bind_of_ok (lift_reading_of_ok hv s)]
  rfl

/-- **Two passes side by side stay aligned.** -/
theorem Abreast.aligned (read : (Route.read v).result = .ok (some r))
    (read' : (Route.read v').result = .ok (some r')) (hr : r.Tidied r')
    (h : Abreast who v v' r r' a a') : Aligned who r r' a a' := by
  induction h with
  | @given s c there =>
      refine .together (l := []) (inStep_start ?_ (course?_setRoute read there)
        (course?_setRoute read' there) rfl rfl rfl rfl rfl) nofun
      rw [setRoute, setRoute, after_handed read s, after_handed read' s]
      exact twin_handed (f := fun r c => c.setRoute r) s _ _ (fun _ _ => rfl) (fun _ => rfl) _ _
  | @forced s c there =>
      refine .together (l := []) (inStep_start ?_ (course?_forceRoute read there)
        (course?_forceRoute read' there) rfl rfl rfl rfl rfl) nofun
      rw [forceRoute, forceRoute, after_handed read s, after_handed read' s]
      refine twin_handed (f := fun r c => c.forceRoute r) s _ _ (fun r c => ?_) (fun c => ?_) _ _
      · rfl
      · cases hc : c.savedRoute <;> simp [Character.forceRoute, Character.placeless, hc]
  | frames run first second ih => exact ih.frames hr first second
  | aside run first second same ih => exact ih.aside first second same
  | first run ended next ih => exact ih.first ended next
  | second run ended next ih => exact ih.second hr ended next

namespace Route.Before

variable {l : List Nat}

/-- Commands before the first stray alternative stand before it in the tidied route as well. -/
theorem lt_rank (h : r.Before l) {i : Nat} (hi : i ∈ l.map (rank r.kinds)) :
    i < rank r.kinds r.cut := by
  obtain ⟨j, hj, rfl⟩ := List.mem_map.1 hi
  exact Pairing.rank_lt_rank (kept_of_takes (h j hj).2) (h j hj).1

/-- They are the same commands in the tidied route. -/
theorem map_steps (hr : r.Tidied r') (h : r.Before l) :
    (l.map (rank r.kinds)).map (r'.steps[·]?) = l.map (r.steps[·]?) := by
  rw [List.map_map]
  exact List.map_congr_left fun i hi => hr.step (kept_of_takes (h i hi).2)

end Route.Before

namespace Aligned

/-- The first pass has taken the commands that the second has taken before the first stray
alternative. -/
theorem taken_eq_filter (h : Aligned who r r' a a') :
    a.taken.map (rank r.kinds) = a'.taken.filter (· < rank r.kinds r.cut) := by
  cases h with
  | together step before =>
      exact (List.filter_eq_self.2 fun i hi => by simpa using before.lt_rank hi).symm
  | done ended before =>
      exact (List.filter_eq_self.2 fun i hi => by simpa using before.lt_rank hi).symm
  | alone before cut behind on =>
      rw [List.filter_append, List.filter_eq_self.2 fun i hi => by simpa using before.lt_rank hi,
        List.filter_eq_nil_iff.2 fun i hi => by simpa using behind i hi, List.append_nil]

/-- The commands are the same just if none is taken behind the first stray alternative. -/
theorem taken_same_iff (hr : r.Tidied r') (h : Aligned who r r' a a') :
    a.taken.map (r.steps[·]?) = a'.taken.map (r'.steps[·]?) ↔
      ∀ i ∈ a'.taken, i < rank r.kinds r.cut := by
  cases h with
  | together step before =>
      exact iff_of_true (before.map_steps hr).symm fun i hi => before.lt_rank hi
  | done ended before =>
      exact iff_of_true (before.map_steps hr).symm fun i hi => before.lt_rank hi
  | @alone s t l more p before cut behind on =>
      constructor
      · intro heq i hi
        have hnil : more = [] := by
          rw [List.map_append, before.map_steps hr] at heq
          exact List.map_eq_nil_iff.1 (List.self_eq_append_right.1 heq)
        rw [hnil, List.append_nil] at hi
        exact before.lt_rank hi
      · intro hall
        have hnil : more = [] := List.eq_nil_iff_forall_not_mem.2 fun i hi =>
          absurd (hall i (List.mem_append_right _ hi)) (not_lt.2 (behind i hi))
        rw [hnil, List.append_nil, before.map_steps hr]

/-- Without a stray alternative both passes are over together. -/
theorem progress_eq (h : Aligned who r r' a a') (hcut : r.cut = r.length) :
    a'.progress = a.progress ∧ ∀ i ∈ a'.taken, i < rank r.kinds r.cut := by
  cases h with
  | together step before => exact ⟨rfl, fun i hi => before.lt_rank hi⟩
  | done ended before => exact ⟨rfl, fun i hi => before.lt_rank hi⟩
  | alone before cut => exact absurd cut (by omega)

/-- A stray marker on the way of the first pass. -/
theorem runLine_stray (hr : r.Tidied r') (h : Aligned who r r' a a') (under : a.progress = .underway)
    {way : List Visit} {u : Session} (strides : Strides who r a.session way u) (once : .again ∉ way)
    {line : RouteInstruction} (hline : r.steps[place who u]? = some (.script line))
    (hs : Stray r.kinds (place who u)) :
    (u.character who).branches = [true] ∧ ∃ notices, runLine who r (place who u) line u =
      .ok (if kindAt r.kinds (place who u) = some .closing then place who u + 1 else r.length)
        { u with notices } := by
  cases h with
  | done ended => exact absurd under ended
  | alone => cases under
  | together step before =>
      obtain ⟨-, v, -, -, -, -, hstep | hleft⟩ := step.strides hr strides once
      · have hb := hstep.branches_stray hs
        refine ⟨hb, ?_⟩
        have hkind := Route.kindAt_kinds hline
        rcases hs.1 with hk | hk
        · obtain ⟨notices, hrun⟩ := Play.runLine_stray (r := r) hb
            (show line.marker? = _ from hkind.symm.trans hk) nofun (place who u)
          rw [if_neg nofun, hr.paired.leaveTarget_stray hs] at hrun
          exact ⟨notices, by rw [hrun, hk, if_neg nofun]⟩
        · obtain ⟨notices, hrun⟩ := Play.runLine_stray (r := r) hb
            (show line.marker? = _ from hkind.symm.trans hk) nofun (place who u)
          rw [if_pos rfl] at hrun
          exact ⟨notices, by rw [hrun, hk, if_pos rfl]⟩
      · rw [hleft.ended, Route.length, List.getElem?_length] at hline
        cases hline

end Aligned

end Passes

/-- **Stray markers do nothing just as long as no command behind a stray alternative is taken without
them.**  The stray markers are the ones that are reported when the route is read.  A pass through the
route and one through the route without them, side by side, have taken the same commands exactly if
the second has taken none behind the first stray alternative; what the first has taken is what the
second has taken before that place, and without stray alternatives both passes come to their ends
together.  At any time of the first pass a stray marker leaves the stack as it was, and leads to the
line that follows if it is a closing one, and to the end of the route if it is an alternative. -/
theorem Route.strays_idle_iff {v : Json} {r : Route} (read : (Route.read v).result = .ok (some r)) :
    ∃ r', (Route.read (Route.tidied v)).result = .ok (some r') ∧
      (∀ i, (Notice.elseWithoutIf i ∈ r.notices ∨ Notice.endWithoutIf i ∈ r.notices) ↔
        Stray (Route.written v) i) ∧
      ∀ (who : CharacterId) (a a' : Leg), Abreast who v (Route.tidied v) r r' a a' →
        (a.taken.map (r.steps[·]?) = a'.taken.map (r'.steps[·]?) ↔
          ∀ i ∈ a'.taken, i < rank r.kinds r.cut) ∧
        a.taken.map (rank r.kinds) = a'.taken.filter (· < rank r.kinds r.cut) ∧
        (r.cut = r.length → a'.progress = a.progress ∧
          a.taken.map (r.steps[·]?) = a'.taken.map (r'.steps[·]?)) ∧
        (a.progress = .underway → ∀ way u, Strides who r a.session way u → .again ∉ way →
          ∀ line, r.steps[place who u]? = some (.script line) → Stray r.kinds (place who u) →
            (u.character who).branches = [true] ∧ ∃ notices,
              runLine who r (place who u) line u =
                .ok (if kindAt r.kinds (place who u) = some .closing then place who u + 1
                  else r.length) { u with notices }) := by
  obtain ⟨r', read', hr⟩ := Route.read_tidied read
  refine ⟨r', read', fun i => Route.kinds_of_read read ▸ Route.reported_of_read read i,
    fun who a a' run => ?_⟩
  have h := run.aligned read read' hr
  have hsame := h.taken_same_iff hr
  refine ⟨hsame, h.taken_eq_filter, fun hcut => ?_, fun under way u hway once line hline hs => ?_⟩
  · obtain ⟨hprogress, hall⟩ := h.progress_eq hcut
    exact ⟨hprogress, hsame.2 hall⟩
  · exact h.runLine_stray hr under hway once hline hs

/-- A pass that comes to the end of its route in one frame. -/
theorem Leg.frame_of_end {who : CharacterId} {r : Route} {s : Session} {way : List Visit}
    (calm : (s.character who).waitCount = 0) (once : .again ∉ way)
    (h : ∃ u, Strides who r s way u ∧ place who u = r.length) :
    Leg.Frame who r ⟨s, [], .underway⟩ ⟨(walk who).after s, r.taken way, .ended⟩ := by
  obtain ⟨u, strides, hplace⟩ := h
  have hnone : r.steps[place who u]? = none := by
    rw [hplace, Route.length, List.getElem?_length]
  have htaken : [] ++ (r.taken way ++ [place who u].filter r.takes) = r.taken way := by
    have htakes : r.takes (place who u) = false := by rw [Route.takes, hnone]
    simp [htakes]
  exact htaken ▸ .go calm strides once (.ended (.inl hnone))

/-- A route of a stray closing marker and an effect. -/
theorem Route.strays_idle_closing :
    let v : Json := .obj [("list", .arr [
      .obj [("code", .int 45), ("parameters", .arr [.str "rbEnd()"])],
      .obj [("code", .int 45), ("parameters", .arr [.str "unsetSe()"])]])]
    ∃ r r' a a', (Route.read v).result = .ok (some r) ∧
      (Route.read (Route.tidied v)).result = .ok (some r') ∧
      Abreast .player v (Route.tidied v) r r' a a' ∧ a.taken = [1] ∧ a'.taken = [0] ∧
      a.taken.map (r.steps[·]?) = a'.taken.map (r'.steps[·]?) := by
  intro v
  have read : (Route.read v).result = .ok (some (.ofSteps [.script .endIf, .script .unsetSound] false
    false false [])) := rfl
  have read' : (Route.read (Route.tidied v)).result = .ok (some (.ofSteps [.script .unsetSound] false
    false false [])) := rfl
  obtain ⟨r', hr', -, hall⟩ := Route.strays_idle_iff read
  obtain rfl : r' = .ofSteps [.script .unsetSound] false false false [] := by
    rw [read'] at hr'
    cases hr'
    rfl
  have there : ({} : Session).course? .player = some ({} : Character).course := rfl
  have way : Leg.Frame .player (.ofSteps [.script .endIf, .script .unsetSound] false false false [])
      ⟨(setRoute .player v).after {}, [], .underway⟩ _ :=
    Leg.frame_of_end rfl (show Visit.again ∉ [.line 0 1, .line 1 2] by decide)
      ⟨_, .line rfl rfl (.line rfl rfl (.here _)), rfl⟩
  have way' : Leg.Frame .player (.ofSteps [.script .unsetSound] false false false [])
      ⟨(setRoute .player (Route.tidied v)).after {}, [], .underway⟩ _ :=
    Leg.frame_of_end rfl (show Visit.again ∉ [.line 0 1] by decide) ⟨_, .line rfl rfl (.here _), rfl⟩
  have run := Abreast.frames (.given there) way way'
  exact ⟨_, _, _, _, read, read', run, rfl, rfl, (hall _ _ _ run).1.2 (by decide)⟩

/-- **A stray alternative ends the route.**  Of a route of a stray alternative and a turn nothing is
taken, while the turn is taken where the marker is left out. -/
theorem Route.strays_not_idle_alternative :
    let v : Json := .obj [("list", .arr [
      .obj [("code", .int 45), ("parameters", .arr [.str "rbElse()"])],
      .obj [("code", .int 19)], .obj [("code", .int 0)]])]
    ∃ r r' a a', (Route.read v).result = .ok (some r) ∧
      (Route.read (Route.tidied v)).result = .ok (some r') ∧
      Abreast .player v (Route.tidied v) r r' a a' ∧ a.progress = .ended ∧ a.taken = [] ∧
      a'.taken = [0] := by
  intro v
  have read : (Route.read v).result = .ok (some (.ofSteps [.script (.orElse none), .move (.turn 8),
    .finish] false false false [])) := rfl
  have read' : (Route.read (Route.tidied v)).result = .ok (some (.ofSteps [.move (.turn 8), .finish]
    false false false [])) := rfl
  have there : ({} : Session).course? .player = some ({} : Character).course := rfl
  have way : Leg.Frame .player
      (.ofSteps [.script (.orElse none), .move (.turn 8), .finish] false false false [])
      ⟨(setRoute .player v).after {}, [], .underway⟩ _ :=
    Leg.frame_of_end rfl (show Visit.again ∉ [.line 0 3] by decide) ⟨_, .line rfl rfl (.here _), rfl⟩
  have turned : Halts .player (.ofSteps [.move (.turn 8), .finish] false false false [])
      ((setRoute .player (Route.tidied v)).after {})
      (walk .player ((setRoute .player (Route.tidied v)).after {})) .underway := by
    obtain ⟨t, run, hwalk⟩ : ∃ t, takeStep .player (.turn 8)
        ((setRoute .player (Route.tidied v)).after {}) = .ok () t ∧
        walk .player ((setRoute .player (Route.tidied v)).after {}) =
          .ok () (if (t.character .player).moveSucceeded || false
            then t.updateCharacter .player fun c => { c with routeIndex := c.routeIndex + 1 } else t) :=
      ⟨_, rfl, rfl⟩
    rw [hwalk]
    exact .step (.step rfl run)
  have run := Abreast.frames (.given there) way (.go rfl (.here _) (by decide) turned)
  exact ⟨_, _, _, _, read, read', run, rfl, rfl, rfl⟩

end EventLayer
