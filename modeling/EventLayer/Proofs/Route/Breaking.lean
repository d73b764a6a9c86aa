/-
**What a bad script line breaks.**

A line that is misspelled costs a route that line, and no more: the other lines are read as they are.
Only a condition that fits a form and still denotes nothing keeps the whole route from being read,
and those are written with a number of too many digits or with another `i` in the name of a direction.

Main definitions:

* `Answered` — a result, or the word that something is misspelled;
* `Route.Malformed` — a command with a misspelled line;
* `Route.Cleared` — the same commands without the malformed ones.

Main results:

* `RouteCondition.balks_iff` — **which conditions balk**;
* `Route.reads_around_malformed` — **which conditions, lines and routes are answered**, and that
  malformed lines change nothing elsewhere.
-/
import EventLayer.Proofs.Route.Spelling
import EventLayer.Proofs.Route.Written

set_option autoImplicit false
set_option relaxedAutoImplicit false

namespace EventLayer

/-! ### Answers -/

/-- A reading is answered if it comes to a result or finds something misspelled. -/
def Answered {α : Type} (x : Except Fault α) : Prop :=
  (∃ a, x = .ok a) ∨ ∃ reason, x = .error (.invalidScript reason)

theorem answered_iff {α : Type} {x : Except Fault α} :
    Answered x ↔ ¬∃ e : Fault, x = .error e ∧ e.Foreign := by
  cases x with
  | ok a =>
      refine iff_of_true (.inl ⟨a, rfl⟩) ?_
      rintro ⟨_, h, -⟩
      cases h
  | error e =>
      constructor
      · rintro (⟨a, h⟩ | ⟨reason, h⟩) ⟨e', h', hforeign⟩
        · cases h
        · cases h'
          exact hforeign reason (Except.error.inj h)
      · intro h
        by_contra hnot
        exact h ⟨e, rfl, fun reason heq => hnot (.inr ⟨reason, congrArg Except.error heq⟩)⟩

namespace RouteCondition

variable {text : String}

/-- **Which conditions balk**: those that are spelled, and denote nothing. -/
theorem balks_iff : Balks text ↔ ∃ w : Wording, w.Spells text ∧ w.Faulty := by
  constructor
  · rintro ⟨e, he, hforeign⟩
    by_cases hwritten : ∃ w : Wording, w.Spells text
    · obtain ⟨w, hw⟩ := hwritten
      rw [parse_of_spells hw] at he
      refine ⟨w, hw, ?_⟩
      by_contra hsound
      obtain ⟨c, hc⟩ := (Wording.exists_meaning_iff (Wording.spells_iff.1 hw).1).2 hsound
      rw [hc] at he
      cases he
    · rw [parse_of_unwritten (not_exists.1 hwritten)] at he
      cases he
      exact absurd rfl (hforeign _)
  · rintro ⟨w, hw, hfaulty⟩
    cases hmeaning : w.meaning with
    | ok c =>
        exact absurd hfaulty ((Wording.exists_meaning_iff (Wording.spells_iff.1 hw).1).1 ⟨c, hmeaning⟩)
    | error e => exact ⟨e, (parse_of_spells hw).trans hmeaning, Wording.foreign_of_meaning hmeaning⟩

theorem not_balks_iff : ¬Balks text ↔ ∀ w : Wording, w.Spells text → ¬w.Faulty := by
  rw [balks_iff]
  simp only [not_exists, not_and]

end RouteCondition

/-- A line is answered unless its condition balks. -/
theorem RouteInstruction.answered_iff {line : String} : Answered (parse (some line)) ↔
    ∀ text, (ScriptCall.parse? line).bind ScriptCall.condition? = some text → ¬RouteCondition.Balks text := by
  rw [EventLayer.answered_iff, RouteInstruction.parse, show (some line : Option String).getD "" = line from rfl]
  cases ScriptCall.parse? line with
  | none =>
      refine iff_of_true ?_ ?_
      · rintro ⟨_, h, -⟩
        cases h
      · intro _ h
        cases h
  | some call =>
      have herror : ∀ e : Fault, (do return some (← ofCall call) : Except Fault (Option RouteInstruction)) =
          .error e ↔ ofCall call = .error e := by
        intro e
        rw [Except.bind_eq_error_iff]
        exact or_iff_left (by rintro ⟨_, -, h⟩; cases h)
      simp only [herror, ofCall_foreign_iff, Option.bind_some, not_exists, not_and]

namespace Route

/-! ### Steps by themselves -/

/-- A line that is read becomes its instruction. -/
theorem step_of_line {command : Json} {step : RouteStep} {text : String} {line : RouteInstruction}
    (htext : scriptText? command = some text) (h : RouteInstruction.parse (some text) = .ok (some line))
    (hstep : (readStep 0 command).result = .ok step) : step = .script line := by
  cases command with
  | obj fields =>
      rw [scriptText?] at htext
      rw [readStep_eq] at hstep
      by_cases hcode : ((OrderedMap.find "code" fields).getD .null).isInt scriptCode = true
      · rw [if_pos hcode] at htext hstep
        obtain ⟨v, hv, hread⟩ := Reading.bind_eq_ok hstep
        rw [result_liftM] at hv
        rw [hv] at htext
        cases htext
        obtain ⟨found, hfound, hstep⟩ := Reading.bind_eq_ok hread
        rw [readScript, h] at hfound
        cases hfound
        exact (Except.ok.inj hstep).symm
      · rw [if_neg hcode] at htext
        cases htext
  | _ => cases hstep

/-! ### Routes without their malformed lines -/

/-- A command whose line is misspelled. -/
def Malformed (command : Json) : Prop :=
  ∃ text reason, scriptText? command = some text ∧
    RouteInstruction.parse (some text) = .error (.invalidScript reason)

/-- The commands of one route without the malformed ones, in whose places stand others that are no
script lines of this layer. -/
def Cleared (v v' : Json) : Prop :=
  List.Forall₂ (fun c c' => c' = c ∨ Malformed c ∧ call? c' = none) (commands v) (commands v')

/-- Where malformed lines are taken out, no condition is put in. -/
theorem condition_of_cleared {v v' c' : Json} (h : Cleared v v') (hc' : c' ∈ commands v') {text : String}
    (htext : condition? c' = some text) : c' ∈ commands v := by
  rw [Cleared] at h
  generalize commands v = l at h ⊢
  generalize commands v' = l' at h hc'
  induction h with
  | nil => cases hc'
  | cons hpair _ ih =>
      rcases List.mem_cons.1 hc' with rfl | hc'
      · rcases hpair with rfl | ⟨-, hnone⟩
        · exact List.mem_cons_self
        · rw [condition?, hnone] at htext
          cases htext
      · exact List.mem_cons_of_mem _ (ih hc')

/-- What is not malformed stands where it stood. -/
theorem getElem?_of_cleared {v v' c : Json} (h : Cleared v v') {i : Nat} (hc : (commands v)[i]? = some c)
    (hsound : ¬Malformed c) : (commands v')[i]? = some c := by
  rw [Cleared] at h
  generalize commands v = l at h hc
  generalize commands v' = l' at h ⊢
  induction h generalizing i with
  | nil => cases hc
  | cons hpair _ ih =>
      cases i with
      | zero =>
          cases hc
          rcases hpair with rfl | ⟨hmalformed, -⟩
          · rfl
          · exact absurd hmalformed hsound
      | succ i => exact ih hc

/-- **What bad lines break.**  A condition is answered unless it is spelled by a faulty wording, a line
unless its condition is, and a route can be read unless a condition of its lines is.  Of a route that
is read, every well-formed line becomes its instruction, and the other commands than the malformed
ones are read as they are where these are taken out. -/
theorem reads_around_malformed (text line : String) (v : Json) :
    (Answered (RouteCondition.parse (some text)) ↔ ∀ w : Wording, w.Spells text → ¬w.Faulty) ∧
      (Answered (RouteInstruction.parse (some line)) ↔
        ∀ condition, (ScriptCall.parse? line).bind ScriptCall.condition? = some condition →
          ∀ w : Wording, w.Spells condition → ¬w.Faulty) ∧
      (Orderly v → ((∃ r, (Route.read v).result = .ok (some r)) ↔
        ∀ c ∈ commands v, ∀ condition, condition? c = some condition →
          ∀ w : Wording, w.Spells condition → ¬w.Faulty)) ∧
      ∀ r, (Route.read v).result = .ok (some r) →
        (∀ (i : Nat) c script instruction, (commands v)[i]? = some c → scriptText? c = some script →
          RouteInstruction.parse (some script) = .ok (some instruction) →
          r.steps[i]? = some (RouteStep.script instruction)) ∧
        ∀ v', Orderly v → Orderly v' → Cleared v v' →
          ∃ r', (Route.read v').result = .ok (some r') ∧
            ∀ (i : Nat) c, (commands v)[i]? = some c → ¬Malformed c → r'.steps[i]? = r.steps[i]? := by
  refine ⟨?_, ?_, fun hv => ?_, fun r hr => ⟨?_, ?_⟩⟩
  · rw [answered_iff]
    exact RouteCondition.not_balks_iff
  · rw [RouteInstruction.answered_iff]
    simp only [RouteCondition.not_balks_iff]
  · rw [read_iff hv]
    simp only [RouteCondition.not_balks_iff]
  · intro i c script instruction hc hscript hinstruction
    obtain ⟨step, hstep, hread⟩ := getElem?_steps hr hc
    rw [hstep, step_of_line hscript hinstruction hread]
  · intro v' hv hv' hcleared
    have hsound := (read_iff hv).1 ⟨r, hr⟩
    obtain ⟨r', hr'⟩ := (read_iff hv').2 fun c' hc' text htext =>
      hsound c' (condition_of_cleared hcleared hc' htext) text htext
    refine ⟨r', hr', fun i c hc hc' => ?_⟩
    -- what a command is read as is decided by the command alone
    obtain ⟨step, hstep, hread⟩ := getElem?_steps hr hc
    obtain ⟨step', hstep', hread'⟩ := getElem?_steps hr' (getElem?_of_cleared hcleared hc hc')
    rw [hstep, hstep', Except.ok.inj (hread'.symm.trans hread)]

/-- A chain behind a misspelled condition, with and without it. -/
theorem reads_around_malformed_sometimes :
    let line (text : String) : Json := .obj [("code", .int 45), ("parameters", .arr [.str text])]
    let rest : List Json := [line "rbIf(near( 3 ))", .obj [("code", .int 9)], line "rbEnd()"]
    let v : Json := .obj [("list", .arr (line "rbIf(sometimes)" :: rest))]
    let v' : Json := .obj [("list", .arr (.obj [("code", .int 2)] :: rest))]
    Orderly v ∧ Orderly v' ∧ Cleared v v' ∧ Answered (RouteInstruction.parse (some "rbIf(sometimes)")) ∧
      ∃ r r', (Route.read v).result = .ok (some r) ∧ (Route.read v').result = .ok (some r') ∧
        r.steps[1]? = some (.script (.openIf (.playerWithin 3 true))) ∧ r'.steps[1]? = r.steps[1]? := by
  intro line rest v v'
  obtain ⟨hfirst, hline, hroute, hsteps⟩ :=
    reads_around_malformed "sometimes" "rbIf(sometimes)" v
  obtain ⟨hsecond, -⟩ := reads_around_malformed "near( 3 )" "rbEnd()" v'
  have hrest : ∀ c ∈ rest, OrderlyCommand c := by
    simp only [rest, List.forall_mem_cons]
    exact ⟨⟨_, rfl, fun _ => rfl⟩, ⟨_, rfl, nofun⟩, ⟨_, rfl, fun _ => rfl⟩, nofun⟩
  have hv : Orderly v := ⟨_, _, rfl, rfl, List.forall_mem_cons.2 ⟨⟨_, rfl, fun _ => rfl⟩, hrest⟩⟩
  have hv' : Orderly v' := ⟨_, _, rfl, rfl, List.forall_mem_cons.2 ⟨⟨_, rfl, nofun⟩, hrest⟩⟩
  have hsometimes : RouteInstruction.parse (some "rbIf(sometimes)") =
      .error (.invalidScript (.unrecognizedCondition (some "sometimes"))) := by
    decide +kernel
  have hmalformed : Malformed (line "rbIf(sometimes)") := ⟨_, _, rfl, hsometimes⟩
  have hcleared : Cleared v v' :=
    .cons (.inr ⟨hmalformed, rfl⟩) (.cons (.inl rfl) (.cons (.inl rfl) (.cons (.inl rfl) .nil)))
  have hsound : ∀ c ∈ commands v, ∀ text, condition? c = some text →
      ∀ w : Wording, w.Spells text → ¬w.Faulty := by
    intro c hc text htext
    have hmem : text ∈ (commands v).filterMap condition? := List.mem_filterMap.2 ⟨c, hc, htext⟩
    have heq : (commands v).filterMap condition? = ["sometimes", "near( 3 )"] := rfl
    rw [heq, List.mem_pair] at hmem
    rcases hmem with rfl | rfl
    · exact hfirst.1 (.inr ⟨.unrecognizedCondition (some "sometimes"), by decide +kernel⟩)
    · exact hsecond.1 (.inl ⟨.playerWithin 3 true, by decide +kernel⟩)
  obtain ⟨r, hr⟩ := (hroute hv).2 hsound
  obtain ⟨hwritten, haround⟩ := hsteps r hr
  obtain ⟨r', hr', hsame⟩ := haround v' hv hv' hcleared
  have hnear : RouteInstruction.parse (some "rbIf(near( 3 ))") =
      .ok (some (.openIf (.playerWithin 3 true))) := by
    decide +kernel
  refine ⟨hv, hv', hcleared, hline.2 ?_, r, r', hr, hr', hwritten 1 _ _ _ rfl rfl hnear,
    hsame 1 _ rfl ?_⟩
  · intro text htext
    exact hsound _ List.mem_cons_self text htext
  · rintro ⟨text, reason, htext, hparse⟩
    cases htext
    exact absurd (hnear.symm.trans hparse) nofun

/-- **Not every condition is answered**: one names a direction with a letter that only counts as one of
the name's letters. -/
theorem not_answered_dotless : ¬∀ text, Answered (RouteCondition.parse (some text)) := by
  intro hevery
  have hparse : RouteCondition.parse (some "facing(r\u0131ght)") = .error .missingKey := by
    decide +kernel
  rcases hevery "facing(r\u0131ght)" with ⟨c, hc⟩ | ⟨reason, hreason⟩
  · rw [hparse] at hc
    cases hc
  · rw [hparse] at hreason
    cases hreason

end Route

end EventLayer
