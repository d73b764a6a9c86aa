/-
**The markers of a route as they are written.**

Which part a line of a route plays in a chain of branches is decided by the name that it calls, not by
its arguments: a branch whose condition cannot be read still opens or continues its chain, and only
its branch is never taken.  So the markers of a route can be told from the editor's data alone.

A condition that fits no form is such a one.  One that balks is not: a route that has such a
condition cannot be read at all.

Main definitions:

* `Route.commands`, `Route.written` — the commands of a route and its markers, from the editor's data;
* `Route.Misspelled` — a branch whose condition cannot be read, and counts as false;
* `Route.Orderly` — routes as the editor writes them.

Main results:

* `Route.kinds_of_read` — **the markers of a route that was read are those written**;
* `Route.getElem?_steps` — the step at a position is what the command there is read as;
* `Route.step_of_misspelled` — what becomes of a misspelled branch;
* `Route.reported_of_read` — the lines of a route that are reported when it is read;
* `Route.read_iff` — **which routes can be read**.
-/
import EventLayer.Proofs.Results
import EventLayer.Proofs.Route.Conditions
import EventLayer.Proofs.Route.Strides

set_option autoImplicit false
set_option relaxedAutoImplicit false

namespace EventLayer

/-! ### Calls -/

/-- The part that a line with a call of a name plays in a chain of branches. -/
def ScriptName.marker? : ScriptName → Option MarkerKind
  | .openIf => some .opening
  | .orElse => some .alternative
  | .endIf => some .closing
  | _ => none

/-- The condition text of a branch, if it has one. -/
def ScriptCall.condition? (call : ScriptCall) : Option String :=
  if (call.name = .openIf ∨ call.name = .orElse) ∧ call.args ≠ "" then some call.args else none

namespace RouteInstruction

/-- The part that a line plays follows from the name it calls. -/
theorem marker?_ofCall {call : ScriptCall} {line : RouteInstruction} (h : ofCall call = .ok line) :
    line.marker? = call.name.marker? := by
  obtain ⟨name, args⟩ := call
  cases name with
  | openIf =>
      simp only [ofCall] at h
      split at h
      · cases h
      · obtain ⟨c, -, h⟩ := Except.bind_eq_ok h
        cases h
        rfl
  | orElse =>
      simp only [ofCall] at h
      split at h
      · cases h
        rfl
      · obtain ⟨c, -, h⟩ := Except.bind_eq_ok h
        cases h
        rfl
  | endIf =>
      cases h
      rfl
  | setSound =>
      simp only [ofCall] at h
      split at h
      · cases h
      · obtain ⟨_, -, h⟩ := Except.bind_eq_ok h
        obtain ⟨_, -, h⟩ := Except.bind_eq_ok h
        cases h
        rfl
  | unsetSound =>
      cases h
      rfl
  | unsetBalloon =>
      cases h
      rfl
  | setBalloon =>
      obtain ⟨_, -, h⟩ := Except.bind_eq_ok h
      cases h
      rfl
  | showBalloon =>
      obtain ⟨_, -, h⟩ := Except.bind_eq_ok h
      cases h
      rfl

/-- A number among the arguments that cannot be read is a misspelling. -/
theorem not_foreign_intArg {name : ScriptName} {args : List String} {i : Nat} {d : Int} {e : Fault}
    (h : (intArg name args i d).mapError Fault.invalidScript = .error e) : ¬e.Foreign := by
  cases ha : intArg name args i d with
  | ok n =>
      rw [ha] at h
      cases h
  | error reason =>
      rw [ha] at h
      cases h
      exact fun hf => hf reason rfl

/-- **Only a condition makes a line fail for another reason than being misspelled.** -/
theorem ofCall_foreign_iff (call : ScriptCall) :
    (∃ e : Fault, ofCall call = .error e ∧ e.Foreign) ↔
      ∃ text, call.condition? = some text ∧ RouteCondition.Balks text := by
  obtain ⟨name, args⟩ := call
  have hcondition : ∀ {β : Type} (f : RouteCondition → β) (e : Fault),
      (do return f (← RouteCondition.parse (some args)) : Except Fault β) = .error e ↔
        RouteCondition.parse (some args) = .error e := by
    intro β f e
    rw [Except.bind_eq_error_iff]
    exact or_iff_left (by rintro ⟨c, -, h⟩; cases h)
  cases name with
  | openIf =>
      by_cases ha : args = ""
      · subst ha
        constructor
        · rintro ⟨e, he, hf⟩
          cases he
          exact absurd rfl (hf _)
        · rintro ⟨text, ht, -⟩
          cases ht
      · simp only [ofCall, ha, if_false, hcondition, ScriptCall.condition?, ne_eq,
          not_false_eq_true, true_or, and_self, if_true, Option.some_inj, exists_eq_left']
        rfl
  | orElse =>
      by_cases ha : args = ""
      · subst ha
        constructor
        · rintro ⟨e, he, -⟩
          cases he
        · rintro ⟨text, ht, -⟩
          cases ht
      · simp only [ofCall, ha, if_false, hcondition, ScriptCall.condition?, ne_eq,
          not_false_eq_true, or_true, and_self, if_true, Option.some_inj, exists_eq_left']
        rfl
  | setSound =>
      refine iff_of_false ?_ (by rintro ⟨text, ht, -⟩; simp [ScriptCall.condition?] at ht)
      rintro ⟨e, he, hf⟩
      simp only [ofCall] at he
      split at he
      · cases he
        exact hf _ rfl
      · rcases Except.bind_eq_error_iff.1 he with he | ⟨_, -, he⟩
        · exact not_foreign_intArg he hf
        · rcases Except.bind_eq_error_iff.1 he with he | ⟨_, -, he⟩
          · exact not_foreign_intArg he hf
          · cases he
  | setBalloon | showBalloon =>
      refine iff_of_false ?_ (by rintro ⟨text, ht, -⟩; simp [ScriptCall.condition?] at ht)
      rintro ⟨e, he, hf⟩
      rcases Except.bind_eq_error_iff.1 he with he | ⟨_, -, he⟩
      · exact not_foreign_intArg he hf
      · cases he
  | endIf | unsetSound | unsetBalloon =>
      refine iff_of_false ?_ (by rintro ⟨text, ht, -⟩; simp [ScriptCall.condition?] at ht)
      rintro ⟨e, he, -⟩
      cases he

end RouteInstruction

/-! ### Commands -/

namespace Route

/-- The text of a script line, if a command is one. -/
def scriptText? (command : Json) : Option String :=
  match command with
  | .obj fields =>
    if ((OrderedMap.find "code" fields).getD .null).isInt scriptCode then
      match (((OrderedMap.find "parameters" fields).getD .null).orElse (.arr [.str ""])).item 0 with
      | .ok v => some v.text
      | .error _ => none
    else none
  | _ => none

/-- The call that a command makes, if it is a script line of this layer. -/
def call? (command : Json) : Option ScriptCall := (scriptText? command).bind ScriptCall.parse?

/-- The part that a command plays in a chain of branches, from the name that it calls. -/
def marker? (command : Json) : Option MarkerKind := (call? command).bind fun c => c.name.marker?

/-- The condition text of a command, if it begins a branch under a condition. -/
def condition? (command : Json) : Option String := (call? command).bind ScriptCall.condition?

/-- The commands that the editor's data list. -/
def commands (v : Json) : List Json :=
  match v with
  | .obj fields =>
    match (((OrderedMap.find "list" fields).getD .null).orElse (.arr [])).elements with
    | .ok items => items
    | .error _ => []
  | _ => []

/-- The parts that the commands play in chains of branches, from the editor's data. -/
def written (v : Json) : List (Option MarkerKind) := (commands v).map marker?

/-- A command that begins a branch whose condition cannot be read. -/
def Misspelled (command : Json) : Prop :=
  ∃ call reason, call? command = some call ∧ (call.name = .openIf ∨ call.name = .orElse) ∧
    RouteInstruction.ofCall call = .error (.invalidScript reason)

/-- What a branch becomes whose condition cannot be read. -/
def NeverTaken (step : RouteStep) : Prop :=
  step = .script (.openIf (.const false)) ∨ step = .script (.orElse (some (.const false)))

/-! ### One command -/

/-- A script line of this layer is read as its call says. -/
theorem readScript_of_call {i : Nat} {text : String} {call : ScriptCall}
    (h : ScriptCall.parse? text = some call) :
    (readScript i text).result =
      match RouteInstruction.ofCall call with
      | .ok line => .ok (some line)
      | .error (.invalidScript _) => .ok (RouteInstruction.neverTaken? text)
      | .error e => .error e := by
  have hparse : RouteInstruction.parse (some text) =
      (do return some (← RouteInstruction.ofCall call)) := by
    rw [RouteInstruction.parse, show (some text : Option String).getD "" = text from rfl, h]
  rw [readScript, hparse]
  cases RouteInstruction.ofCall call with
  | ok line => rfl
  | error e =>
      cases e with
      | invalidScript reason =>
          generalize RouteInstruction.neverTaken? text = marker
          cases marker <;> rfl
      | _ => rfl

/-- Any other script line is left alone. -/
theorem readScript_of_none {i : Nat} {text : String} (h : ScriptCall.parse? text = none) :
    (readScript i text).result = .ok none := by
  have hparse : RouteInstruction.parse (some text) = .ok none := by
    rw [RouteInstruction.parse, show (some text : Option String).getD "" = text from rfl, h]
  rw [readScript, hparse]
  rfl

/-- The part of a misspelled line follows from the name it calls as well. -/
theorem marker?_neverTaken {text : String} {call : ScriptCall} {reason : ScriptError}
    (h : ScriptCall.parse? text = some call)
    (hof : RouteInstruction.ofCall call = .error (.invalidScript reason)) :
    (RouteInstruction.neverTaken? text).bind RouteInstruction.marker? = call.name.marker? := by
  rw [RouteInstruction.neverTaken?, h]
  obtain ⟨name, args⟩ := call
  cases name with
  | endIf => cases hof
  | _ => rfl

/-- A script line that is read plays the part that its call says. -/
theorem marker?_readScript {i : Nat} {text : String} {found : Option RouteInstruction}
    (h : (readScript i text).result = .ok found) :
    found.bind RouteInstruction.marker? =
      (ScriptCall.parse? text).bind fun c => c.name.marker? := by
  cases hcall : ScriptCall.parse? text with
  | none =>
      rw [readScript_of_none hcall] at h
      cases h
      rfl
  | some call =>
      rw [readScript_of_call hcall] at h
      cases hof : RouteInstruction.ofCall call with
      | ok line =>
          rw [hof] at h
          cases h
          exact RouteInstruction.marker?_ofCall hof
      | error e =>
          rw [hof] at h
          cases e with
          | invalidScript reason =>
              cases h
              exact marker?_neverTaken hcall hof
          | _ => cases h

/-- The step that a command becomes. -/
theorem readStep_eq {i : Nat} {fields : List (String × Json)} :
    readStep i (.obj fields) =
      if ((OrderedMap.find "code" fields).getD .null).isInt scriptCode then do
        let v ← (((OrderedMap.find "parameters" fields).getD .null).orElse (.arr [.str ""])).item 0
        match ← readScript i v.text with
        | some found => return .script found
        | none => return .move (Move.ofFields fields)
      else if ((OrderedMap.find "code" fields).getD .null).isInt endCode then return .finish
      else return .move (Move.ofFields fields) := rfl

theorem result_liftM {α : Type} (r : Except Fault α) : (liftM r : Reading α).result = r := rfl

/-- **A command that is read plays the part that is written.** -/
theorem marker?_readStep {i : Nat} {command : Json} {step : RouteStep}
    (h : (readStep i command).result = .ok step) : step.marker? = marker? command := by
  cases command with
  | obj fields =>
      rw [readStep_eq] at h
      rw [marker?, call?, scriptText?]
      split at h
      · next hcode =>
          rw [if_pos hcode]
          obtain ⟨v, hv, h⟩ := Reading.bind_eq_ok h
          rw [result_liftM] at hv
          obtain ⟨found, hfound, h⟩ := Reading.bind_eq_ok h
          have hmarker := marker?_readScript hfound
          rw [hv]
          cases found with
          | none =>
              cases h
              exact hmarker
          | some line =>
              cases h
              exact hmarker
      · next hcode =>
          rw [if_neg hcode]
          split at h <;> cases h <;> rfl
  | _ => cases h

/-- **A misspelled branch is kept as one that is never taken.** -/
theorem readStep_of_misspelled {i : Nat} {command : Json} {step : RouteStep} (hm : Misspelled command)
    (h : (readStep i command).result = .ok step) : NeverTaken step := by
  obtain ⟨call, reason, hcall, hname, hof⟩ := hm
  cases command with
  | obj fields =>
      rw [call?, scriptText?] at hcall
      rw [readStep_eq] at h
      split at h
      · next hcode =>
          rw [if_pos hcode] at hcall
          obtain ⟨v, hv, h⟩ := Reading.bind_eq_ok h
          rw [result_liftM] at hv
          rw [hv] at hcall
          obtain ⟨found, hfound, h⟩ := Reading.bind_eq_ok h
          rw [readScript_of_call hcall, hof] at hfound
          cases hfound
          rw [RouteInstruction.neverTaken?, show ScriptCall.parse? v.text = some call from hcall] at h
          rcases hname with hname | hname
          · rw [Option.map_some, hname] at h
            cases h
            exact .inl rfl
          · rw [Option.map_some, hname] at h
            cases h
            exact .inr rfl
      · next hcode =>
          rw [if_neg hcode] at hcall
          cases hcall
  | _ => cases h

/-- Where a line stands does not matter for what it is read as. -/
theorem result_readScript (i j : Nat) (text : String) :
    (readScript i text).result = (readScript j text).result := by
  cases hcall : ScriptCall.parse? text with
  | none => rw [readScript_of_none hcall, readScript_of_none hcall]
  | some call => rw [readScript_of_call hcall, readScript_of_call hcall]

theorem readStep_of_readStep {i : Nat} {c : Json} {step : RouteStep} (j : Nat)
    (h : (readStep i c).result = .ok step) : (readStep j c).result = .ok step := by
  cases c with
  | obj fields =>
      rw [readStep_eq] at h ⊢
      split at h
      · next hcode =>
          rw [if_pos hcode]
          obtain ⟨v, hv, h⟩ := Reading.bind_eq_ok h
          obtain ⟨found, hfound, h⟩ := Reading.bind_eq_ok h
          rw [Reading.result_bind_ok hv, Reading.result_bind_ok (result_readScript i j v.text ▸ hfound)]
          exact h
      · next hcode =>
          rw [if_neg hcode]
          exact h
  | _ => cases h

/-! ### All the commands -/

theorem readSteps_cons_eq_ok {i : Nat} {c : Json} {l : List Json} {steps : List RouteStep} :
    (readSteps i (c :: l)).result = .ok steps ↔
      ∃ step rest, (readStep i c).result = .ok step ∧ (readSteps (i + 1) l).result = .ok rest ∧
        steps = step :: rest := by
  constructor
  · intro h
    obtain ⟨step, hstep, h⟩ := Reading.bind_eq_ok h
    obtain ⟨rest, hrest, h⟩ := Reading.bind_eq_ok h
    cases h
    exact ⟨step, rest, hstep, hrest, rfl⟩
  · rintro ⟨step, rest, hstep, hrest, rfl⟩
    rw [readSteps, Reading.result_bind_ok hstep, Reading.result_bind_ok hrest]
    rfl

/-- The steps read stand where their commands do. -/
theorem forall₂_readSteps {i : Nat} {l : List Json} {steps : List RouteStep}
    (h : (readSteps i l).result = .ok steps) :
    List.Forall₂ (fun c step => ∃ j, (readStep j c).result = .ok step) l steps := by
  induction l generalizing i steps with
  | nil =>
      cases h
      exact .nil
  | cons c l ih =>
      obtain ⟨step, rest, hstep, hrest, rfl⟩ := readSteps_cons_eq_ok.1 h
      exact .cons ⟨i, hstep⟩ (ih hrest)

/-- The commands of an object, read one by one. -/
def readList (fields : List (String × Json)) : Reading (List RouteStep) := do
  readSteps 0 (← (((OrderedMap.find "list" fields).getD .null).orElse (.arr [])).elements)

/-- Whether a field of an object is set. -/
def flag (fields : List (String × Json)) (name : String) : Bool :=
  ((OrderedMap.find name fields).getD .null).truthy

theorem read_obj_eq_ok {fields : List (String × Json)} {r : Route} :
    (Route.read (.obj fields)).result = .ok (some r) ↔
      ∃ steps, (readList fields).result = .ok steps ∧
        r = ofSteps steps (flag fields "repeat") (flag fields "skippable") (flag fields "wait")
          (readList fields).notices := by
  constructor
  · intro h
    obtain ⟨r', hr, h⟩ := Reading.bind_eq_ok h
    cases h
    unfold ofFields at hr
    dsimp only at hr
    split at hr
    · cases hr
    · next steps hsteps =>
        cases hr
        exact ⟨steps, hsteps, rfl⟩
  · rintro ⟨steps, hsteps, rfl⟩
    rw [Route.read, Reading.result_bind_ok (a := ofSteps steps _ _ _ _)]
    · rfl
    · unfold readList at hsteps
      unfold ofFields
      dsimp only
      rw [hsteps]
      rfl

/-- A route that was read has the steps of its commands. -/
theorem forall₂_of_read {v : Json} {r : Route} (h : (Route.read v).result = .ok (some r)) :
    List.Forall₂ (fun c step => ∃ j, (readStep j c).result = .ok step) (commands v) r.steps := by
  cases v with
  | null => cases h
  | obj fields =>
      obtain ⟨steps, hlist, rfl⟩ := read_obj_eq_ok.1 h
      obtain ⟨items, hitems, hsteps⟩ := Reading.bind_eq_ok hlist
      rw [result_liftM] at hitems
      rw [commands, hitems]
      exact forall₂_readSteps hsteps
  | _ =>
      simp only [Route.read] at h
      split at h <;> cases h
      exact .nil

/-- **The markers of a route that was read are those written.** -/
theorem kinds_of_read {v : Json} {r : Route} (h : (Route.read v).result = .ok (some r)) :
    r.kinds = written v := by
  rw [kinds, written]
  have hall := forall₂_of_read h
  generalize commands v = l at hall
  generalize r.steps = steps at hall
  induction hall with
  | nil => rfl
  | cons hstep _ ih =>
      obtain ⟨j, hstep⟩ := hstep
      rw [List.map_cons, List.map_cons, ih, marker?_readStep hstep]

/-- **The step at a position is what the command there is read as.** -/
theorem getElem?_steps {v : Json} {r : Route} (h : (Route.read v).result = .ok (some r)) {i : Nat}
    {command : Json} (hc : (commands v)[i]? = some command) :
    ∃ step, r.steps[i]? = some step ∧ (readStep 0 command).result = .ok step := by
  have hall := forall₂_of_read h
  generalize commands v = l at hall hc
  generalize r.steps = steps at hall ⊢
  induction hall generalizing i with
  | nil => cases hc
  | cons hstep _ ih =>
      cases i with
      | zero =>
          obtain ⟨j, hstep⟩ := hstep
          cases hc
          exact ⟨_, rfl, readStep_of_readStep 0 hstep⟩
      | succ i => exact ih hc

/-- **What becomes of a misspelled branch.** -/
theorem step_of_misspelled {v : Json} {r : Route} (h : (Route.read v).result = .ok (some r)) {i : Nat}
    {command : Json} (hc : (commands v)[i]? = some command) (hm : Misspelled command) :
    ∃ step, r.steps[i]? = some step ∧ NeverTaken step := by
  obtain ⟨step, hstep, hread⟩ := getElem?_steps h hc
  exact ⟨step, hstep, readStep_of_misspelled hm hread⟩

/-! ### What is noticed -/

/-- What is noticed of a script line by itself. -/
inductive OfLine : Notice → Prop
  | neverTaken (i : Nat) (reason : ScriptError) : OfLine (.routeBranchNeverTaken i reason)
  | ignored (i : Nat) (reason : ScriptError) : OfLine (.routeLineIgnored i reason)

/-- What is read leaves no other notices than those of script lines by themselves. -/
def Quiet {α : Type} (x : Reading α) : Prop := ∀ n ∈ x.notices, OfLine n

theorem Quiet.bind {α β : Type} {x : Reading α} {f : α → Reading β} (hx : Quiet x)
    (hf : ∀ a, Quiet (f a)) : Quiet (x >>= f) := by
  intro n hn
  change n ∈ (Reading.andThen x f).notices at hn
  rw [Reading.andThen] at hn
  split at hn
  · next a _ => exact (List.mem_append.1 hn).elim (hx n) (hf a n)
  · exact hx n hn

theorem quiet_pure {α : Type} (a : α) : Quiet (pure a : Reading α) := nofun

theorem quiet_liftM {α : Type} (x : Except Fault α) : Quiet (liftM x : Reading α) := nofun

theorem quiet_readScript (i : Nat) (text : String) : Quiet (readScript i text) := by
  rw [readScript]
  split
  · exact quiet_pure _
  · next reason _ =>
      split <;> refine Quiet.bind (fun n hn => ?_) fun _ => quiet_pure _ <;>
        obtain rfl := List.mem_singleton.1 hn
      · exact .neverTaken i reason
      · exact .ignored i reason
  · exact nofun

theorem quiet_readStep (i : Nat) (c : Json) : Quiet (readStep i c) := by
  cases c with
  | obj fields =>
      rw [readStep_eq]
      split
      · refine (quiet_liftM _).bind fun v => (quiet_readScript i v.text).bind fun found => ?_
        cases found <;> exact quiet_pure _
      · split <;> exact quiet_pure _
  | _ => exact nofun

theorem quiet_readSteps (i : Nat) (l : List Json) : Quiet (readSteps i l) := by
  induction l generalizing i with
  | nil => exact quiet_pure _
  | cons c l ih => exact (quiet_readStep i c).bind fun _ => (ih _).bind fun _ => quiet_pure _

/-- **What is reported of the markers of a route that was read.** -/
theorem reported_of_read {v : Json} {r : Route} (h : (Route.read v).result = .ok (some r)) (i : Nat) :
    (Notice.elseWithoutIf i ∈ r.notices ∨ Notice.endWithoutIf i ∈ r.notices) ↔
      Pairing.Stray r.kinds i := by
  have hline : ∀ {x : Reading (List RouteStep)}, Quiet x →
      ((Notice.elseWithoutIf i ∈ x.notices ++ (Pairing.ofKinds r.kinds).notices ∨
        Notice.endWithoutIf i ∈ x.notices ++ (Pairing.ofKinds r.kinds).notices) ↔
      Pairing.Stray r.kinds i) := by
    intro x hx
    have helse : Notice.elseWithoutIf i ∉ x.notices := fun hin => nomatch hx _ hin
    have hend : Notice.endWithoutIf i ∉ x.notices := fun hin => nomatch hx _ hin
    rw [List.mem_append, List.mem_append, or_iff_right helse, or_iff_right hend, Pairing.reported_iff]
  cases v with
  | null => cases h
  | obj fields =>
      obtain ⟨steps, -, rfl⟩ := read_obj_eq_ok.1 h
      exact hline ((quiet_liftM _).bind fun items => quiet_readSteps 0 items)
  | _ =>
      simp only [Route.read] at h
      split at h <;> cases h
      exact hline (quiet_pure [])

/-! ### Routes that can be read -/

/-- A command as the editor writes it: an object, and, if a script line, one with a first
parameter. -/
def OrderlyCommand (c : Json) : Prop :=
  ∃ fields, c = .obj fields ∧
    (((OrderedMap.find "code" fields).getD .null).isInt scriptCode = true → (scriptText? c).isSome)

/-- A route as the editor writes it. -/
def Orderly (v : Json) : Prop :=
  ∃ fields items, v = .obj fields ∧
    (((OrderedMap.find "list" fields).getD .null).orElse (.arr [])).elements = .ok items ∧
    ∀ c ∈ items, OrderlyCommand c

/-- A script line can be read unless its condition balks. -/
theorem readScript_iff (i : Nat) (text : String) : (∃ found, (readScript i text).result = .ok found) ↔
    ∀ t, (ScriptCall.parse? text).bind ScriptCall.condition? = some t → ¬RouteCondition.Balks t := by
  cases hcall : ScriptCall.parse? text with
  | none =>
      rw [readScript_of_none hcall]
      exact iff_of_true ⟨_, rfl⟩ nofun
  | some call =>
      have hforeign := RouteInstruction.ofCall_foreign_iff call
      rw [readScript_of_call hcall, Option.bind_some]
      constructor
      · rintro ⟨found, h⟩ t ht hbalks
        obtain ⟨e, he, hf⟩ := hforeign.2 ⟨t, ht, hbalks⟩
        rw [he] at h
        cases e with
        | invalidScript reason => exact hf reason rfl
        | _ => cases h
      · intro hnone
        cases hof : RouteInstruction.ofCall call with
        | ok line => exact ⟨_, rfl⟩
        | error e =>
            cases e with
            | invalidScript reason => exact ⟨_, rfl⟩
            | _ =>
                obtain ⟨t, ht, hbalks⟩ := hforeign.1 ⟨_, hof, nofun⟩
                exact absurd hbalks (hnone t ht)

/-- A command of the editor can be read unless its condition balks. -/
theorem readStep_iff {i : Nat} {fields : List (String × Json)}
    (htext : ((OrderedMap.find "code" fields).getD .null).isInt scriptCode = true →
      (scriptText? (.obj fields)).isSome) :
    (∃ step, (readStep i (.obj fields)).result = .ok step) ↔
      ∀ text, condition? (.obj fields) = some text → ¬RouteCondition.Balks text := by
  rw [readStep_eq]
  rw [scriptText?] at htext
  rw [condition?, call?, scriptText?]
  split
  · next hcode =>
      rw [if_pos hcode] at htext
      replace htext := htext hcode
      cases hv : (((OrderedMap.find "parameters" fields).getD .null).orElse (.arr [.str ""])).item 0 with
      | error e =>
          rw [hv] at htext
          cases htext
      | ok v =>
          have hlift : (liftM (Except.ok v : Except Fault Json) : Reading Json).result = .ok v := rfl
          rw [Reading.result_bind_ok hlift]
          refine Iff.trans ?_ (readScript_iff i v.text)
          constructor
          · rintro ⟨step, h⟩
            obtain ⟨found, hfound, -⟩ := Reading.bind_eq_ok h
            exact ⟨found, hfound⟩
          · rintro ⟨found, h⟩
            rw [Reading.result_bind_ok h]
            cases found <;> exact ⟨_, rfl⟩
  · next hcode =>
      refine iff_of_true ?_ ?_
      · split <;> exact ⟨_, rfl⟩
      · rintro text h
        cases h

/-- Commands of the editor can be read unless a condition of theirs balks. -/
theorem readSteps_iff {l : List Json} (hl : ∀ c ∈ l, OrderlyCommand c) (i : Nat) :
    (∃ steps, (readSteps i l).result = .ok steps) ↔
      ∀ c ∈ l, ∀ text, condition? c = some text → ¬RouteCondition.Balks text := by
  induction l generalizing i with
  | nil => exact iff_of_true ⟨[], rfl⟩ (by simp)
  | cons c l ih =>
      obtain ⟨fields, rfl, htext⟩ := hl c (by simp)
      have hrest := ih (fun c hc => hl c (by simp [hc])) (i + 1)
      rw [List.forall_mem_cons, ← hrest, ← readStep_iff (i := i) htext]
      constructor
      · rintro ⟨steps, h⟩
        obtain ⟨step, rest, hstep, hrest, -⟩ := readSteps_cons_eq_ok.1 h
        exact ⟨⟨step, hstep⟩, rest, hrest⟩
      · rintro ⟨⟨step, hstep⟩, rest, hrest⟩
        exact ⟨_, readSteps_cons_eq_ok.2 ⟨step, rest, hstep, hrest, rfl⟩⟩

/-- An object is a route if its commands can be read. -/
theorem read_obj_iff {fields : List (String × Json)} {items : List Json}
    (hitems : (((OrderedMap.find "list" fields).getD .null).orElse (.arr [])).elements = .ok items) :
    (∃ r, (Route.read (.obj fields)).result = .ok (some r)) ↔
      ∃ steps, (readSteps 0 items).result = .ok steps := by
  have hlist : (readList fields).result = (readSteps 0 items).result := by
    rw [readList, hitems]
    exact Reading.result_bind_ok rfl _
  simp only [read_obj_eq_ok, hlist]
  exact ⟨fun ⟨_, steps, h, _⟩ => ⟨steps, h⟩, fun ⟨steps, h⟩ => ⟨_, steps, h, rfl⟩⟩

/-- **Which routes can be read**: those of which no condition balks. -/
theorem read_iff {v : Json} (hv : Orderly v) :
    (∃ r, (Route.read v).result = .ok (some r)) ↔
      ∀ c ∈ commands v, ∀ text, condition? c = some text → ¬RouteCondition.Balks text := by
  obtain ⟨fields, items, rfl, hitems, horderly⟩ := hv
  rw [read_obj_iff hitems, readSteps_iff horderly, commands, hitems]

end Route

end EventLayer
