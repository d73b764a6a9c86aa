/-
**Triggers that pages declare.**

A page is classified by the calls of the layer at the head of its list: the first call that declares a
trigger validly is taken, calls before it are passed over, and what follows the head is never looked at.
A region that is no number or out of range is passed over with a notice.  But a region that is infinite
breaks the classification off, and so does a call whose parameters are neither a list nor a text: such a
page cannot be set up at all.

Main definitions:

* `PluginCall.own?`, `PluginCall.Unreadable` — a plugin's own calls, and calls that cannot be read;
* `PluginCall.declared?`, `PluginCall.complaint?` — what a call declares, and the notice about its region;
* `TriggerDescriptor.leadingRun` — the longest run of a plugin's own calls at the head of a list;
* `TriggerDescriptor.Stumbles` — the classification comes upon something that it cannot read.

Main results:

* `PluginCall.exists_ofCommand?_iff` — which commands can be looked at;
* `TriggerDescriptor.findIn_of_passed`, `TriggerDescriptor.findIn_of_stops` — **one step** of the pass;
* `TriggerDescriptor.findIn_append_of_stops` — what follows the leading run has no effect;
* `TriggerDescriptor.find_classifies` — **how a list is classified, and when**.
-/
import EventLayer.Proofs.PluginCalls.Texts
import EventLayer.Proofs.Program.Reading

set_option autoImplicit false
set_option relaxedAutoImplicit false

namespace EventLayer

/-! ### Commands that can be looked at -/

namespace Json

/-- A list or a text. -/
def IsSequence (v : Json) : Prop := (∃ items, v = .arr items) ∨ ∃ s, v = .str s

variable {v : Json}

theorem IsSequence.exists_count (h : v.IsSequence) : ∃ n, v.count = .ok n := by
  obtain ⟨items, rfl⟩ | ⟨s, rfl⟩ := h <;> exact ⟨_, rfl⟩

theorem IsSequence.exists_item (h : v.IsSequence) {n i : Nat} (hcount : v.count = .ok n) (hi : i < n) :
    ∃ w, v.item i = .ok w := by
  obtain ⟨items, helements, rfl⟩ : ∃ items, v.elements = .ok items ∧ n = items.length := by
    obtain ⟨items, helements, hlength⟩ := Except.bind_eq_ok hcount
    exact ⟨items, helements, (Except.ok.inj hlength).symm⟩
  unfold item
  split
  · obtain ⟨_, ⟨⟩⟩ | ⟨_, ⟨⟩⟩ := h
  · rw [helements, Except.ok_bind, List.getElem?_eq_getElem hi]
    exact ⟨_, rfl⟩

/-- The first item of a value that counts as given can be looked at exactly in a list or a text. -/
theorem exists_item_zero_iff (h : v.truthy = true) : (∃ w, v.item 0 = .ok w) ↔ v.IsSequence := by
  constructor
  · rintro ⟨w, hw⟩
    cases v with
    | arr items => exact .inl ⟨items, rfl⟩
    | str s => exact .inr ⟨s, rfl⟩
    | null | bool | int | float | obj => cases hw
  · intro hsequence
    obtain ⟨n, hn⟩ := hsequence.exists_count
    refine hsequence.exists_item hn (Nat.pos_of_ne_zero ?_)
    rintro rfl
    obtain ⟨items, rfl⟩ | ⟨s, rfl⟩ := hsequence
    · obtain rfl : items = [] := List.length_eq_zero_iff.1 (Except.ok.inj hn)
      cases h
    · have hempty : s.toList = [] := by
        have hlength := Except.ok.inj hn
        rwa [List.length_map, List.length_eq_zero_iff] at hlength
      rw [String.toList_eq_nil_iff.1 hempty] at h
      cases h

end Json

namespace PluginCall

variable {plugin : String} {command : Json}

theorem paramsOf_cases (fields : List (String × Json)) :
    paramsOf fields = .arr [] ∨ (paramsOf fields).truthy = true := by
  unfold paramsOf Json.orElse
  split
  · next h => exact .inr h
  · exact .inl rfl

/-- A command that calls a plugin with parameters that are neither a list nor a text. -/
def Unreadable (command : Json) : Prop :=
  ∃ fields, command = .obj fields ∧
    ((OrderedMap.find "code" fields).getD .null).isInt pluginCode = true ∧ ¬(paramsOf fields).IsSequence

theorem exists_pluginOf_iff (fields : List (String × Json)) :
    (∃ name, pluginOf (paramsOf fields) = .ok name) ↔ (paramsOf fields).IsSequence := by
  rcases paramsOf_cases fields with hnone | hgiven
  · rw [hnone]
    exact iff_of_true ⟨"", rfl⟩ (.inl ⟨[], rfl⟩)
  · rw [← Json.exists_item_zero_iff hgiven, pluginOf, hgiven]
    constructor
    · rintro ⟨name, hname⟩
      obtain ⟨w, hw, -⟩ := Except.bind_eq_ok hname
      exact ⟨w, hw⟩
    · rintro ⟨w, hw⟩
      rw [hw]
      exact ⟨_, rfl⟩

theorem exists_commandOf {params : Json} (h : params.IsSequence) : ∃ name, commandOf params = .ok name := by
  obtain ⟨n, hn⟩ := h.exists_count
  rw [commandOf, hn, Except.ok_bind]
  split
  · next hlt =>
      obtain ⟨w, hw⟩ := h.exists_item hn hlt
      rw [hw]
      exact ⟨_, rfl⟩
  · exact ⟨_, rfl⟩

theorem exists_argsOf {params : Json} (h : params.IsSequence) : ∃ args, argsOf params = .ok args := by
  obtain ⟨n, hn⟩ := h.exists_count
  rw [argsOf, hn, Except.ok_bind]
  split
  · next hlt =>
      obtain ⟨w, hw⟩ := h.exists_item hn hlt
      rw [hw, Except.ok_bind]
      split <;> exact ⟨_, rfl⟩
  · exact ⟨_, rfl⟩

/-- **Which commands can be looked at**: all but calls with unreadable parameters. -/
theorem exists_ofCommand?_iff (plugin : String) (command : Json) :
    (∃ call?, ofCommand? plugin command = .ok call?) ↔ ¬Unreadable command := by
  cases command with
  | obj fields =>
      by_cases hcode : ((OrderedMap.find "code" fields).getD .null).isInt pluginCode = true
      · have hunreadable : Unreadable (.obj fields) ↔ ¬(paramsOf fields).IsSequence := by
          simp [Unreadable, hcode]
        rw [hunreadable, not_not, ofCommand?, if_pos hcode]
        dsimp only
        constructor
        · rintro ⟨call?, hcall⟩
          obtain ⟨name, hname, -⟩ := Except.bind_eq_ok hcall
          exact (exists_pluginOf_iff fields).1 ⟨name, hname⟩
        · intro hsequence
          obtain ⟨name, hname⟩ := (exists_pluginOf_iff fields).2 hsequence
          obtain ⟨called, hcalled⟩ := exists_commandOf hsequence
          obtain ⟨args, hargs⟩ := exists_argsOf hsequence
          rw [hname, Except.ok_bind]
          split
          · rw [hcalled, Except.ok_bind, hargs]
            exact ⟨_, rfl⟩
          · exact ⟨_, rfl⟩
      · rw [ofCommand?, if_neg hcode]
        refine iff_of_true ⟨none, rfl⟩ ?_
        rintro ⟨_, ⟨⟩, hcalls, -⟩
        exact hcode hcalls
  | null | bool | int | float | str | arr => exact iff_of_true ⟨none, rfl⟩ (by rintro ⟨_, ⟨⟩, -⟩)

/-- The call that a command makes of a plugin, where it can be read. -/
def own? (plugin : String) (command : Json) : Option PluginCall :=
  (ofCommand? plugin command).toOption.join

theorem own?_eq_some_iff {call : PluginCall} :
    own? plugin command = some call ↔ ofCommand? plugin command = .ok (some call) := by
  unfold own?
  cases ofCommand? plugin command with
  | ok call? => simp [Except.toOption]
  | error e => simp [Except.toOption]

/-- A command that can be read is the plugin's own or not. -/
theorem ofCommand?_of_readable (h : ¬Unreadable command) (plugin : String) :
    ofCommand? plugin command = .ok (own? plugin command) := by
  obtain ⟨call?, hcall⟩ := (exists_ofCommand?_iff plugin command).2 h
  rw [own?, hcall]
  cases call? <;> rfl

/-! ### What a call declares -/

/-- The region that the arguments of a call name. -/
def regionOf (call : PluginCall) : Json := argD call.args ["region_id", "regionId"] (.str "")

/-- The call declares a region entry, whatever the region. -/
def EntersRegion (call : PluginCall) : Prop :=
  TriggerKind.commands.lookup call.command = some .regionEntry

instance (call : PluginCall) : Decidable call.EntersRegion := inferInstanceAs (Decidable (_ = _))

/-- A region from 1 to 255 among what a reading can come to. -/
def regionIn? : Except Fault Int → Option Int
  | .ok n => if 1 ≤ n ∧ n ≤ TriggerDescriptor.maxRegion then some n else none
  | .error _ => none

/-- The region that a call names, cut to its whole part. -/
def region? (call : PluginCall) : Option Int := regionIn? call.regionOf.decimalPart

/-- The trigger that a call declares. -/
def declared? (call : PluginCall) : Option TriggerDescriptor :=
  match TriggerKind.commands.lookup call.command with
  | none => none
  | some .regionEntry => call.region?.map fun n => ⟨.regionEntry, some n⟩
  | some kind => some ⟨kind, none⟩

/-- The notice that a call leaves about a region that is out of range or no number. -/
def complaint? (call : PluginCall) : Option Notice :=
  if call.EntersRegion ∧ call.region? = none then
    match call.regionOf.decimalPart with
    | .ok n => some (.regionOutOfRange n)
    | .error _ => some (.regionNotNumeric call.regionOf)
  else none

/-- A call that declares the entry into an infinite region. -/
def EntersInfinity (call : PluginCall) : Prop := call.EntersRegion ∧ call.regionOf.IsInfinite

instance (call : PluginCall) : Decidable call.EntersInfinity := inferInstanceAs (Decidable (_ ∧ _))

theorem region?_eq_some {call : PluginCall} {n : Int} (h : call.region? = some n) :
    1 ≤ n ∧ n ≤ TriggerDescriptor.maxRegion := by
  unfold region? regionIn? at h
  split at h
  · split at h
    · next hrange =>
        cases h
        exact hrange
    · cases h
  · cases h

end PluginCall

namespace TriggerDescriptor

variable {plugin : String} {command : Json} {commands : List Json} {call : PluginCall}

/-- A trigger that a call can declare: a region entry has a region from 1 to 255, the others have none. -/
def IsDeclarable (d : TriggerDescriptor) : Prop :=
  (d.kind = .regionEntry ∧ ∃ n, d.region = some n ∧ 1 ≤ n ∧ n ≤ 255) ∨
    ((d.kind = .partyTouch ∨ d.kind = .mapSetup) ∧ d.region = none)

theorem isDeclarable_of_declared? {d : TriggerDescriptor} (h : call.declared? = some d) :
    d.IsDeclarable := by
  have hkinds : ∀ kind, TriggerKind.commands.lookup call.command = some kind →
      kind = .regionEntry ∨ kind = .partyTouch ∨ kind = .mapSetup := by
    intro kind hkind
    obtain ⟨before, after, hsplit, -⟩ := List.lookup_eq_some_iff.1 hkind
    have hmem : (call.command, kind) ∈ TriggerKind.commands := by simp [hsplit]
    simp only [TriggerKind.commands, List.mem_cons, Prod.mk.injEq, List.not_mem_nil, or_false] at hmem
    rcases hmem with ⟨-, rfl⟩ | ⟨-, rfl⟩ | ⟨-, rfl⟩ | ⟨-, rfl⟩ <;> decide
  unfold PluginCall.declared? at h
  split at h
  · cases h
  · obtain ⟨n, hn, rfl⟩ := Option.map_eq_some_iff.1 h
    exact .inl ⟨rfl, n, rfl, PluginCall.region?_eq_some hn⟩
  · next kind hother hkind =>
      cases h
      exact .inr ⟨(hkinds _ hkind).resolve_left hother, rfl⟩

/-! ### One call -/

theorem regionEntry?_of_isInfinite (h : call.regionOf.IsInfinite) :
    regionEntry? call.args = ⟨[], .error .tooLarge⟩ := by
  have hpart := Json.decimalPart_of_isInfinite h
  unfold PluginCall.regionOf at hpart
  unfold regionEntry?
  dsimp only
  rw [hpart]
  rfl

/-- What a region entry comes to, unless the region is infinite. -/
theorem regionEntry?_eq (h : call.EntersRegion) (hfinite : ¬call.regionOf.IsInfinite) :
    regionEntry? call.args =
      ⟨call.complaint?.toList, .ok (call.region?.map fun n => ⟨.regionEntry, some n⟩)⟩ := by
  unfold PluginCall.complaint?
  rcases call.regionOf.decimalPart_cases with ⟨n, hn⟩ | hnone | hinfinite
  · have hread : regionEntry? call.args =
        if 1 ≤ n ∧ n ≤ maxRegion then pure (some ⟨.regionEntry, some n⟩)
        else do
          Reading.note (.regionOutOfRange n)
          return none := by
      unfold PluginCall.regionOf at hn
      unfold regionEntry?
      dsimp only
      rw [hn]
    by_cases hrange : 1 ≤ n ∧ n ≤ maxRegion
    · have hregion : call.region? = some n := by
        rw [PluginCall.region?, hn]
        exact if_pos hrange
      rw [hread, if_pos hrange, hregion, if_neg (by simp)]
      rfl
    · have hregion : call.region? = none := by
        rw [PluginCall.region?, hn]
        exact if_neg hrange
      rw [hread, if_neg hrange, hregion, if_pos ⟨h, rfl⟩, hn]
      rfl
  · have hpart : call.regionOf.decimalPart = .error .notANumber := hnone
    have hregion : call.region? = none := by
      rw [PluginCall.region?, hpart]
      rfl
    rw [hregion, if_pos ⟨h, rfl⟩, hpart]
    unfold PluginCall.regionOf at hpart
    unfold regionEntry?
    dsimp only
    rw [hpart]
    rfl
  · exact absurd hinfinite hfinite

/-- **What a call comes to**, unless it declares the entry into an infinite region. -/
theorem ofCall?_eq (h : ¬call.EntersInfinity) :
    ofCall? call = ⟨call.complaint?.toList, .ok call.declared?⟩ := by
  by_cases hregion : call.EntersRegion
  · have hlookup : TriggerKind.commands.lookup call.command = some .regionEntry := hregion
    rw [ofCall?, PluginCall.declared?, hlookup]
    exact regionEntry?_eq hregion fun hinfinite => h ⟨hregion, hinfinite⟩
  · have hcomplaint : call.complaint? = none := if_neg fun hboth => hregion hboth.1
    rw [ofCall?, hcomplaint, PluginCall.declared?]
    cases hlookup : TriggerKind.commands.lookup call.command with
    | none => rfl
    | some kind =>
        cases kind with
        | regionEntry => exact absurd hlookup hregion
        | actionButton | playerTouch | eventTouch | autorun | parallel | partyTouch | mapSetup => rfl

theorem ofCall?_of_entersInfinity (h : call.EntersInfinity) : ofCall? call = ⟨[], .error .tooLarge⟩ := by
  have hlookup : TriggerKind.commands.lookup call.command = some .regionEntry := h.1
  rw [ofCall?, hlookup]
  exact regionEntry?_of_isInfinite h.2

/-! ### One step -/

/-- The trigger that a command declares as a call of the plugin. -/
def declaredBy? (plugin : String) (command : Json) : Option TriggerDescriptor :=
  (PluginCall.own? plugin command).bind PluginCall.declared?

/-- The notice that a command leaves as a call of the plugin. -/
def complaintOf? (plugin : String) (command : Json) : Option Notice :=
  (PluginCall.own? plugin command).bind PluginCall.complaint?

/-- A call of the plugin that is passed over: it declares nothing, and no entry into an infinite region. -/
def IsPassedOver (plugin : String) (command : Json) : Prop :=
  ∃ call, PluginCall.own? plugin command = some call ∧ call.declared? = none ∧ ¬call.EntersInfinity

/-- A command that breaks the classification off: it cannot be read, or it is a call of the plugin that
declares the entry into an infinite region. -/
def Breaks (plugin : String) (command : Json) : Prop :=
  PluginCall.Unreadable command ∨ ∃ call, PluginCall.own? plugin command = some call ∧ call.EntersInfinity

theorem findIn_of_own (h : PluginCall.own? plugin command = some call) (rest : List Json) :
    findIn plugin (command :: rest) = (do
      match ← ofCall? call with
      | some d => return some d
      | none => findIn plugin rest) := by
  rw [findIn, PluginCall.own?_eq_some_iff.1 h]
  rfl

/-- **A call that is passed over** leaves its notice, and the rest is looked at. -/
theorem findIn_of_passed (h : IsPassedOver plugin command) (rest : List Json) :
    findIn plugin (command :: rest) =
      ⟨(complaintOf? plugin command).toList ++ (findIn plugin rest).notices, (findIn plugin rest).result⟩ := by
  obtain ⟨call, hown, hnone, hfinite⟩ := h
  rw [findIn_of_own hown, ofCall?_eq hfinite, hnone, complaintOf?, hown]
  rfl

/-- **A call that declares a trigger** ends the pass. -/
theorem findIn_of_declares {d : TriggerDescriptor} (h : declaredBy? plugin command = some d)
    (rest : List Json) : findIn plugin (command :: rest) = ⟨[], .ok (some d)⟩ := by
  obtain ⟨call, hown, hdeclared⟩ := Option.bind_eq_some_iff.1 h
  have hregion : call.EntersRegion → ∃ n, call.region? = some n := by
    intro hregion
    rw [PluginCall.declared?, show TriggerKind.commands.lookup call.command = _ from hregion] at hdeclared
    obtain ⟨n, hn, -⟩ := Option.map_eq_some_iff.1 hdeclared
    exact ⟨n, hn⟩
  have hfinite : ¬call.EntersInfinity := by
    rintro ⟨henters, hinfinite⟩
    obtain ⟨n, hn⟩ := hregion henters
    rw [PluginCall.region?, Json.decimalPart_of_isInfinite hinfinite] at hn
    cases hn
  have hquiet : call.complaint? = none := by
    refine if_neg ?_
    rintro ⟨henters, hnone⟩
    obtain ⟨n, hn⟩ := hregion henters
    rw [hnone] at hn
    cases hn
  rw [findIn_of_own hown, ofCall?_eq hfinite, hdeclared, hquiet]
  rfl

/-- **A command that is no call of the plugin** ends the pass. -/
theorem findIn_of_stops (hread : ¬PluginCall.Unreadable command)
    (h : PluginCall.own? plugin command = none) (rest : List Json) :
    findIn plugin (command :: rest) = ⟨[], .ok none⟩ := by
  rw [findIn, PluginCall.ofCommand?_of_readable hread, h]
  rfl

/-- **A command that breaks the pass off** lets it fail. -/
theorem findIn_of_breaks (h : Breaks plugin command) (rest : List Json) :
    ∃ e, findIn plugin (command :: rest) = ⟨[], .error e⟩ := by
  rcases h with hunreadable | ⟨call, hown, hinfinite⟩
  · cases hcall : PluginCall.ofCommand? plugin command with
    | ok call? => exact absurd hunreadable ((PluginCall.exists_ofCommand?_iff plugin command).1 ⟨call?, hcall⟩)
    | error e =>
        rw [findIn, hcall]
        exact ⟨e, rfl⟩
  · rw [findIn_of_own hown, ofCall?_of_entersInfinity hinfinite]
    exact ⟨.tooLarge, rfl⟩

/-- A command breaks the pass off, ends it with or without a declaration, or is passed over. -/
theorem command_cases (plugin : String) (command : Json) :
    Breaks plugin command ∨ (¬PluginCall.Unreadable command ∧ PluginCall.own? plugin command = none) ∨
      (∃ d, declaredBy? plugin command = some d) ∨ IsPassedOver plugin command := by
  by_cases hbreaks : Breaks plugin command
  · exact .inl hbreaks
  · obtain ⟨hread, hfinite⟩ := not_or.1 hbreaks
    cases hown : PluginCall.own? plugin command with
    | none => exact .inr (.inl ⟨hread, rfl⟩)
    | some call =>
        cases hdeclared : call.declared? with
        | some d => exact .inr (.inr (.inl ⟨d, by rw [declaredBy?, hown]; exact hdeclared⟩))
        | none => exact .inr (.inr (.inr ⟨call, hown, hdeclared, fun h => hfinite ⟨call, hown, h⟩⟩))

/-! ### The whole list -/

/-- The longest run of a plugin's own calls at the head of a list. -/
def leadingRun (plugin : String) (commands : List Json) : List Json :=
  commands.takeWhile fun c => (PluginCall.own? plugin c).isSome

/-- The first valid declaration in the leading run. -/
def declaration? (plugin : String) (commands : List Json) : Option TriggerDescriptor :=
  (leadingRun plugin commands).findSome? (declaredBy? plugin)

/-- The notices about the calls of the leading run up to the first valid declaration. -/
def complaints (plugin : String) (commands : List Json) : List Notice :=
  ((leadingRun plugin commands).takeWhile fun c => (declaredBy? plugin c).isNone).filterMap
    (complaintOf? plugin)

/-- Behind calls that are passed over, the pass comes upon a command that breaks it off. -/
def Stumbles (plugin : String) (commands : List Json) : Prop :=
  ∃ before command after, commands = before ++ command :: after ∧
    (∀ c ∈ before, IsPassedOver plugin c) ∧ Breaks plugin command

theorem Stumbles.cons {rest : List Json} (hc : IsPassedOver plugin command) (h : Stumbles plugin rest) :
    Stumbles plugin (command :: rest) := by
  obtain ⟨before, c, after, rfl, hbefore, hbreaks⟩ := h
  exact ⟨command :: before, c, after, rfl, List.forall_mem_cons.2 ⟨hc, hbefore⟩, hbreaks⟩

/-- **A list that lets the pass stumble is not classified.** -/
theorem findIn_of_stumbles (h : Stumbles plugin commands) : ∃ e, (findIn plugin commands).result = .error e := by
  obtain ⟨before, command, after, rfl, hbefore, hbreaks⟩ := h
  induction before with
  | nil =>
      obtain ⟨e, he⟩ := findIn_of_breaks hbreaks after
      exact ⟨e, congrArg Reading.result he⟩
  | cons c before ih =>
      obtain ⟨hc, hbefore⟩ := List.forall_mem_cons.1 hbefore
      obtain ⟨e, he⟩ := ih hbefore
      rw [List.cons_append, findIn_of_passed hc]
      exact ⟨e, he⟩

/-- **Any other list declares the first valid trigger of its leading run.** -/
theorem findIn_eq (h : ¬Stumbles plugin commands) :
    findIn plugin commands = ⟨complaints plugin commands, .ok (declaration? plugin commands)⟩ := by
  induction commands with
  | nil => rfl
  | cons command rest ih =>
      rcases command_cases plugin command with hbreaks | ⟨hread, hnone⟩ | ⟨d, hd⟩ | hpassed
      · exact absurd ⟨[], command, rest, rfl, nofun, hbreaks⟩ h
      · rw [findIn_of_stops hread hnone]
        simp [complaints, declaration?, leadingRun, hnone]
      · obtain ⟨call, hown, -⟩ := Option.bind_eq_some_iff.1 hd
        rw [findIn_of_declares hd]
        simp [complaints, declaration?, leadingRun, hown, hd]
      · have hrest := ih fun hstumbles => h (hstumbles.cons hpassed)
        obtain ⟨call, hown, hdeclared, -⟩ := id hpassed
        have hnothing : declaredBy? plugin command = none := by
          rw [declaredBy?, hown]
          exact hdeclared
        rw [findIn_of_passed hpassed, hrest]
        cases hcomplaint : complaintOf? plugin command <;>
          simp [complaints, declaration?, leadingRun, hown, hnothing, hcomplaint]

/-- **What follows the leading run has no effect.** -/
theorem findIn_append_of_stops (run : List Json) (hread : ¬PluginCall.Unreadable command)
    (h : PluginCall.own? plugin command = none) (rest rest' : List Json) :
    findIn plugin (run ++ command :: rest) = findIn plugin (run ++ command :: rest') := by
  induction run with
  | nil => rw [List.nil_append, List.nil_append, findIn_of_stops hread h, findIn_of_stops hread h]
  | cons c run ih =>
      rw [List.cons_append, List.cons_append]
      simp only [findIn, ih]

theorem isDeclarable_of_declaration? {d : TriggerDescriptor} (h : declaration? plugin commands = some d) :
    d.IsDeclarable := by
  obtain ⟨c, -, hc⟩ := List.exists_of_findSome?_eq_some h
  obtain ⟨call, -, hcall⟩ := Option.bind_eq_some_iff.1 hc
  exact isDeclarable_of_declared? hcall

/-- **How a list of commands is classified.**  Unless the pass stumbles, the list declares the first valid
trigger of its leading run, and a region that is out of range or no number leaves a notice only; what is
declared has a region exactly if it is a region entry; and what follows the first command that is no call of
the plugin has no effect. -/
theorem find_classifies (plugin : String) (commands : List Json) :
    (Stumbles plugin commands → ∃ e, (find (.arr commands) plugin).result = .error e) ∧
    (¬Stumbles plugin commands → find (.arr commands) plugin =
      ⟨complaints plugin commands, .ok (declaration? plugin commands)⟩) ∧
    (∀ d, declaration? plugin commands = some d → d.IsDeclarable) ∧
    ∀ run command rest rest', commands = run ++ command :: rest → ¬PluginCall.Unreadable command →
      PluginCall.own? plugin command = none →
        find (.arr (run ++ command :: rest')) plugin = find (.arr commands) plugin := by
  refine ⟨findIn_of_stumbles, findIn_eq, fun d => isDeclarable_of_declaration?, ?_⟩
  rintro run command rest rest' rfl hread hnone
  exact findIn_append_of_stops run hread hnone rest' rest

/-- A command that declares the entry into a region. -/
def entryCommand (region : String) : Json :=
  Program.commandAt 0 357 (.arr [.str layerName, .str "page_trigger_region_entry", .str "",
    .obj [("region_id", .str region)]])

theorem own?_entryCommand (region : String) : PluginCall.own? layerName (entryCommand region) =
    some ⟨layerName, "page_trigger_region_entry", ⟨[("region_id", .str region)]⟩⟩ :=
  PluginCall.own?_eq_some_iff.2 (Program.ofCommand?_layer 0 _ _)

/-- A region that is out of range is passed over with a notice, and the next one is declared. -/
theorem find_classifies_second : ∃ notice,
    find (.arr [entryCommand "256", entryCommand " 12.7"]) =
      ⟨[notice], .ok (some ⟨.regionEntry, some 12⟩)⟩ := by
  obtain ⟨hstumbles, hclassified, -⟩ :=
    find_classifies layerName [entryCommand "256", entryCommand " 12.7"]
  have hpassed : IsPassedOver layerName (entryCommand "256") :=
    ⟨_, own?_entryCommand "256", by decide +kernel, by decide +kernel⟩
  have hdeclares : declaredBy? layerName (entryCommand " 12.7") = some ⟨.regionEntry, some 12⟩ := by
    rw [declaredBy?, own?_entryCommand]
    decide +kernel
  have hsmooth : ¬Stumbles layerName [entryCommand "256", entryCommand " 12.7"] := by
    intro h
    obtain ⟨e, he⟩ := hstumbles h
    rw [find, findIn_of_passed hpassed, findIn_of_declares hdeclares] at he
    cases he
  have hdeclared : declaration? layerName [entryCommand "256", entryCommand " 12.7"] =
      some ⟨.regionEntry, some 12⟩ := by decide +kernel
  obtain ⟨notice, hnotice⟩ := List.length_eq_one_iff.1
    (show (complaints layerName [entryCommand "256", entryCommand " 12.7"]).length = 1 by decide +kernel)
  refine ⟨notice, (hclassified hsmooth).trans ?_⟩
  rw [hdeclared, hnotice]

/-- **An infinite region** is not passed over with a notice: the list is not classified. -/
theorem not_classified_infinite :
    ¬∃ found, (find (.arr [entryCommand "inf"])).result = .ok found := by
  rintro ⟨found, hfound⟩
  have hbreaks : Breaks layerName (entryCommand "inf") :=
    .inr ⟨_, own?_entryCommand "inf", by decide +kernel⟩
  obtain ⟨e, he⟩ := findIn_of_breaks hbreaks []
  rw [find, he] at hfound
  cases hfound

end TriggerDescriptor

end EventLayer
