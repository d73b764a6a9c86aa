/-
**What commands keep.**

A command is made of single writes: of a switch or a variable, of what the party holds, of an event, of
the command list that carries it out.  A property of sessions that each of these writes leaves is left
by every command, apart from those that call a common event.  These are the commands that name one, and
the treasures, which have it shown; whoever has dealt with them has dealt with all.

Few commands reach what happens on the map: one puts a character on a route, one erases an event.  A
property need not survive their writes to be left by all others.

Main definitions:

* `Frame.course` — where a command list stands;
* `Party.Gains` — a party that has gained or lost something;
* `Play.Unmoved` — properties that the single writes leave, but for those of events and routes;
* `Play.Enduring` — properties that all single writes leave;
* `LayerCommand.givesTreasure`, `Instruction.givesTreasure` — what gives a treasure;
* `Play.Stepwise`, `Play.Sustained` — enduring properties that the steps from one command to the next
  leave as well.

Main results:

* `Play.Unmoved.carryOutOwn`, `Play.Unmoved.carryOutPlain` — one lemma a kind of command;
* `Play.Unmoved.carryOut`, `Play.Enduring.carryOut` — **a command keeps what its calls keep**;
* `Play.Sustained.runInterpreter` — **a run of the command lists keeps a sustained property**.
-/
import EventLayer.Proofs.Preserves
import EventLayer.Session.Run

set_option autoImplicit false
set_option relaxedAutoImplicit false

namespace EventLayer

/-- Where a command list stands. -/
def Frame.course (f : Frame) : Frame := { commands := f.commands, index := f.index, table := f.table }

theorem Frame.eq_of_course {f f' : Frame} (h : f'.course = f.course) :
    f'.commands = f.commands ∧ f'.index = f.index ∧ f'.table = f.table := by
  simpa [Frame.course] using h

/-- A change that leaves where a command list stands.  If it links the list, then to a map that has a
number. -/
structure Frame.Adjusts (F : Frame → Frame) : Prop where
  course : ∀ f, (F f).course = f.course
  link : ∀ f, (F f).link = f.link ∨ ∃ n, (F f).link.map.toInt = .ok n

/-- A party that has gained or lost things or gold. -/
def Party.Gains (p q : Party) : Prop :=
  (∃ entry amount, p.gainOf entry amount = .ok q) ∨ ∃ amount, p.gainGold amount = .ok q

/-- Whether a command of this layer gives a treasure. -/
def LayerCommand.givesTreasure : LayerCommand → Bool
  | .treasure _ | .treasureGold | .treasureByName => true
  | _ => false

/-- Whether an instruction gives a treasure. -/
def Instruction.givesTreasure : Instruction → Bool
  | .plugin call => (LayerCommand.registry.lookup? call).any LayerCommand.givesTreasure
  | _ => false

namespace Play

open Session

/-- A property of sessions that the single writes of commands leave, where the lists at depths of a certain
kind carry them out: calls of common events aside, and without regard to what puts characters on routes
and awaits them, erases events, and lets common events wait. -/
structure Unmoved (D : Nat → Prop) (P : Session → Prop) : Prop where
  aside : ∀ {s : Session} (draws : Draws) (scratch : Scratch) (audio : List Sound)
    (notices : List Notice), P s → scratch.reserved = s.scratch.reserved →
      P { s with draws, scratch, audio, notices }
  setSwitch : ∀ {s : Session} (id : Int) (on : Bool), P s → P (s.setSwitch id on)
  setVariable : ∀ {s : Session} (id : Int) (v : Json), P s → P (s.setVariable id v)
  setSelfSwitch : ∀ {s : Session} (key : SelfKey) (on : Bool), P s → P (s.setSelfSwitch key on)
  requestRefresh : ∀ {s : Session}, P s → P s.requestRefresh
  recordOrigin : ∀ {s : Session} (map event : Int) (p : Point), P s → P (s.recordOrigin map event p)
  setBehavior : ∀ {s : Session} (b : RouteBehavior), P s → P { s with stores.behavior := b }
  gain : ∀ {s t : Session} {party : Party}, P s → s.stores.party.Gains party → P t →
    P { t with stores.party := party }
  onFrame : ∀ {s : Session} {d : Nat} {F : Frame → Frame}, D d → Frame.Adjusts F →
    (∀ f, (F f).awaited = f.awaited) → P s → P (s.updateFrame d F)

/-- A property of sessions that the single writes of commands leave, calls of common events aside. -/
structure Enduring (P : Session → Prop) : Prop extends Unmoved (fun _ => True) P where
  setReserved : ∀ {s : Session} (reserved : List Int), P s → P { s with scratch.reserved := reserved }
  forceRoute : ∀ {s : Session} (who : CharacterId) (route : Option Route), P s →
    P (s.updateCharacter who (·.forceRoute route))
  await : ∀ {s : Session} (d : Nat) (who : Option CharacterId), P s →
    P (s.updateFrame d fun f => { f with awaited := who })
  eraseEvent : ∀ id : Int, (Play.eraseEvent id).Preserves P

theorem Preserves.and {α : Type} {P Q : Session → Prop} {act : Play α} (hP : act.Preserves P)
    (hQ : act.Preserves Q) : act.Preserves fun s => P s ∧ Q s :=
  fun s hs => ⟨hP s hs.1, hQ s hs.2⟩

theorem Enduring.and {P Q : Session → Prop} (hP : Enduring P) (hQ : Enduring Q) :
    Enduring fun s => P s ∧ Q s where
  aside := fun _ _ _ _ hs h => ⟨hP.aside _ _ _ _ hs.1 h, hQ.aside _ _ _ _ hs.2 h⟩
  setSwitch := fun _ _ hs => ⟨hP.setSwitch _ _ hs.1, hQ.setSwitch _ _ hs.2⟩
  setVariable := fun _ _ hs => ⟨hP.setVariable _ _ hs.1, hQ.setVariable _ _ hs.2⟩
  setSelfSwitch := fun _ _ hs => ⟨hP.setSelfSwitch _ _ hs.1, hQ.setSelfSwitch _ _ hs.2⟩
  requestRefresh := fun hs => ⟨hP.requestRefresh hs.1, hQ.requestRefresh hs.2⟩
  recordOrigin := fun _ _ _ hs => ⟨hP.recordOrigin _ _ _ hs.1, hQ.recordOrigin _ _ _ hs.2⟩
  setBehavior := fun _ hs => ⟨hP.setBehavior _ hs.1, hQ.setBehavior _ hs.2⟩
  gain := fun hs hgain ht => ⟨hP.gain hs.1 hgain ht.1, hQ.gain hs.2 hgain ht.2⟩
  onFrame := fun hd hF ha hs => ⟨hP.onFrame hd hF ha hs.1, hQ.onFrame hd hF ha hs.2⟩
  setReserved := fun _ hs => ⟨hP.setReserved _ hs.1, hQ.setReserved _ hs.2⟩
  forceRoute := fun _ _ hs => ⟨hP.forceRoute _ _ hs.1, hQ.forceRoute _ _ hs.2⟩
  await := fun d who hs => ⟨hP.await d who hs.1, hQ.await d who hs.2⟩
  eraseEvent := fun id => (hP.eraseEvent id).and (hQ.eraseEvent id)

/-- What the changes of single events leave, the erasing of an event leaves. -/
theorem preserves_eraseEvent {P : Session → Prop}
    (hn : ∀ (s : Session) (n : List Notice), P s → P { s with notices := n })
    (hevent : ∀ (s : Session) (id : Int) (f : MapEvent → MapEvent), P s → P (s.updateEvent id f))
    (id : Int) : (eraseEvent id).Preserves P := by
  refine Preserves.bind (preserves_modify fun s => hevent s id _) fun _ => preserves_getBind fun s => ?_
  split
  · exact (preserves_reading hn _).bind fun e => preserves_modify fun t => hevent t id _
  · exact preserves_pure ()

namespace Unmoved

variable {α : Type} {D : Nat → Prop} {P : Session → Prop} {d : Nat}

/-! ### Single writes -/

theorem note (h : Unmoved D P) (n : Notice) : (Play.note n).Preserves P :=
  preserves_modify fun s hs => h.aside s.draws s.scratch s.audio _ hs rfl

theorem reading (h : Unmoved D P) (r : Reading α) : (liftM r : Play α).Preserves P :=
  preserves_reading (fun s n hs => h.aside s.draws s.scratch s.audio n hs rfl) r

theorem setDraws (h : Unmoved D P) (draws : Session → Draws) :
    (modify fun s => { s with draws := draws s } : Play PUnit).Preserves P :=
  preserves_modify fun s hs => h.aside _ s.scratch s.audio s.notices hs rfl

theorem adjust (h : Unmoved D P) (hd : D d) {F : Frame → Frame} (hF : Frame.Adjusts F)
    (ha : ∀ f, (F f).awaited = f.awaited) : (modify (updateFrame d F) : Play PUnit).Preserves P :=
  preserves_modify fun _ hs => h.onFrame hd hF ha hs

theorem changeFrame (h : Unmoved D P) (hd : D d) {F : Frame → Frame}
    (hF : ∀ f, (F f).course = f.course ∧ (F f).link = f.link ∧ (F f).awaited = f.awaited) :
    (modify (updateFrame d F) : Play PUnit).Preserves P :=
  h.adjust hd ⟨fun f => (hF f).1, fun f => Or.inl (hF f).2.1⟩ fun f => (hF f).2.2

/-! ### Gold and things -/

theorem gainItem (h : Unmoved D P) (kind : ItemKind) (id amount : Json) :
    (Play.gainItem kind id amount).Preserves P := by
  refine preserves_getBind_of fun s hs => ?_
  split
  · refine preserves_exceptBind fun party hparty => preserves_modify fun t ht => ?_
    exact h.gain hs (Or.inl ⟨_, _, hparty⟩) ht
  · exact preserves_pure ()

theorem gainGold (h : Unmoved D P) (amount : Json.Number) : (Play.gainGold amount).Preserves P := by
  refine preserves_getBind_of fun s hs => preserves_exceptBind fun party hparty => ?_
  exact preserves_modify fun t ht => h.gain hs (Or.inr ⟨_, hparty⟩) ht

theorem giveEntry (h : Unmoved D P) (entry : Json) (amount : Int) :
    (Play.giveEntry entry amount).Preserves P := by
  refine preserves_getBind_of fun s hs => (preserves_except _).bind fun n => ?_
  refine (preserves_pure _).ite (preserves_exceptBind fun party hparty => ?_)
  refine Preserves.bind (preserves_modify ?_) fun _ => preserves_pure _
  intro t ht
  exact h.gain hs (Or.inl ⟨_, _, hparty⟩) ht

/-! ### Treasures -/

section Treasures

variable (h : Unmoved D P) (hshow : displayTreasure.Preserves P)

include h hshow

theorem announce (t : Treasure) : (Play.announce t).Preserves P := by
  refine Preserves.bind (preserves_modify ?_) fun _ => hshow.bind fun _ => preserves_pure t
  intro s hs
  exact h.aside s.draws _ s.audio s.notices hs rfl

theorem giveItem (kind : ItemKind) (id amount : Json) :
    (Play.giveItem kind id amount).Preserves P := by
  refine (h.reading _).bind fun id => (h.reading _).bind fun amount => preserves_getBind fun s => ?_
  split
  · exact (h.note _).bind fun _ => h.announce hshow _
  · refine (h.giveEntry _ _).bind fun success => ?_
    exact (preserves_except _).bind fun icon => h.announce hshow _

theorem giveKind (word : String) (id amount : Json) : (Play.giveKind word id amount).Preserves P :=
  (h.reading _).bind fun kind => h.giveItem hshow kind id amount

theorem giveGold (amount : Json) : (Play.giveGold amount).Preserves P := by
  refine (h.reading _).bind fun amount => preserves_getBind fun s => ?_
  dsimp only
  split
  · exact (h.gainGold _).bind fun _ => h.announce hshow _
  · exact h.announce hshow _

theorem giveNamed (name : Option String) (amount : Json) :
    (Play.giveNamed name amount).Preserves P := by
  refine preserves_getBind fun s => (preserves_except _).bind fun found => ?_
  split
  · exact preserves_throw _
  · exact h.giveItem hshow _ _ _

theorem giveNamedOrNote (args : OrderedMap String Json) :
    (Play.giveNamedOrNote args).Preserves P := by
  refine Preserves.tryCatch (h.giveNamed hshow _ _).discard fun e => ?_
  split
  · exact h.note _
  · exact preserves_throw _

end Treasures

theorem showText (h : Unmoved D P) (text : String) : (Play.showText text).Preserves P := by
  refine preserves_getBind fun s => (preserves_except _).bind fun shown => preserves_modify ?_
  intro t ht
  exact h.aside t.draws _ t.audio t.notices ht rfl

theorem playSound (h : Unmoved D P) (v : Json) : (Play.playSound v).Preserves P := by
  refine (preserves_except _).bind fun sound => ?_
  split
  · exact preserves_modify fun t ht => h.aside t.draws t.scratch _ t.notices ht rfl
  · exact preserves_pure ()

/-! ### Links -/

/-- A map whose events can be looked at has a number. -/
theorem toInt_of_candidates {map : Json} {pool : List Candidate} {s t : Session}
    (h : Play.candidates map s = .ok (some pool) t) : ∃ n, map.toInt = .ok n := by
  rw [Play.candidates, get_bind_apply] at h
  split at h
  · next hmap => exact Json.toInt_of_isInt hmap
  · rw [Play.remoteCandidates, get_bind_apply] at h
    obtain ⟨found, -, h⟩ := except_bind_eq_ok h
    cases found with
    | none =>
        obtain ⟨_, _, -, h⟩ := bind_eq_ok h
        cases h
    | some data =>
        obtain ⟨_, -, h⟩ := except_bind_eq_ok h
        obtain ⟨_, -, h⟩ := except_bind_eq_ok h
        obtain ⟨n, hn, -⟩ := except_bind_eq_ok h
        exact ⟨n, hn⟩

theorem linkMap (h : Unmoved D P) (selector : Selector) : (Play.linkMap selector).Preserves P := by
  cases selector with
  | any => exact preserves_getBind fun _ => preserves_pure _
  | number n => exact preserves_pure _
  | truth => exact preserves_pure _
  | name word =>
      refine preserves_getBind fun s => ?_
      dsimp only
      split
      · exact (h.note _).bind fun _ => preserves_pure _
      · exact preserves_pure _

theorem remoteCandidates (h : Unmoved D P) (map : Json) :
    (Play.remoteCandidates map).Preserves P := by
  refine preserves_getBind fun s => (preserves_except _).bind fun found => ?_
  split
  · exact (h.note _).bind fun _ => preserves_pure _
  · refine (preserves_except _).bind fun _ => (preserves_except _).bind fun events => ?_
    exact (preserves_except _).bind fun id => (preserves_except _).bind fun pool => preserves_pure _

theorem candidates (h : Unmoved D P) (map : Json) : (Play.candidates map).Preserves P :=
  preserves_getBind fun _ => (preserves_pure _).ite (h.remoteCandidates map)

theorem linkReference (h : Unmoved D P) (d : Nat) (location : Option Location) :
    (Play.linkReference d location).Preserves P := by
  refine preserves_getBind fun s => ?_
  split
  · exact preserves_pure _
  · exact h.reading _

theorem linkTo (h : Unmoved D P) (hd : D d) (event : Int) {map : Json} (hmap : ∃ n, map.toInt = .ok n) :
    (Play.linkTo d event map).Preserves P := by
  have hlink : (modify (updateFrame d fun f => { f with link := { event, map } }) :
      Play PUnit).Preserves P := h.adjust hd ⟨fun _ => rfl, fun _ => Or.inr hmap⟩ fun _ => rfl
  unfold Play.linkTo
  split
  · exact (preserves_except _).discard.bind fun _ => hlink
  · exact hlink

theorem linkOn (h : Unmoved D P) (hd : D d) (map : Json) (q : LinkQuery) :
    (Play.linkOn d map q).Preserves P := by
  refine (preserves_except _).bind fun selector => (h.reading _).bind fun limit => ?_
  refine (h.reading _).bind fun location => (h.linkReference d location).bind fun reference => ?_
  refine Preserves.ite ((h.note _).bind fun _ => preserves_pure _) ?_
  refine (h.candidates map).bind_of_ok fun pool s t hpool => ?_
  split
  · exact preserves_pure _
  · have hmap := toInt_of_candidates hpool
    refine (preserves_except _).bind fun pool => (preserves_except _).bind fun nearest => ?_
    split
    · exact (h.note _).bind fun _ => preserves_pure _
    · exact (h.linkTo hd _ hmap).bind fun _ => preserves_pure _

theorem link (h : Unmoved D P) (hd : D d) (q : LinkQuery) : (Play.link d q).Preserves P := by
  refine (preserves_except _).bind fun selector => (h.linkMap selector).bind fun map => ?_
  split
  · exact preserves_pure _
  · exact h.linkOn hd _ q

theorem unlink (h : Unmoved D P) (hd : D d) : (Play.unlink d).Preserves P :=
  h.adjust hd ⟨fun _ => rfl, fun _ => Or.inr ⟨0, rfl⟩⟩ fun _ => rfl

theorem setOrigin (h : Unmoved D P) (d : Nat) (spec : Location) :
    (Play.setOrigin d spec).Preserves P := by
  refine preserves_getBind fun s => ?_
  dsimp only
  refine (h.note _).ite ((h.reading _).bind fun found => ?_)
  split
  · exact (preserves_except _).bind fun map =>
      preserves_modify fun _ ht => h.recordOrigin map _ _ ht
  · exact preserves_pure ()

/-- The erasing of the event that a list acts for ends the link to it. -/
theorem eraseAddressed (h : Unmoved D P) (hd : D d)
    (herase : ∀ id : Int, (eraseEvent id).Preserves P) :
    (Play.eraseAddressed d).Preserves P := by
  refine preserves_getBind fun s => ?_
  dsimp only
  split
  · split
    · exact h.note _
    · exact (herase _).bind fun _ => h.unlink hd
  · split
    · exact herase _
    · exact preserves_pure ()

/-- The forcing of a route puts a character on it, and can make the list await it. -/
theorem forceNamed (h : Unmoved D P)
    (hforce : ∀ {s : Session} (who : CharacterId) (route : Option Route), P s →
      P (s.updateCharacter who (·.forceRoute route)))
    (hawait : ∀ {s : Session} (who : Option CharacterId), P s →
      P (s.updateFrame d fun f => { f with awaited := who })) (target : Int) (route : Json) :
    (Play.forceNamed d target route).Preserves P := by
  refine preserves_getBind fun s => ?_
  split
  · refine (h.reading _).bind fun route => ?_
    refine Preserves.bind (preserves_modify fun _ ht => hforce _ _ ht) fun _ => ?_
    exact Preserves.ite (preserves_modify fun _ ht => hawait _ ht) (preserves_pure ())
  · exact preserves_pure ()

/-! ### Switches and variables -/

theorem setSwitches (h : Unmoved D P) {s : Session} (ids : List Int) (on : Bool) (hs : P s) :
    P (ids.foldl (fun s id => s.setSwitch id on) s) := by
  induction ids generalizing s with
  | nil => exact hs
  | cons id rest ih => exact ih (h.setSwitch id on hs)

theorem operand (o : Operand) : (Play.operand o).Preserves P := by
  rcases o with v | slot
  · exact preserves_pure v
  · exact preserves_getBind fun _ => preserves_pure _

/-- A test changes nothing. -/
theorem test (d : Nat) (c : BranchCondition) : (Play.test d c).Preserves P := by
  refine preserves_getBind fun s => ?_
  dsimp only
  split
  · exact preserves_pure _
  · exact (operand _).bind fun _ => preserves_except _
  · exact (preserves_pure _).ite ((preserves_except _).bind fun _ => preserves_pure _)
  · exact preserves_except _
  · split
    · exact (preserves_except _).bind fun _ => preserves_pure _
    · exact preserves_pure _
  · exact preserves_pure _
  · exact preserves_throw _

theorem changeEach (h : Unmoved D P) (op : VariableOp) (value : Json) (ids : List Int) :
    (Play.changeEach op value ids).Preserves P := by
  induction ids with
  | nil => exact preserves_pure ()
  | cons id rest ih =>
      refine preserves_getBind fun s => (preserves_except _).bind fun new => ?_
      exact Preserves.bind (preserves_modify fun _ ht => h.setVariable id new ht) fun _ => ih

theorem drawBetween (h : Unmoved D P) (low high : Json) :
    (Play.drawBetween low high).Preserves P := by
  have hdraw : ∀ span : Json.Number, (do
      let s ← get
      modify fun s => { s with draws := s.draws.whole.2 }
      low.plus (← (Json.int s.draws.whole.1).modulo span.toJson) : Play Json).Preserves P := by
    intro span
    refine preserves_getBind fun s => (h.setDraws _).bind fun _ => ?_
    exact (preserves_except _).bind fun n => preserves_except _
  rw [drawBetween_eq_modify]
  refine (preserves_except _).bind fun width => (preserves_except _).bind fun count => ?_
  refine (preserves_except _).bind fun span => ?_
  dsimp only
  split
  · exact (preserves_throw _).bind fun _ => hdraw span
  · exact hdraw span

theorem sourceValue (h : Unmoved D P) (source : VariableSource) :
    (Play.sourceValue source).Preserves P := by
  cases source with
  | operand o => exact operand o
  | random low high => exact h.drawBetween low high

theorem changeItems (h : Unmoved D P) (kind : ItemKind) (id : Json) (lose : Bool) (amount : Operand) :
    (Play.changeItems kind id lose amount).Preserves P :=
  (operand _).bind fun _ => (preserves_except _).bind fun _ => h.gainItem _ _ _

/-! ### Random branches -/

theorem drawBranch (h : Unmoved D P) (set : BranchSet) : (Play.drawBranch set).Preserves P := by
  rw [drawBranch_eq_modify]
  refine Preserves.ite ((h.note _).bind fun _ => preserves_pure _) ?_
  exact preserves_getBind fun s => (h.setDraws _).bind fun _ => preserves_pure _

theorem weigh (h : Unmoved D P) (hd : D d) : (Play.weigh d).Preserves P := by
  refine preserves_getBind fun s => ?_
  dsimp only
  split
  · exact (h.note _).bind fun _ => preserves_pure _
  · split
    · exact (h.note _).bind fun _ => preserves_pure _
    · split
      · exact preserves_pure _
      · refine (h.drawBranch _).bind fun chosen => ?_
        exact Preserves.bind (h.changeFrame hd fun _ => ⟨rfl, rfl, rfl⟩) fun _ => preserves_pure _

theorem endWeights (h : Unmoved D P) (hd : D d) : (Play.endWeights d).Preserves P := by
  refine preserves_getBind fun s => ?_
  dsimp only
  exact Preserves.ite (h.changeFrame hd fun _ => ⟨rfl, rfl, rfl⟩) (h.note _)

theorem setNewOrigin (h : Unmoved D P) (d : Nat) (args : OrderedMap String Json) :
    (Play.setNewOrigin d args).Preserves P := by
  refine (h.reading _).bind fun spec => ?_
  split
  · exact h.setOrigin d _
  · exact preserves_pure ()

theorem changeBehavior (h : Unmoved D P) (args : OrderedMap String Json) :
    (Play.setBehavior args).Preserves P := by
  unfold Play.setBehavior
  dsimp only
  split
  · exact preserves_modify fun _ ht => h.setBehavior _ ht
  · exact h.note _

/-! ### Calls of this layer -/

theorem carryOutOwn (h : Unmoved D P) (hd : D d) {c : LayerCommand}
    (hshow : c.givesTreasure = true → displayTreasure.Preserves P) (args : OrderedMap String Json) :
    (Play.carryOutOwn d c args).Preserves P := by
  cases c with
  | triggerMarker => exact preserves_pure _
  | treasure kind => exact (h.giveItem (hshow rfl) _ _ _).discard.bind fun _ => preserves_pure _
  | treasureGold => exact (h.giveGold (hshow rfl) _).discard.bind fun _ => preserves_pure _
  | treasureByName => exact (h.giveNamedOrNote (hshow rfl) args).bind fun _ => preserves_pure _
  | linkEvent => exact (h.link hd _).discard.bind fun _ => preserves_pure _
  | unlinkEvent => exact (h.unlink hd).bind fun _ => preserves_pure _
  | weight => exact h.weigh hd
  | endWeights => exact (h.endWeights hd).bind fun _ => preserves_pure _
  | setNewOrigin => exact (h.setNewOrigin d args).bind fun _ => preserves_pure _
  | routeBehavior => exact (h.changeBehavior args).bind fun _ => preserves_pure _

theorem carryOutCall (h : Unmoved D P) (hd : D d) {call : PluginCall}
    (hshow : (Instruction.plugin call).givesTreasure = true → displayTreasure.Preserves P) :
    (Play.carryOutCall d call).Preserves P := by
  unfold Play.carryOutCall
  split
  · next c hc =>
      refine h.carryOutOwn hd (fun hgives => hshow ?_) _
      rw [Instruction.givesTreasure, hc]
      exact hgives
  · exact preserves_pure _

/-! ### Commands -/

/-- What a command keeps if those keep it that call a common event, force a route, or erase an event. -/
theorem carryOutPlain (h : Unmoved D P) (hd : D d) {i : Instruction}
    (hcall : ∀ id, i = .callCommon id → (callCommon d id).Preserves P)
    (hforce : ∀ target route, i = .forceRoute target route →
      (Play.forceNamed d target route).Preserves P)
    (herase : i = .eraseEvent → (Play.eraseAddressed d).Preserves P) :
    (Play.carryOutPlain d i).Preserves P := by
  have hrefresh : (modify Session.requestRefresh : Play PUnit).Preserves P :=
    preserves_modify fun _ ht => h.requestRefresh ht
  unfold Play.carryOutPlain
  split
  · exact hcall _ rfl
  · exact Preserves.bind (preserves_modify fun _ ht => h.setSwitches _ _ ht) fun _ => hrefresh
  · refine (h.sourceValue _).bind fun value => (preserves_except _).bind fun first => ?_
    refine (preserves_except _).bind fun last => (h.changeEach _ _ _).bind fun _ => hrefresh
  · refine preserves_getBind fun s => ?_
    dsimp only
    split
    · refine (preserves_except _).bind fun channel => (preserves_except _).bind fun key => ?_
      exact Preserves.bind (preserves_modify fun _ ht => h.setSelfSwitch _ _ ht) fun _ => hrefresh
    · exact preserves_pure ()
  · refine (operand _).bind fun v => (preserves_except _).bind fun v => ?_
    exact (preserves_except _).bind fun v => h.gainGold v
  · exact h.changeItems _ _ _ _
  · exact hforce _ _ rfl
  · exact herase rfl
  · exact h.changeFrame hd fun _ => ⟨rfl, rfl, rfl⟩
  · exact (h.playSound _).ite (preserves_pure ())
  · exact preserves_throw _
  · exact preserves_pure ()

/-- **A command keeps what its calls keep.** -/
theorem carryOut (h : Unmoved D P) (hd : D d) {i : Instruction}
    (hcall : ∀ id, i = .callCommon id → (callCommon d id).Preserves P)
    (hforce : ∀ target route, i = .forceRoute target route →
      (Play.forceNamed d target route).Preserves P)
    (herase : i = .eraseEvent → (Play.eraseAddressed d).Preserves P)
    (hshow : i.givesTreasure = true → displayTreasure.Preserves P) : (Play.carryOut d i).Preserves P := by
  refine preserves_getBind fun s => ?_
  dsimp only
  split
  · exact (preserves_except _).bind fun lines => (h.showText _).bind fun _ => preserves_pure _
  · refine (test d _).bind fun holds => Preserves.bind (h.changeFrame hd fun _ => ⟨rfl, rfl, rfl⟩) fun _ => ?_
    exact (preserves_pure _).ite ((preserves_except _).bind fun _ => preserves_pure _)
  · exact (preserves_pure _).ite ((preserves_except _).bind fun _ => preserves_pure _)
  · exact preserves_pure _
  · refine (h.carryOutCall hd hshow).bind fun stop => ?_
    split
    · exact preserves_pure _
    · exact preserves_pure _
  · exact (h.carryOutPlain hd hcall hforce herase).bind fun _ => preserves_pure _

end Unmoved

namespace Enduring

variable {P : Session → Prop}

/-! ### Events and routes -/

theorem eraseAddressed (h : Enduring P) (d : Nat) : (Play.eraseAddressed d).Preserves P :=
  h.toUnmoved.eraseAddressed trivial h.eraseEvent

theorem forceNamed (h : Enduring P) (d : Nat) (target : Int) (route : Json) :
    (Play.forceNamed d target route).Preserves P :=
  h.toUnmoved.forceNamed h.forceRoute (h.await d) target route

theorem carryOutPlain (h : Enduring P) (d : Nat) {i : Instruction}
    (hcall : ∀ id, i = .callCommon id → (callCommon d id).Preserves P) :
    (Play.carryOutPlain d i).Preserves P :=
  h.toUnmoved.carryOutPlain trivial hcall (fun _ _ _ => h.forceNamed d _ _) fun _ => h.eraseAddressed d

/-- **A command keeps what its calls keep**, if its writes keep it. -/
theorem carryOut (h : Enduring P) (d : Nat) {i : Instruction}
    (hcall : ∀ id, i = .callCommon id → (callCommon d id).Preserves P)
    (hshow : i.givesTreasure = true → displayTreasure.Preserves P) : (Play.carryOut d i).Preserves P :=
  h.toUnmoved.carryOut trivial hcall (fun _ _ _ => h.forceNamed d _ _) (fun _ => h.eraseAddressed d) hshow

end Enduring

/-! ### Command lists -/

/-- An enduring property that calls of common events leave, and whatever leads from one command to the
next. -/
structure Stepwise (P : Session → Prop) : Prop extends Enduring P where
  callCommon : ∀ (d : Nat) (id : Json), (Play.callCommon d id).Preserves P
  terminate : ∀ {s : Session} (d : Nat), P s → P (s.updateFrame d Frame.terminate)
  cut : ∀ {s : Session} (d : Nat), P s → P (s.updateInterpreter fun i => i.cut d)
  goOn : ∀ (d : Nat) (i : Instruction), (do
    let next ← Play.carryOut d i
    modify (updateFrame d fun f => { f with index := next }) : Play Unit).Preserves P

/-- Such a property that does not depend on which list is carrying out a command. -/
structure Sustained (P : Session → Prop) : Prop extends Stepwise P where
  activate : ∀ {s : Session} (a : Option Nat), P s → P { s with active := a }

/-- A treasure is shown by a common event, which is called or waits to be run. -/
theorem preserves_displayTreasure {P : Session → Prop}
    (hcall : ∀ (d : Nat) (id : Json), (callCommon d id).Preserves P)
    (hreserve : ∀ (s : Session) (id : Int), P s → P (s.reserve id)) :
    displayTreasure.Preserves P := by
  have hlater : ∀ id : Int, (modify (Session.reserve id) : Play PUnit).Preserves P := by
    intro id
    exact preserves_modify fun s hs => hreserve s id hs
  refine preserves_getBind fun s => (preserves_pure ()).ite ?_
  split
  · exact (hcall _ _).ite (hlater _)
  · exact hlater _

/-- What endures calls of common events endures the showing of a treasure. -/
theorem Enduring.displayTreasure {P : Session → Prop} (h : Enduring P)
    (hcall : ∀ (d : Nat) (id : Json), (callCommon d id).Preserves P) :
    displayTreasure.Preserves P :=
  preserves_displayTreasure hcall fun _ _ hs => h.setReserved _ hs

/-- An enduring property that no change of the command lists touches is left by their steps. -/
theorem Enduring.stepwise {P : Session → Prop} (h : Enduring P)
    (hlists : ∀ {s : Session} (i : Interpreter), P s → P { s with interpreter := i }) : Stepwise P := by
  have hcall : ∀ (d : Nat) (id : Json), (callCommon d id).Preserves P := by
    intro d id
    refine preserves_getBind fun s => ?_
    split
    · exact h.note _
    · exact Preserves.bind (preserves_getBind fun _ => (h.reading _).bind fun _ => preserves_pure _)
        fun frame => preserves_modify fun _ hs => hlists _ hs
  refine { h with callCommon := hcall, terminate := ?_, cut := ?_, goOn := ?_ }
  · intro s d hs
    exact hlists _ hs
  · intro s d hs
    exact hlists _ hs
  · intro d i
    refine Preserves.bind (h.carryOut d (fun id _ => hcall d id) fun _ => ?_) fun _ => ?_
    · exact h.displayTreasure hcall
    · exact preserves_modify fun _ hs => hlists _ hs

theorem Enduring.sustained {P : Session → Prop} (h : Enduring P)
    (hlists : ∀ {s : Session} (i : Interpreter), P s → P { s with interpreter := i })
    (hactive : ∀ {s : Session} (a : Option Nat), P s → P { s with active := a }) : Sustained P :=
  { h.stepwise hlists with activate := hactive }

/-- A step carries out the next command, if it is one. -/
theorem step_of_current {s : Session} {d : Nat} {c : EventCommand} (h : (s.frame d).current? = some c) :
    step d s = .error .notAnObject s ∨ step d s = (do
      modify (updateFrame d (beginCommand c))
      let next ← carryOut d c.instruction
      modify (updateFrame d fun f => { f with index := next }) : Play Unit) s := by
  unfold step
  rw [get_bind_apply, h]
  dsimp only
  split
  · exact Or.inl rfl
  · exact Or.inr rfl

/-- Waiting counts a frame down, or is over when a route is. -/
theorem preserves_waits {P : Session → Prop} {d : Nat}
    (hcount : ∀ s : Session, P s → P (s.updateFrame d fun f => { f with waitCount := f.waitCount - 1 }))
    (hfree : ∀ s : Session, P s → P (s.updateFrame d fun f => { f with awaited := none })) :
    (waits d).Preserves P := by
  refine preserves_getBind fun s => ?_
  dsimp only
  split
  · exact Preserves.bind (preserves_modify hcount) fun _ => preserves_pure _
  · split
    · exact preserves_pure _
    · exact (preserves_pure _).ite (Preserves.bind (preserves_modify hfree) fun _ => preserves_pure _)

namespace Stepwise

variable {P : Session → Prop}

theorem displayTreasure (h : Stepwise P) : Play.displayTreasure.Preserves P :=
  h.toEnduring.displayTreasure h.callCommon

theorem step (h : Stepwise P) (d : Nat) : (Play.step d).Preserves P := by
  refine preserves_getBind fun s => ?_
  split
  · exact preserves_modify fun t ht => h.cut d (h.terminate d ht)
  · next c _ =>
      have hrun : (do
          modify (updateFrame d (beginCommand c))
          let next ← Play.carryOut d c.instruction
          modify (updateFrame d fun f => { f with index := next }) : Play Unit).Preserves P :=
        Preserves.bind (h.changeFrame trivial fun _ => ⟨rfl, rfl, rfl⟩) fun _ => h.goOn d c.instruction
      dsimp only
      split
      · exact (preserves_throw _).bind fun _ => hrun
      · exact hrun

theorem waits (h : Stepwise P) (d : Nat) : (Play.waits d).Preserves P :=
  preserves_waits (h.changeFrame trivial fun _ => ⟨rfl, rfl, rfl⟩) fun _ hs => h.await d _ hs

theorem runCallee (h : Stepwise P) {runNested : Play Unit} (hn : runNested.Preserves P) (d : Nat) :
    (Play.runCallee runNested d).Preserves P := by
  refine preserves_getBind fun s => (preserves_pure _).ite (hn.bind fun _ => ?_)
  refine preserves_getBind fun s => (preserves_pure _).ite ?_
  exact Preserves.bind (preserves_modify fun _ ht => h.cut d ht) fun _ => preserves_pure _

/-- A run of a list keeps what its steps keep, by induction on the commands that are left. -/
theorem runCommands (h : Stepwise P) {runNested : Play Unit} (hn : runNested.Preserves P)
    (d budget : Nat) : (Play.runCommands runNested d budget).Preserves P := by
  induction budget with
  | zero => exact preserves_throw _
  | succ budget ih =>
      refine preserves_getBind fun s => (preserves_pure ()).ite ?_
      refine (h.runCallee hn d).bind fun called => (preserves_pure ()).ite ?_
      refine (h.waits d).bind fun waiting => (preserves_pure ()).ite ?_
      exact (h.step d).bind fun _ => ih

end Stepwise

namespace Sustained

variable {P : Session → Prop}

theorem runFrame (h : Sustained P) (levels d : Nat) : (Play.runFrame levels d).Preserves P := by
  induction levels generalizing d with
  | zero => exact preserves_throw _
  | succ levels ih =>
      refine Preserves.between (fun _ hs => h.activate _ hs) (fun _ _ ht => h.activate _ ht) ?_
      exact preserves_getBind fun s => h.runCommands (ih (d + 1)) d _

/-- **A run of the command lists keeps a sustained property.** -/
theorem runInterpreter (h : Sustained P) : Play.runInterpreter.Preserves P :=
  preserves_getBind fun _ => h.runFrame _ 0

end Sustained

end Play

end EventLayer
