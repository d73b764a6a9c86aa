/-
**Commands in lockstep.**

A command looks at more than a session shows: at the command list that carries it out, at what that
list is linked to and at the choices made in it.  A relation that is privy to the command lists has
them equal in both sessions.  Under such a relation treasures, links, tests and random branches are in
lockstep.  Only a few commands write the ground, and those are not treated here.

Main definitions:

* `Session.inside` — what a session shows to its command lists;
* `Play.linkAmong` — a link once its query has been read;
* `Play.Privy` — faithful relations that are privy to the command lists.

Main results:

* `Play.Privy.giveItem`, `Play.Privy.giveNamedOrNote` — treasures;
* `Play.Privy.link`, `Play.Privy.test`, `Play.Privy.weigh` — links, tests and random branches;
* `Play.Privy.carryOutCall` — **a call of this layer is in lockstep**.
-/
import EventLayer.Proofs.Lockstep.Moves
import EventLayer.Proofs.Results
import EventLayer.Session.Commands

set_option autoImplicit false
set_option relaxedAutoImplicit false

namespace EventLayer

open Session

/-- What a session shows to its command lists. -/
def Session.inside (s : Session) : Session := { s.seen with interpreter := s.interpreter }

/-! ### Parties -/

namespace Party

variable {p q : Party}

theorem members_gainOf {entry amount : Json} (h : p.gainOf entry amount = .ok q) :
    q.members = p.members := by
  obtain ⟨key?, -, h⟩ := Except.bind_eq_ok h
  cases key? with
  | none =>
      cases h
      rfl
  | some key =>
      obtain ⟨n, -, h⟩ := Except.bind_eq_ok h
      obtain ⟨m, -, h⟩ := Except.bind_eq_ok h
      cases h
      rfl

theorem members_gainGold {amount : Json.Number} (h : p.gainGold amount = .ok q) :
    q.members = p.members := by
  obtain ⟨n, -, h⟩ := Except.bind_eq_ok h
  cases h
  rfl

end Party

namespace Play

/-- Link a command list to the nearest of the events on a map that pass the filters; whether there is one.
This is what is left of a link once the query has been read. -/
def linkAmong (d : Nat) (map : Json) (selector : Selector) (wanted : String) (limit : Option Int)
    (reference : Option Point) : Play Bool := do
  match ← candidates map with
  | none => return false
  | some pool =>
    let pool ← Candidate.kept pool selector wanted reference limit
    match ← Candidate.nearest? pool reference with
    | none =>
      note (.linkUnmatched map)
      return false
    | some chosen =>
      linkTo d chosen.id map
      return true

/-- A faithful relation under which the command lists are the same, and that survives a change of
them. -/
structure Privy (R : Session → Session → Prop) : Prop extends Faithful R where
  interpreter : ∀ {s t : Session}, R s t → s.interpreter = t.interpreter
  frames : ∀ {s t : Session} (i : Interpreter), R s t →
    R { s with interpreter := i } { t with interpreter := i }

namespace Privy

variable {α β : Type} {R : Session → Session → Prop}

theorem inside (h : Privy R) {s t : Session} (hst : R s t) : s.inside = t.inside := by
  rw [Session.inside, Session.inside, h.seen hst, h.interpreter hst]

/-- A sequence that begins with a look at what is shown to the command lists. -/
theorem lookIn (h : Privy R) {E : Session → Session → Prop} {f : Session → Play β}
    (hf : ∀ s : Session, f s.inside = f s) (hrest : ∀ s, (f s).Lockstep R R E) :
    (get >>= f : Play β).Lockstep R R E := by
  refine lockstep_getBind (fun s t hst => ?_) hrest
  rw [← hf s, h.inside hst, hf t]

/-- A change of the command lists. -/
theorem onLists (h : Privy R) {E : Session → Session → Prop} (F : Interpreter → Interpreter) :
    (modify (updateInterpreter F) : Play PUnit).Lockstep R R E := by
  refine lockstep_modify fun s t hst => ?_
  rw [updateInterpreter, updateInterpreter, h.interpreter hst]
  exact h.frames _ hst

theorem onFrame (h : Privy R) {E : Session → Session → Prop} (d : Nat) (F : Frame → Frame) :
    (modify (updateFrame d F) : Play PUnit).Lockstep R R E :=
  h.onLists fun i => i.modify F d

/-! ### Common events -/

theorem openFrame (h : Privy R) (list : Json) (event : Int) :
    (Play.openFrame list event).Lockstep R R R :=
  h.look (fun _ => rfl) fun _ => (h.reading _).bind fun _ => lockstep_value _

theorem callCommon (h : Privy R) (d : Nat) (id : Json) : (Play.callCommon d id).Lockstep R R R := by
  refine h.lookIn (fun _ => rfl) fun s => ?_
  split
  · exact h.note _
  · exact (h.openFrame _ _).bind fun frame => h.onLists fun i => i.push d frame

theorem reserve (h : Privy R) (id : Int) :
    (modify (Session.reserve id) : Play PUnit).Lockstep R R R :=
  h.quietly ⟨fun _ => rfl, fun _ => ⟨rfl, rfl⟩⟩

theorem displayTreasure (h : Privy R) : Play.displayTreasure.Lockstep R R R := by
  refine h.lookIn (fun _ => rfl) fun s => (lockstep_value ()).ite ?_
  split
  · exact (h.callCommon _ _).ite (h.reserve _)
  · exact h.reserve _

theorem announce (h : Privy R) (t : Treasure) : (Play.announce t).Lockstep R R R := by
  refine Lockstep.bind (h.quietly ?_) fun _ => ?_
  · exact ⟨fun _ => rfl, fun _ => ⟨rfl, rfl⟩⟩
  · exact h.displayTreasure.bind fun _ => lockstep_value t

/-! ### Things and gold -/

/-- A change of what the party holds, with a value. -/
def onParty (f : Game → Party → Except Fault (α × Party)) : Play α := fun s =>
  match f s.game s.stores.party with
  | .ok (a, party) => .ok a { s with stores.party := party }
  | .error e => .error e s

/-- Gold and things are no part of the ground. -/
theorem lockstep_onParty (h : Privy R) {f : Game → Party → Except Fault (α × Party)}
    (hf : ∀ g p a q, f g p = .ok (a, q) → q.members = p.members) :
    (onParty f).Lockstep R R R := by
  intro s t hst
  have hseen := h.seen hst
  have hgame : s.game = t.game := congrArg (fun u => u.game) hseen
  have hstores : s.stores = t.stores := congrArg (fun u => u.stores) hseen
  have hfound : f t.game t.stores.party = f s.game s.stores.party := by rw [hgame, hstores]
  have hkept := hf s.game s.stores.party
  unfold onParty
  rw [hfound]
  generalize f s.game s.stores.party = r at hkept
  cases r with
  | error e => exact .error hst
  | ok found =>
      obtain ⟨a, party⟩ := found
      have hs : party.members = s.stores.party.members := hkept a party rfl
      have ht : party.members = t.stores.party.members := by rw [hs, hstores]
      refine .ok (h.stays hst ⟨rfl, ?_⟩ ⟨rfl, ?_⟩ ?_)
      · simp only [Session.ground, hs]
      · simp only [Session.ground, ht]
      · exact congrArg (fun u : Session => { u with stores.party := party }) hseen

theorem gainItem_apply (kind : ItemKind) (id amount : Json) (s : Session) :
    Play.gainItem kind id amount s = onParty (fun g p =>
      match g.database.item? kind id with
      | some entry => (p.gainOf entry amount).map fun q => ((), q)
      | none => .ok ((), p)) s := by
  rw [Play.gainItem, get_bind_apply, onParty]
  cases s.game.database.item? kind id with
  | none => rfl
  | some entry =>
      dsimp only
      cases s.stores.party.gainOf entry amount <;> rfl

theorem gainItem (h : Privy R) (kind : ItemKind) (id amount : Json) :
    (Play.gainItem kind id amount).Lockstep R R R := by
  refine Lockstep.congr (h.lockstep_onParty fun g p a q hq => ?_) (gainItem_apply kind id amount)
  split at hq
  · next entry _ =>
      cases hgain : p.gainOf entry amount with
      | error e =>
          rw [hgain] at hq
          cases hq
      | ok q' =>
          rw [hgain] at hq
          cases hq
          exact Party.members_gainOf hgain
  · cases hq
    rfl

theorem gainGold (h : Privy R) (amount : Json.Number) :
    (Play.gainGold amount).Lockstep R R R := by
  have hparty : (onParty fun _ p =>
      (p.gainGold amount).map fun q => ((), q)).Lockstep R R R := by
    refine h.lockstep_onParty fun g p a q hq => ?_
    cases hgain : p.gainGold amount with
    | error e =>
        rw [hgain] at hq
        cases hq
    | ok q' =>
        rw [hgain] at hq
        cases hq
        exact Party.members_gainGold hgain
  refine hparty.congr fun s => ?_
  rw [Play.gainGold, get_bind_apply, onParty]
  cases s.stores.party.gainGold amount <;> rfl

theorem giveEntry (h : Privy R) (entry : Json) (amount : Int) :
    (Play.giveEntry entry amount).Lockstep R R R := by
  have hparty : (onParty fun _ p => do
      let n ← p.countOf entry
      if Party.isFull n then return (false, p)
      return (true, ← p.gainOf entry (.int amount))).Lockstep R R R := by
    refine h.lockstep_onParty fun g p a q hq => ?_
    obtain ⟨n, -, hq⟩ := Except.bind_eq_ok hq
    split at hq
    · cases hq
      rfl
    · obtain ⟨q', hgain, hq⟩ := Except.bind_eq_ok hq
      cases hq
      exact Party.members_gainOf hgain
  refine hparty.congr fun s => ?_
  rw [Play.giveEntry, get_bind_apply, onParty]
  cases hn : s.stores.party.countOf entry with
  | error e => rfl
  | ok n =>
      change (ite (Party.isFull n = true) _ _ : Play Bool) s = _
      simp only [Except.ok_bind]
      split
      · rfl
      · cases s.stores.party.gainOf entry (.int amount) <;> rfl

/-! ### Treasures -/

theorem giveItem (h : Privy R) (kind : ItemKind) (id amount : Json) :
    (Play.giveItem kind id amount).Lockstep R R R := by
  refine (h.reading _).bind fun id => (h.reading _).bind fun amount => ?_
  refine h.lookIn (fun _ => rfl) fun s => ?_
  split
  · exact (h.note _).bind fun _ => h.announce _
  · refine (h.giveEntry _ _).bind fun success => ?_
    exact (lockstep_lift _).bind fun icon => h.announce _

theorem giveKind (h : Privy R) (word : String) (id amount : Json) :
    (Play.giveKind word id amount).Lockstep R R R :=
  (h.reading _).bind fun kind => h.giveItem kind id amount

theorem giveGold (h : Privy R) (amount : Json) : (Play.giveGold amount).Lockstep R R R := by
  refine (h.reading _).bind fun amount => h.lookIn (fun _ => rfl) fun s => ?_
  dsimp only
  split
  · exact (h.gainGold _).bind fun _ => h.announce _
  · exact h.announce _

theorem giveNamed (h : Privy R) (name : Option String) (amount : Json) :
    (Play.giveNamed name amount).Lockstep R R R := by
  refine h.lookIn (fun _ => rfl) fun s => (lockstep_lift _).bind fun found => ?_
  split
  · exact lockstep_fault _
  · exact h.giveItem _ _ _

/-- A treasure whose name nothing carries is found out in both runs. -/
theorem giveNamedOrNote (h : Privy R) (args : OrderedMap String Json) :
    (Play.giveNamedOrNote args).Lockstep R R R := by
  refine (h.giveNamed _ _).discard.tryCatch fun e => ?_
  split
  · exact h.note _
  · exact lockstep_fault _

theorem showText (h : Privy R) (text : String) : (Play.showText text).Lockstep R R R := by
  refine h.look (fun _ => rfl) fun s => (lockstep_lift _).bind fun shown => ?_
  exact h.quietly ⟨fun _ => rfl, fun _ => ⟨rfl, rfl⟩⟩

/-! ### Links -/

theorem linkMap (h : Privy R) (selector : Selector) : (Play.linkMap selector).Lockstep R R R := by
  cases selector with
  | any => exact h.look (fun _ => rfl) fun _ => lockstep_value _
  | number n => exact lockstep_value _
  | truth => exact lockstep_value _
  | name word =>
      refine h.look (fun _ => rfl) fun s => ?_
      dsimp only
      split
      · exact (h.note _).bind fun _ => lockstep_value _
      · exact lockstep_value _

theorem remoteCandidates (h : Privy R) (map : Json) :
    (Play.remoteCandidates map).Lockstep R R R := by
  refine h.look (fun _ => rfl) fun s => (lockstep_lift _).bind fun found => ?_
  split
  · exact (h.note _).bind fun _ => lockstep_value _
  · refine (lockstep_lift _).bind fun _ => (lockstep_lift _).bind fun events => ?_
    exact (lockstep_lift _).bind fun id => (lockstep_lift _).bind fun pool => lockstep_value _

theorem candidates (h : Privy R) (map : Json) : (Play.candidates map).Lockstep R R R :=
  h.look (fun _ => rfl) fun _ => (lockstep_value _).ite (h.remoteCandidates map)

theorem linkReference (h : Privy R) (d : Nat) (location : Option Location) :
    (Play.linkReference d location).Lockstep R R R := by
  refine h.lookIn (fun s => ?_) fun s => ?_
  · have hpose : ∀ who, s.inside.poseOf who = s.poseOf who := fun who => by cases who <;> rfl
    have hpoint : s.inside.player.body.point = s.player.body.point := rfl
    have hnamed : s.inside.characterNamed d 0 = s.characterNamed d 0 := rfl
    have hposes : s.inside.poseOf = s.poseOf := funext hpose
    simp only [hpoint, hnamed, hposes]
  · split
    · exact lockstep_value _
    · exact h.reading _

theorem linkTo (h : Privy R) (d : Nat) (event : Int) (map : Json) :
    (Play.linkTo d event map).Lockstep R R R := by
  have hset := h.onFrame (E := R) d fun f => { f with link := { event, map } }
  unfold Play.linkTo
  split
  · exact (lockstep_lift _).discard.bind fun _ => hset
  · exact hset

theorem linkAmong (h : Privy R) (d : Nat) (map : Json) (selector : Selector) (wanted : String)
    (limit : Option Int) (reference : Option Point) :
    (Play.linkAmong d map selector wanted limit reference).Lockstep R R R := by
  refine (h.candidates map).bind fun pool => ?_
  split
  · exact lockstep_value _
  · refine (lockstep_lift _).bind fun pool => (lockstep_lift _).bind fun nearest => ?_
    split
    · exact (h.note _).bind fun _ => lockstep_value _
    · exact (h.linkTo d _ map).bind fun _ => lockstep_value _

theorem linkOn (h : Privy R) (d : Nat) (map : Json) (q : LinkQuery) :
    (Play.linkOn d map q).Lockstep R R R := by
  refine (lockstep_lift _).bind fun selector => (h.reading _).bind fun limit => ?_
  refine (h.reading _).bind fun location => (h.linkReference d location).bind fun reference => ?_
  exact ((h.note _).bind fun _ => lockstep_value _).ite (h.linkAmong d map _ _ _ reference)

theorem link (h : Privy R) (d : Nat) (q : LinkQuery) : (Play.link d q).Lockstep R R R := by
  refine (lockstep_lift _).bind fun selector => (h.linkMap selector).bind fun map => ?_
  split
  · exact lockstep_value _
  · exact h.linkOn d _ q

theorem unlink (h : Privy R) (d : Nat) : (Play.unlink d).Lockstep R R R :=
  h.onFrame d fun f => { f with link := {} }

theorem recordOrigin (h : Privy R) (map event : Int) (p : Point) :
    (modify (Session.recordOrigin map event p) : Play PUnit).Lockstep R R R :=
  h.quietly ⟨fun _ => rfl, fun _ => ⟨rfl, rfl⟩⟩

theorem setOrigin (h : Privy R) (d : Nat) (spec : Location) :
    (Play.setOrigin d spec).Lockstep R R R := by
  refine h.lookIn (fun s => ?_) fun s => ?_
  · have hposes : s.inside.poseOf = s.poseOf := funext fun who => by cases who <;> rfl
    have hscope : s.inside.resolve d = s.resolve d := rfl
    have hnamed : s.inside.characterNamed d 0 = s.characterNamed d 0 := rfl
    have hmap : s.inside.map.id = s.map.id := rfl
    simp only [hposes, hscope, hnamed, hmap]
  · dsimp only
    refine (h.note _).ite ((h.reading _).bind fun found => ?_)
    split
    · exact (lockstep_lift _).bind fun map => h.recordOrigin _ _ _
    · exact lockstep_value ()

/-! ### Tests and values -/

theorem operand (h : Privy R) (o : Operand) : (Play.operand o).Lockstep R R R := by
  rcases o with v | slot
  · exact lockstep_value v
  · exact h.lookIn (fun _ => rfl) fun s => lockstep_value _

/-- **The test of a conditional branch comes out the same in both runs.** -/
theorem test (h : Privy R) (d : Nat) (c : BranchCondition) : (Play.test d c).Lockstep R R R := by
  rcases c with ⟨slot, on⟩ | ⟨slot, relation, value⟩ | ⟨channel, on⟩ | ⟨relation, bound⟩ |
    ⟨kind, id⟩ | _ | e
  · exact h.lookIn (fun _ => rfl) fun s => lockstep_value _
  · refine h.lookIn (fun _ => rfl) fun s => ?_
    exact (h.operand _).bind fun _ => lockstep_lift _
  · refine h.lookIn (fun _ => rfl) fun s => ?_
    dsimp only
    exact (lockstep_value _).ite ((lockstep_lift _).bind fun _ => lockstep_value _)
  · exact h.lookIn (fun _ => rfl) fun s => lockstep_lift _
  · refine h.lookIn (fun _ => rfl) fun s => ?_
    dsimp only
    split
    · exact (lockstep_lift _).bind fun _ => lockstep_value _
    · exact lockstep_value _
  · exact h.lookIn (fun _ => rfl) fun s => lockstep_value _
  · exact h.lookIn (fun _ => rfl) fun s => lockstep_fault _

theorem drawBetween (h : Privy R) (low high : Json) :
    (Play.drawBetween low high).Lockstep R R R := by
  have htaken : Session.Quiet fun s => { s with draws := s.draws.whole.2 } :=
    ⟨fun _ => rfl, fun _ => ⟨rfl, rfl⟩⟩
  have hdraw : ∀ span : Json.Number, (do
      let s ← get
      modify fun s => { s with draws := s.draws.whole.2 }
      low.plus (← (Json.int s.draws.whole.1).modulo span.toJson) : Play Json).Lockstep R R R := by
    refine fun span => h.look (fun _ => rfl) fun s => (h.quietly htaken).bind fun _ => ?_
    exact (lockstep_lift _).bind fun n => lockstep_lift _
  rw [Play.drawBetween_eq_modify]
  refine (lockstep_lift _).bind fun width => (lockstep_lift _).bind fun count => ?_
  refine (lockstep_lift _).bind fun span => ?_
  dsimp only
  split
  · exact (lockstep_fault _).bind fun _ => hdraw span
  · exact hdraw span

theorem sourceValue (h : Privy R) (source : VariableSource) :
    (Play.sourceValue source).Lockstep R R R := by
  cases source with
  | operand o => exact h.operand o
  | random low high => exact h.drawBetween low high

theorem changeItems (h : Privy R) (kind : ItemKind) (id : Json) (lose : Bool) (amount : Operand) :
    (Play.changeItems kind id lose amount).Lockstep R R R :=
  (h.operand _).bind fun _ => (lockstep_lift _).bind fun _ => h.gainItem _ _ _

/-! ### Routes and random branches -/

theorem forceNamed (h : Privy R) (d : Nat) (target : Int) (route : Json) :
    (Play.forceNamed d target route).Lockstep R R R := by
  refine h.lookIn (fun _ => rfl) fun s => ?_
  split
  · refine (h.reading _).bind fun route => (h.forceRouteOf _ _).bind fun _ => ?_
    exact (h.onFrame d _).ite (lockstep_value ())
  · exact lockstep_value ()

theorem drawBranch (h : Privy R) (set : BranchSet) : (Play.drawBranch set).Lockstep R R R := by
  have htaken : Session.Quiet fun s => { s with draws := s.draws.fraction.2 } :=
    ⟨fun _ => rfl, fun _ => ⟨rfl, rfl⟩⟩
  rw [Play.drawBranch_eq_modify]
  refine Lockstep.ite ((h.note _).bind fun _ => lockstep_value _) ?_
  exact h.look (fun _ => rfl) fun s => (h.quietly htaken).bind fun _ => lockstep_value _

theorem weigh (h : Privy R) (d : Nat) : (Play.weigh d).Lockstep R R R := by
  refine h.lookIn (fun _ => rfl) fun s => ?_
  dsimp only
  split
  · exact (h.note _).bind fun _ => lockstep_value _
  · split
    · exact (h.note _).bind fun _ => lockstep_value _
    · split
      · exact lockstep_value _
      · refine (h.drawBranch _).bind fun chosen => ?_
        exact (h.onFrame d _).bind fun _ => lockstep_value _

theorem endWeights (h : Privy R) (d : Nat) : (Play.endWeights d).Lockstep R R R :=
  h.lookIn (fun _ => rfl) fun _ => (h.onFrame d _).ite (h.note _)

/-! ### Calls of this layer -/

theorem setNewOrigin (h : Privy R) (d : Nat) (args : OrderedMap String Json) :
    (Play.setNewOrigin d args).Lockstep R R R := by
  refine (h.reading _).bind fun spec => ?_
  split
  · exact h.setOrigin d _
  · exact lockstep_value ()

theorem setBehavior (h : Privy R) (args : OrderedMap String Json) :
    (Play.setBehavior args).Lockstep R R R := by
  unfold Play.setBehavior
  dsimp only
  split
  · exact h.quietly ⟨fun _ => rfl, fun _ => ⟨rfl, rfl⟩⟩
  · exact h.note _

theorem carryOutOwn (h : Privy R) (d : Nat) (c : LayerCommand) (args : OrderedMap String Json) :
    (Play.carryOutOwn d c args).Lockstep R R R := by
  cases c with
  | triggerMarker => exact lockstep_value _
  | treasure kind => exact (h.giveItem _ _ _).discard.bind fun _ => lockstep_value _
  | treasureGold => exact (h.giveGold _).discard.bind fun _ => lockstep_value _
  | treasureByName => exact (h.giveNamedOrNote args).bind fun _ => lockstep_value _
  | linkEvent => exact (h.link d _).discard.bind fun _ => lockstep_value _
  | unlinkEvent => exact (h.unlink d).bind fun _ => lockstep_value _
  | weight => exact h.weigh d
  | endWeights => exact (h.endWeights d).bind fun _ => lockstep_value _
  | setNewOrigin => exact (h.setNewOrigin d args).bind fun _ => lockstep_value _
  | routeBehavior => exact (h.setBehavior args).bind fun _ => lockstep_value _

/-- **A call of this layer is in lockstep.** -/
theorem carryOutCall (h : Privy R) (d : Nat) (call : PluginCall) :
    (Play.carryOutCall d call).Lockstep R R R := by
  unfold Play.carryOutCall
  split
  · exact h.carryOutOwn d _ _
  · exact lockstep_value _

theorem dispatch (h : Privy R) (d : Nat) (params : Json) :
    (Play.dispatch d params).Lockstep R R R := by
  refine (lockstep_lift _).bind fun call => (h.carryOutCall d call).bind fun stop => ?_
  split
  · exact h.onFrame d _
  · exact lockstep_value ()

end Privy

end Play

end EventLayer
