/-
**Calls of this layer.**

Whatever the arguments of a call are, the call changes the party, the origins, the link and the behaviour
of routes only as its command is meant to.  In a game with sound data it comes to a result exactly if the
parts of its arguments that are read can be read: an infinity can not where a whole number is needed, nor
can digits that are no number.  Every other part that cannot be used is passed over, and what it would have
changed stays as it was.

Main definitions:

* `LayerCommand.IsReadable` — arguments that a command can read;
* `Session.Spared` — what a call leaves as it was.

Main results:

* `Session.Reachable.returns_dispatch` — **when a call comes to a result, and what it leaves**.
-/
import EventLayer.Proofs.Ending.Orderly
import EventLayer.Proofs.PluginCalls.Links
import EventLayer.Proofs.PluginCalls.Treasures

set_option autoImplicit false
set_option relaxedAutoImplicit false

namespace EventLayer

/-! ### What is read -/

namespace Play

/-- The number of the thing that the arguments of a call give. -/
def idOf (args : OrderedMap String Json) : Json := PluginCall.argD args ["id", "item_id"] (.str "")

/-- The location that the arguments of a call give for a new origin, or else the arguments themselves. -/
def placeOf (args : OrderedMap String Json) : Json :=
  (PluginCall.argD args ["location"] .null).orElse (.obj args.entries)

/-- The word that the arguments of a call give for a behaviour of routes. -/
def behaviorOf (args : OrderedMap String Json) : String :=
  Text.lowerAscii (Text.trim (PluginCall.argD args ["behavior", "move_route_behavior"] (.str "normal")).text)

end Play

namespace LayerCommand

open Play

/-- The amount that a command reads. -/
def amount (c : LayerCommand) (args : OrderedMap String Json) : Json :=
  amountOf args (.int (if c = .treasureGold then 0 else 1))

/-- The parts of the arguments that a command reads can be read. -/
def IsReadable (g : Game) (args : OrderedMap String Json) (c : LayerCommand) : Prop :=
  match c with
  | .treasure _ => ¬(idOf args).IsInfinite ∧ ¬(c.amount args).IsInfinite
  | .treasureGold => ¬(c.amount args).IsInfinite
  | .treasureByName => NamesNothing g args ∨ ¬(c.amount args).IsInfinite
  | .linkEvent => (queryOf args).IsReadable g
  | .setNewOrigin => ¬Location.Unreadable (placeOf args)
  | .triggerMarker | .unlinkEvent | .weight | .endWeights | .routeBehavior => True

end LayerCommand

namespace Session

/-- What a call for the list at a depth leaves as it was: in every case, and for want of parts of its
arguments that can be used. -/
structure Spared (d : Nat) (c : LayerCommand) (args : OrderedMap String Json) (s t : Session) : Prop where
  /-- Only a treasure changes what the party holds. -/
  party : c.givesTreasure = false → t.stores.party = s.stores.party
  noThing : ∀ kind, c = .treasure kind → (Play.idOf args).NoNumber → t.stores.party = s.stores.party
  noName : c = .treasureByName → Play.NamesNothing s.game args → t.stores.party = s.stores.party
  /-- An amount that is no number counts as zero. -/
  noAmount : (c.amount args).NoNumber → s.stores.party.SameWithin t.stores.party
  origins : (c = .setNewOrigin → (Location.read (Play.placeOf args)).result = .ok none) →
    t.stores.origins = s.stores.origins
  link : c ≠ .linkEvent → c ≠ .unlinkEvent → (∀ a, s.active = some a → d ≤ a) →
    (t.frame d).link = (s.frame d).link
  noEvent : c = .linkEvent → ¬s.Offers (Play.queryOf args) → (t.frame d).link = (s.frame d).link
  /-- What cannot be used of a query has no say. -/
  usable : c = .linkEvent → ∃ found u, Play.link d (Play.queryOf args).usable s = .ok found u ∧ t.Alike u
  behavior : (c = .routeBehavior → RouteBehavior.known? (Play.behaviorOf args) = none) →
    t.stores.behavior = s.stores.behavior

/-- A session with the same stores, in which no list is linked anew. -/
structure Kept (s t : Session) : Prop where
  stores : t.stores = s.stores
  link : ∀ d, (t.frame d).link = (s.frame d).link

variable {s t u : Session}

theorem Kept.refl (s : Session) : s.Kept s := ⟨rfl, fun _ => rfl⟩

theorem Kept.trans (h : s.Kept t) (h' : t.Kept u) : s.Kept u :=
  ⟨h'.stores.trans h.stores, fun d => (h'.link d).trans (h.link d)⟩

theorem Noted.kept (h : s.Noted t) : s.Kept t := by
  obtain ⟨notices, rfl⟩ := h
  exact ⟨rfl, fun _ => rfl⟩

theorem kept_updateFrame {F : Frame → Frame} (hF : ∀ f, (F f).link = f.link) (d : Nat) (s : Session) :
    s.Kept (s.updateFrame d F) := by
  refine ⟨rfl, fun e => ?_⟩
  rcases s.frame_updateFrame_cases d e F with hsame | hchanged
  · rw [hsame]
  · rw [hchanged, hF]

end Session

namespace Play

open Session

variable {g : Game} {s : Session}

/-! ### Random branches -/

theorem returns_drawBranch (set : BranchSet) :
    (drawBranch set).Returns s True fun _ t => s.Kept t := by
  rw [drawBranch_eq_modify]
  split
  · refine (returns_note _).then ?_
    intro _ t hnoted
    exact returns_of_ok rfl hnoted.kept
  · exact returns_of_ok rfl ⟨rfl, fun _ => rfl⟩

theorem returns_weigh (d : Nat) : (weigh d).Returns s True fun _ t => s.Kept t := by
  have hstray : ∀ n : Notice, (do note n; return none : Play (Option Nat)).Returns s True fun _ t =>
      s.Kept t := by
    intro n
    refine (returns_note n).then ?_
    intro _ t hnoted
    exact returns_of_ok rfl hnoted.kept
  refine returns_getBind ?_
  dsimp only
  split
  · exact hstray _
  · split
    · exact hstray _
    · split
      · exact returns_of_ok rfl (.refl s)
      · refine (returns_drawBranch _).then ?_
        intro chosen t hkept
        refine returns_of_ok rfl (hkept.trans (kept_updateFrame ?_ d t))
        exact fun _ => rfl

theorem returns_endWeights (d : Nat) : (endWeights d).Returns s True fun _ t => s.Kept t := by
  refine returns_getBind ?_
  dsimp only
  split
  · refine returns_of_ok rfl (kept_updateFrame ?_ d s)
    exact fun _ => rfl
  · exact (returns_note _).mono fun _ _ hnoted => hnoted.kept

/-! ### Origins -/

/-- The map that a list acts on has a number, if the map that it is linked to has one. -/
theorem exists_toInt_resolve {d : Nat} (h : ∃ n, (s.frame d).link.map.toInt = .ok n) :
    ∃ n, (s.resolve d).map.toInt = .ok n := by
  unfold Session.resolve Session.resolveFrame
  split
  · exact h
  · exact ⟨_, rfl⟩

theorem returns_setOrigin {d : Nat} (h : ∃ n, (s.frame d).link.map.toInt = .ok n) (spec : Location) :
    (setOrigin d spec).Returns s True fun _ t =>
      ∃ origins notices, t = { s with stores.origins := origins, notices } := by
  obtain ⟨n, hn⟩ := exists_toInt_resolve h
  refine returns_getBind ?_
  dsimp only
  split
  · exact (returns_note _).mono fun _ _ ⟨notices, ht⟩ => ⟨s.stores.origins, notices, ht⟩
  · refine returns_readingBind (spec.result_resolve _ _) ?_
    rintro _ ⟨notices, rfl⟩
    split
    · exact returns_exceptBind hn (returns_of_ok rfl ⟨_, notices, rfl⟩)
    · exact returns_of_ok rfl ⟨s.stores.origins, notices, rfl⟩

/-- The location that is given is read once, and a notice is left where it is none. -/
theorem result_originGiven (args : OrderedMap String Json) :
    (originGiven args).result = (Location.read (placeOf args)).result := by
  change (Location.read (placeOf args) >>= fun found => do
    if found.isNone then Reading.note .originUnusable
    return found : Reading (Option Location)).result = _
  cases hread : (Location.read (placeOf args)).result with
  | ok found =>
      rw [Reading.result_bind_ok hread]
      cases found <;> rfl
  | error e =>
      change (Reading.andThen _ _).result = _
      rw [Reading.andThen, hread]

/-- **A new origin is recorded as soon as its location can be read**, if it is one. -/
theorem returns_setNewOrigin {d : Nat} (h : ∃ n, (s.frame d).link.map.toInt = .ok n)
    (args : OrderedMap String Json) :
    (setNewOrigin d args).Returns s (¬Location.Unreadable (placeOf args)) fun _ t =>
      ∃ origins notices, t = { s with stores.origins := origins, notices } ∧
        ((Location.read (placeOf args)).result = .ok none → origins = s.stores.origins) := by
  have hiff : (∃ found, (originGiven args).result = .ok found) ↔ ¬Location.Unreadable (placeOf args) := by
    rw [result_originGiven]
    exact Location.exists_read_iff _
  refine ((returns_reading _).iff hiff).first ?_
  rintro found t ⟨hfound, notices, rfl⟩
  rw [result_originGiven] at hfound
  rw [hfound]
  cases found with
  | none => exact returns_of_ok rfl ⟨s.stores.origins, notices, rfl, fun _ => rfl⟩
  | some spec =>
      refine (returns_setOrigin (by exact h) spec).mono ?_
      rintro _ _ ⟨origins, notices', rfl⟩
      exact ⟨origins, notices', rfl, nofun⟩

/-! ### The behaviour of routes -/

theorem returns_setBehavior (args : OrderedMap String Json) :
    (setBehavior args).Returns s True fun _ t =>
      ∃ behavior notices, t = { s with stores.behavior := behavior, notices } ∧
        (RouteBehavior.known? (behaviorOf args) = none → behavior = s.stores.behavior) := by
  unfold setBehavior
  dsimp only
  split
  · next b hb => exact returns_of_ok rfl ⟨b, s.notices, rfl, fun hnone => nomatch hb.symm.trans hnone⟩
  · refine (returns_note _).mono ?_
    rintro _ _ ⟨notices, rfl⟩
    exact ⟨s.stores.behavior, notices, rfl, fun _ => rfl⟩

end Play

/-! ### What is left -/

namespace Session

variable {s t : Session} {d : Nat} {c : LayerCommand} {args : OrderedMap String Json}

/-- A command that gives no treasure. -/
theorem Spared.of_party_eq (hparty : t.stores.party = s.stores.party)
    (horigins : (c = .setNewOrigin → (Location.read (Play.placeOf args)).result = .ok none) →
      t.stores.origins = s.stores.origins)
    (hbehavior : (c = .routeBehavior → RouteBehavior.known? (Play.behaviorOf args) = none) →
      t.stores.behavior = s.stores.behavior)
    (hlink : c ≠ .linkEvent → c ≠ .unlinkEvent → (t.frame d).link = (s.frame d).link)
    (hevent : c = .linkEvent → ¬s.Offers (Play.queryOf args) → (t.frame d).link = (s.frame d).link)
    (husable : c = .linkEvent →
      ∃ found u, Play.link d (Play.queryOf args).usable s = .ok found u ∧ t.Alike u) :
    s.Spared d c args t where
  party := fun _ => hparty
  noThing := fun _ _ _ => hparty
  noName := fun _ _ => hparty
  noAmount := fun _ => hparty ▸ .refl _
  origins := horigins
  link := fun hne hne' _ => hlink hne hne'
  noEvent := hevent
  usable := husable
  behavior := hbehavior

/-- A command that links nothing may leave everything as it was. -/
theorem Kept.spared (h : s.Kept t) (hc : c ≠ .linkEvent) : s.Spared d c args t := by
  refine .of_party_eq (by rw [h.stores]) (fun _ => by rw [h.stores]) (fun _ => by rw [h.stores])
    (fun _ _ => h.link d) ?_ ?_
  · exact fun hlink => absurd hlink hc
  · exact fun hlink => absurd hlink hc

/-- What a call leaves is left as well where the list jumps afterwards. -/
theorem Spared.jump (h : s.Spared d c args t) (hc : c ≠ .linkEvent) {u : Session} (hu : t.Kept u) :
    s.Spared d c args u where
  party := fun hgives => by rw [hu.stores]; exact h.party hgives
  noThing := fun kind hkind hid => by rw [hu.stores]; exact h.noThing kind hkind hid
  noName := fun hname hnothing => by rw [hu.stores]; exact h.noName hname hnothing
  noAmount := fun hamount => by rw [hu.stores]; exact h.noAmount hamount
  origins := fun horigin => by rw [hu.stores]; exact h.origins horigin
  link := fun hlink hunlink hactive => (hu.link d).trans (h.link hlink hunlink hactive)
  noEvent := fun hlink => absurd hlink hc
  usable := fun hlink => absurd hlink hc
  behavior := fun hbehavior => by rw [hu.stores]; exact h.behavior hbehavior

/-- A treasure leaves everything but the party as it was. -/
theorem Awarded.spared {party : Party} (h : s.Awarded party t) (hc : c.givesTreasure = true)
    (hthing : ∀ kind, c = .treasure kind → (Play.idOf args).NoNumber → party = s.stores.party)
    (hname : c = .treasureByName → Play.NamesNothing s.game args → party = s.stores.party)
    (hamount : (c.amount args).NoNumber → s.stores.party.SameWithin party) : s.Spared d c args t := by
  obtain ⟨⟨scratch, interpreter, notices, ht⟩, hlink⟩ := h
  have hparty : t.stores.party = party := by rw [ht]
  have horigins : t.stores.origins = s.stores.origins := by rw [ht]
  have hbehavior : t.stores.behavior = s.stores.behavior := by rw [ht]
  have hother : c ≠ .linkEvent := by
    rintro rfl
    cases hc
  refine ⟨?_, ?_, ?_, ?_, fun _ => horigins, fun _ _ => hlink d, ?_, ?_, fun _ => hbehavior⟩
  · intro hnone
    rw [hc] at hnone
    cases hnone
  · exact fun kind hkind hid => hparty.trans (hthing kind hkind hid)
  · exact fun hkind hnothing => hparty.trans (hname hkind hnothing)
  · exact fun hnumber => hparty ▸ hamount hnumber
  · exact fun hlink => absurd hlink hother
  · exact fun hlink => absurd hlink hother

end Session

namespace Play

open Session

variable {g : Game} {s : Session}

/-! ### Every command -/

/-- A command that ends with its only step jumps nowhere. -/
theorem Returns.ending {α : Type} {act : Play α} {C : Prop} {P : Session → Prop}
    (h : act.Returns s C fun _ t => P t) :
    (do let _ ← act; return none : Play (Option Nat)).Returns s C fun stop t => stop = none ∧ P t :=
  h.first fun _ _ ht => returns_of_ok rfl ⟨rfl, ht⟩

theorem spared_treasure (hs : Reachable g s) (hg : g.Sound) {d : Nat} {kind : ItemKind}
    {args : OrderedMap String Json} {n m : Int} {party : Party} {t : Session}
    (hn : (readAmount (idOf args)).result = .ok n)
    (hm : (readAmount (amountOf args (.int 1))).result = .ok m)
    (hgives : s.Gives kind n m party) (h : s.Awarded party t) : s.Spared d (.treasure kind) args t := by
  refine h.spared rfl ?_ nofun ?_
  · intro _ _ hid
    cases (readAmount_of_noNumber hid).symm.trans hn
    exact hgives.of_zero_id (hs.isTidy.1 ▸ hg)
  · intro hamount
    cases (readAmount_of_noNumber hamount).symm.trans hm
    exact hgives.of_zero_amount hs.isHeld hs.isTidy.2.1.distinct.items

theorem spared_treasureGold (hs : Reachable g s) {d : Nat} {args : OrderedMap String Json} {m : Int}
    {party : Party} {t : Session} (hm : (readAmount (amountOf args (.int 0))).result = .ok m)
    (hgives : s.GivesGold m party) (h : s.Awarded party t) : s.Spared d .treasureGold args t := by
  refine h.spared rfl nofun nofun fun hamount => ?_
  cases (readAmount_of_noNumber hamount).symm.trans hm
  exact hgives.of_zero hs.isHeld

theorem spared_treasureByName (hs : Reachable g s) {d : Nat} {args : OrderedMap String Json} {t : Session}
    (hnone : NamesNothing g args → s.Noted t)
    (hsome : ¬NamesNothing g args → ∃ kind n m party,
      (readAmount (amountOf args (.int 1))).result = .ok m ∧ s.Gives kind n m party ∧ s.Awarded party t) :
    s.Spared d .treasureByName args t := by
  by_cases hname : NamesNothing g args
  · exact (hnone hname).kept.spared nofun
  · obtain ⟨kind, n, m, party, hm, hgives, hawarded⟩ := hsome hname
    refine hawarded.spared rfl nofun (fun _ hnothing => ?_) fun hamount => ?_
    · rw [hs.isTidy.1] at hnothing
      exact absurd hnothing hname
    · cases (readAmount_of_noNumber hamount).symm.trans hm
      exact hgives.of_zero_amount hs.isHeld hs.isTidy.2.1.distinct.items

theorem spared_unlink (d : Nat) (args : OrderedMap String Json) (s : Session) :
    s.Spared d .unlinkEvent args (s.updateFrame d fun f => { f with link := {} }) := by
  refine .of_party_eq rfl (fun _ => rfl) (fun _ => rfl) ?_ nofun nofun
  intro _ hother
  exact absurd rfl hother

theorem spared_setNewOrigin {d : Nat} {args : OrderedMap String Json} {origins : Origins}
    {notices : List Notice}
    (h : (Location.read (placeOf args)).result = .ok none → origins = s.stores.origins) :
    s.Spared d .setNewOrigin args { s with stores.origins := origins, notices } :=
  .of_party_eq rfl (fun hnone => h (hnone rfl)) (fun _ => rfl) (fun _ _ => rfl) nofun nofun

theorem spared_routeBehavior {d : Nat} {args : OrderedMap String Json} {behavior : RouteBehavior}
    {notices : List Notice}
    (h : RouteBehavior.known? (behaviorOf args) = none → behavior = s.stores.behavior) :
    s.Spared d .routeBehavior args { s with stores.behavior := behavior, notices } :=
  .of_party_eq rfl (fun _ => rfl) (fun hnone => h (hnone rfl)) (fun _ _ => rfl) nofun nofun

theorem spared_linkEvent {d : Nat} {args : OrderedMap String Json} {found : Bool} {t : Session}
    (hrun : link d (queryOf args) s = .ok found t) (hlinked : Linked d found s t)
    (hoffers : found = true → s.Offers (queryOf args)) : s.Spared d .linkEvent args t := by
  have hstores : t.stores = s.stores := by
    cases found with
    | false => exact hlinked.kept.stores
    | true =>
        obtain ⟨link, notices, rfl⟩ := hlinked
        rfl
  refine .of_party_eq (by rw [hstores]) (fun _ => by rw [hstores]) (fun _ => by rw [hstores]) ?_ ?_ ?_
  · exact fun hother => absurd rfl hother
  · intro _ hnone
    cases found with
    | false => exact hlinked.kept.link d
    | true => exact absurd (hoffers rfl) hnone
  · intro _
    have hagree := agree_link_usable d (queryOf args) s
    rw [hrun] at hagree
    generalize hother : link d (queryOf args).usable s = other at hagree
    cases hagree with
    | ok halike => exact ⟨found, _, rfl, halike⟩

/-- **A command of this layer comes to a result exactly if it can read its arguments**, and passes over
what it cannot use of them.  Only a weight jumps. -/
theorem returns_carryOutOwn (hs : Reachable g s) (hg : g.Sound) (d : Nat) (c : LayerCommand)
    (args : OrderedMap String Json) :
    (carryOutOwn d c args).Returns s (c.IsReadable g args) fun stop t =>
      (c ≠ .weight → stop = none) ∧ s.Spared d c args t := by
  have hgame : s.game = g := hs.isTidy.1
  have hmap : ∃ n, (s.frame d).link.map.toInt = .ok n := (hs.orderly.frame d).link
  have hend {act : Play (Option Nat)} {C : Prop}
      (h : act.Returns s C fun stop t => stop = none ∧ s.Spared d c args t) :
      act.Returns s C fun stop t => (c ≠ .weight → stop = none) ∧ s.Spared d c args t :=
    h.mono fun _ _ ht => ⟨fun _ => ht.1, ht.2⟩
  cases c with
  | triggerMarker =>
      refine hend ((returns_pure none).mono ?_)
      rintro _ _ ⟨hstop, rfl⟩
      exact ⟨hstop, (Kept.refl _).spared nofun⟩
  | treasure kind =>
      refine hend (Returns.ending ((returns_giveItem hg hgame kind _ _).mono ?_).discard)
      rintro _ t ⟨n, m, party, hn, hm, hgives, hawarded⟩
      exact spared_treasure hs hg hn hm hgives hawarded
  | treasureGold =>
      refine hend (Returns.ending ((returns_giveGold hg hgame _).mono ?_).discard)
      rintro _ t ⟨m, party, hm, hgives, hawarded⟩
      exact spared_treasureGold hs hm hgives hawarded
  | treasureByName =>
      refine hend (Returns.ending ((returns_giveNamedOrNote hg hgame args).mono ?_))
      rintro _ t ⟨hnone, hsome⟩
      exact spared_treasureByName hs hnone hsome
  | linkEvent =>
      refine hend (Returns.ending ((returns_link hg hgame d _).with_run.mono ?_).discard)
      rintro found t ⟨hrun, hlinked, hoffers⟩
      exact spared_linkEvent hrun hlinked hoffers
  | unlinkEvent =>
      have hunlink : (unlink d).Returns s True fun _ t => s.Spared d .unlinkEvent args t :=
        returns_of_ok rfl (spared_unlink d args s)
      exact hend (Returns.ending hunlink)
  | weight =>
      refine (returns_weigh d).mono fun _ t ht => ⟨?_, ht.spared nofun⟩
      exact fun hother => absurd rfl hother
  | endWeights => exact hend (Returns.ending ((returns_endWeights d).mono fun _ t ht => ht.spared nofun))
  | setNewOrigin =>
      refine hend (Returns.ending ((returns_setNewOrigin hmap args).mono ?_))
      rintro _ _ ⟨origins, notices, rfl, hnone⟩
      exact spared_setNewOrigin hnone
  | routeBehavior =>
      refine hend (Returns.ending ((returns_setBehavior args).mono ?_))
      rintro _ _ ⟨behavior, notices, rfl, hnone⟩
      exact spared_routeBehavior hnone

end Play

/-! ### Calls -/

namespace Session

open Play

variable {g : Game} {s : Session}

/-- **A call comes to a result exactly if its command can read its arguments, and nothing is changed by
what it cannot use of them.**  In a game with sound data, take any session that the game comes to, and any
call of a registered command, whatever its arguments are.  It fails if an amount or a number of a treasure,
a distance, or the first unusable number of a location is infinite, if a selector consists of digits that
are no number, or if a number in the text of a location has too many digits; it comes to a result in all
other cases.  Then what is no number, no event, no location and no behaviour has changed neither the party,
nor the origins, nor the link, nor the behaviour of routes. -/
theorem Reachable.returns_dispatch (hs : Reachable g s) (hg : g.Sound) (d : Nat) {params : Json}
    {call : PluginCall} {c : LayerCommand} (hcall : PluginCall.ofParams params = .ok call)
    (hc : LayerCommand.registry.lookup? call = some c) :
    (dispatch d params).Returns s (c.IsReadable g call.args) fun _ t => s.Spared d c call.args t := by
  have hcarry : carryOutCall d call = carryOutOwn d c call.args := by rw [carryOutCall, hc]
  refine returns_exceptBind hcall ?_
  rw [hcarry]
  refine (returns_carryOutOwn hs hg d c call.args).first ?_
  rintro stop t ⟨hstop, ht⟩
  cases stop with
  | none => exact returns_of_ok rfl ht
  | some stop =>
      have hlink : c ≠ .linkEvent := by
        rintro rfl
        cases hstop (by decide)
      refine returns_of_ok rfl (ht.jump hlink (kept_updateFrame ?_ d t))
      exact fun _ => rfl

/-! ### A stall -/

/-- A game in which there is one thing to be had, and a map on which there is one event. -/
def stallGame : Game where
  database := { items := .arr [.null, .obj [("id", 1), ("name", .str "Potion"), ("iconIndex", 5)]] }
  mapFile := fun _ => .ok (some (.obj [("events", .arr [.null, .obj [("id", 1), ("x", 2), ("y", 1)]])]))

theorem sound_stallGame : stallGame.Sound where
  things := by
    intro kind
    cases kind with
    | item =>
        refine ⟨⟨_, rfl⟩, ?_⟩
        rintro _ ⟨⟩ e he htruthy -
        rcases List.mem_cons.mp he with rfl | he
        · cases htruthy
        · rcases List.mem_singleton.mp he
          exact ⟨⟨1, rfl, by decide⟩, by decide +kernel, ⟨5, rfl⟩⟩
    | weapon | armor =>
        refine ⟨⟨_, rfl⟩, ?_⟩
        rintro _ ⟨⟩ e he
        cases he
  maps := by
    intro name id hid
    unfold Database.mapNamed? at hid
    dsimp only at hid
    split at hid <;> cases hid
  display := by
    intro entry hentry
    cases hentry
  lookups := fun _ _ => ⟨_, rfl⟩
  files := by
    rintro map _ ⟨⟩
    refine ⟨_, _, rfl, rfl, ?_⟩
    intro fields hfields
    rcases List.mem_cons.mp hfields with hnull | hfields
    · cases hnull
    · cases List.mem_singleton.mp hfields
      exact ⟨⟨1, rfl⟩, ⟨2, rfl⟩, ⟨1, rfl⟩⟩

/-- The game on its map, where a command list is being run. -/
def atStall : Session :=
  (Play.setupInterpreter (.arr [.obj [("code", 230), ("parameters", .arr [10])]]) 1).after
    ((Play.newGame 1 ⟨0, 0⟩ []).after (Session.begin stallGame {}))

theorem reachable_atStall : Reachable stallGame atStall :=
  .after (.after (.begin {}) (.newGame 1 ⟨0, 0⟩ [])) (.setupInterpreter _ 1)

/-- The parameters of a call of this layer. -/
def callOf (command : String) (args : List (String × Json)) : Json :=
  .arr [.str layerName, .str command, .str "", .obj args]

theorem ofParams_callOf (command : String) (args : List (String × Json)) :
    PluginCall.ofParams (callOf command args) = .ok ⟨layerName, command, ⟨args⟩⟩ := by
  have hplugin : PluginCall.pluginOf (callOf command args) = .ok layerName := by
    change Except.ok (dropScriptEnding (lastPart (layerName.map fun c => if c = '\\' then '/' else c))) = _
    exact congrArg Except.ok (by decide +kernel)
  rw [PluginCall.ofParams, hplugin]
  rfl

/-- At the stall nothing is given where the amount is no number, and a call with an infinite one fails. -/
theorem returns_dispatch_atStall :
    (∃ t, dispatch 0 (callOf "treasure_item" [("id", .str "1"), ("amount", .str "many")]) atStall =
      .ok () t ∧ atStall.stores.party.SameWithin t.stores.party) ∧
    ∃ e t, dispatch 0 (callOf "treasure_item" [("id", .str "1"), ("amount", .str "inf")]) atStall =
      .error e t := by
  have hmany := reachable_atStall.returns_dispatch sound_stallGame 0
    (ofParams_callOf "treasure_item" [("id", .str "1"), ("amount", .str "many")])
    (show LayerCommand.registry.lookup? _ = some (.treasure .item) by decide +kernel)
  have hinfinite := reachable_atStall.returns_dispatch sound_stallGame 0
    (ofParams_callOf "treasure_item" [("id", .str "1"), ("amount", .str "inf")])
    (show LayerCommand.registry.lookup? _ = some (.treasure .item) by decide +kernel)
  obtain ⟨_, t, hrun, hspared⟩ := hmany.ok ⟨by decide +kernel, by decide +kernel⟩
  refine ⟨⟨t, hrun, hspared.noAmount (by decide +kernel)⟩, hinfinite.error ?_⟩
  intro hreadable
  exact hreadable.2 (by decide +kernel)

/-- A call of a registered command aborts the list that is being run, although its arguments are texts: the
amount is infinite. -/
theorem aborted_atStall : stallGame.Sound ∧ Reachable stallGame atStall ∧
    atStall.interpreter.isRunning = true ∧
    (LayerCommand.registry.lookup? ⟨layerName, "treasure_gold", ⟨[("amount", .str "inf")]⟩⟩).isSome = true ∧
    (dispatch 0 (callOf "treasure_gold" [("amount", .str "inf")])).succeeds atStall = false :=
  ⟨sound_stallGame, reachable_atStall, by decide +kernel, by decide +kernel, by decide +kernel⟩

end Session

end EventLayer
