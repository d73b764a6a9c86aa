/-
**Treasures that a call gives.**

In a game with sound data a treasure is given as soon as its number and its amount can be read, and these
can be read unless they denote an infinity.  A treasure without a number, or one that nothing bears, leaves
the party as it was; an amount that is no number is taken for zero, and leaves the party what it holds.
Whatever is given, only the party and the common event that shows the treasure are concerned.

Main definitions:

* `Session.Awarded` — a session in which a treasure has been given and shown;
* `Session.Gives`, `Session.GivesGold` — what the party holds afterwards.

Main results:

* `Play.returns_giveItem`, `Play.returns_giveGold`, `Play.returns_giveNamedOrNote` — **when a treasure is
  given**;
* `Session.Gives.of_zero_id`, `Session.Gives.of_zero_amount` — what cannot be read changes nothing.
-/
import EventLayer.Proofs.PluginCalls.Holdings
import EventLayer.Proofs.PluginCalls.SoundGame
import EventLayer.Proofs.Returns
import EventLayer.Proofs.Stack
import EventLayer.Session.Commands

set_option autoImplicit false
set_option relaxedAutoImplicit false

namespace EventLayer

open Json (Number)

/-! ### Lists that are called -/

/-- A list that is called leaves the links of the lists below it. -/
theorem Interpreter.link_push {d e : Nat} (h : e ≤ d) (i : Interpreter) {f : Frame} (hf : f.link = {}) :
    ((i.push d f).frame e).link = (i.frame e).link := by
  by_cases hd : d ≤ i.nested.length
  · rw [Interpreter.frame_push h hd]
  · cases e with
    | zero => rfl
    | succ e =>
        -- nothing stands so deep yet, and neither does the new list unless it is the next one
        have htake : i.nested.take d = i.nested := List.take_of_length_le (by omega)
        simp only [Interpreter.push, Interpreter.frame, htake, List.getD_eq_getElem?_getD]
        rcases Nat.lt_trichotomy e i.nested.length with hlt | heq | hgt
        · rw [List.getElem?_append_left hlt]
        · rw [heq, List.getElem?_append_right (Nat.le_refl _), Nat.sub_self,
            List.getElem?_eq_none (Nat.le_refl _)]
          exact hf
        · rw [List.getElem?_eq_none (by simp; omega), List.getElem?_eq_none hgt.le]

namespace Session

/-! ### What is left -/

/-- A session in which a treasure has been given and shown: the party is the given one, and the links of
the lists up to the active one are the same. -/
structure Awarded (party : Party) (s t : Session) : Prop where
  rest : ∃ scratch interpreter notices,
    t = { s with stores.party := party, scratch, interpreter, notices }
  link : ∀ d, (∀ a, s.active = some a → d ≤ a) → (t.frame d).link = (s.frame d).link

variable {s t u : Session} {party : Party}

theorem Awarded.noted (h : s.Noted t) (h' : t.Awarded party u) : s.Awarded party u := by
  obtain ⟨notices, rfl⟩ := h
  exact ⟨h'.rest, h'.link⟩

theorem Noted.awarded (h : s.Noted t) : s.Awarded s.stores.party t := by
  obtain ⟨notices, rfl⟩ := h
  exact ⟨⟨_, _, _, rfl⟩, fun _ _ => rfl⟩

/-- What the party holds after a number of the thing with a number was to be given. -/
def Gives (s : Session) (kind : ItemKind) (id amount : Int) (party : Party) : Prop :=
  party = s.stores.party ∨ ∃ entry, s.game.database.item? kind (.int id) = some entry ∧
    s.stores.party.gainOf entry (.int amount) = .ok party

/-- What the party holds after gold was to be given. -/
def GivesGold (s : Session) (amount : Int) (party : Party) : Prop :=
  party = s.stores.party ∨ s.stores.party.gainGold (.int amount) = .ok party

theorem Gives.of_zero_id (hg : s.game.Sound) {kind : ItemKind} {amount : Int}
    (h : s.Gives kind 0 amount party) : party = s.stores.party := by
  rcases h with hsame | ⟨entry, hentry, -⟩
  · exact hsame
  · rw [hg.item?_zero kind] at hentry
    cases hentry

theorem Gives.of_zero_amount (hheld : s.stores.party.IsHeld) (hdistinct : s.stores.party.items.Distinct)
    {kind : ItemKind} {id : Int} (h : s.Gives kind id 0 party) : s.stores.party.SameWithin party := by
  rcases h with rfl | ⟨entry, -, hgain⟩
  · exact .refl _
  · exact Party.sameWithin_gainOf_zero hheld hdistinct hgain

theorem GivesGold.of_zero (hheld : s.stores.party.IsHeld) (h : s.GivesGold 0 party) :
    s.stores.party.SameWithin party := by
  rcases h with rfl | hgain
  · exact .refl _
  · exact Party.sameWithin_gainGold_zero hheld hgain

end Session

namespace Play

open Session

variable {g : Game} {s : Session}

/-! ### Showing a treasure -/

theorem returns_openFrame {list : Json} (h : ∃ l, (EventCommand.readList list).result = .ok l)
    (event : Int) : (openFrame list event).Returns s True fun f t => f.link = {} ∧ s.Noted t := by
  obtain ⟨l, hl⟩ := h
  refine returns_getBind (returns_readingBind hl ?_)
  intro t hnoted
  exact returns_of_ok rfl ⟨rfl, hnoted⟩

/-- A common event that can be begun is run above the list that calls it. -/
theorem returns_callCommon (d : Nat) {id : Json} (h : ∀ entry, s.game.database.commonEvent? id = some entry →
    ∃ l, (EventCommand.readList (CommonEvent.listOf entry)).result = .ok l) :
    (callCommon d id).Returns s True fun _ t => ∃ interpreter notices,
      t = { s with interpreter, notices } ∧ ∀ e ≤ d, (t.frame e).link = (s.frame e).link := by
  refine returns_getBind ?_
  split
  · refine (returns_note _).mono ?_
    rintro _ _ ⟨notices, rfl⟩
    exact ⟨s.interpreter, notices, rfl, fun _ _ => rfl⟩
  · next entry hentry =>
      refine (returns_openFrame (h entry hentry) _).then ?_
      rintro f t ⟨hf, notices, rfl⟩
      refine returns_of_ok rfl ⟨s.interpreter.push d f, notices, rfl, ?_⟩
      intro e he
      exact Interpreter.link_push he s.interpreter hf

theorem returns_displayTreasure (hshow : s.game.ShowsTreasures) :
    displayTreasure.Returns s True fun _ t => s.Awarded s.stores.party t := by
  have hreserve : (modify (reserve s.game.config.treasureDisplay) : Play PUnit).Returns s True fun _ t =>
      s.Awarded s.stores.party t :=
    returns_of_ok rfl ⟨⟨_, _, _, rfl⟩, fun _ _ => rfl⟩
  refine returns_getBind ?_
  dsimp only
  split
  · exact (returns_pure _).mono fun _ t ⟨_, ht⟩ => ht ▸ (Noted.refl s).awarded
  · split
    · next d hactive =>
        split
        · refine (returns_callCommon d hshow).mono ?_
          rintro _ t ⟨interpreter, notices, rfl, hlink⟩
          exact ⟨⟨_, _, _, rfl⟩, fun e he => hlink e (he d hactive)⟩
        · exact hreserve
    · exact hreserve

theorem returns_announce (hshow : s.game.ShowsTreasures) (t : Treasure) :
    (announce t).Returns s True fun _ u => s.Awarded s.stores.party u := by
  have hshown : displayTreasure.Returns { s with scratch.treasure := some t } True fun _ u =>
      s.Awarded s.stores.party u :=
    (returns_displayTreasure (by exact hshow)).mono fun _ _ hu => ⟨hu.rest, hu.link⟩
  have hdone : (displayTreasure >>= fun _ => pure t).Returns { s with scratch.treasure := some t } True
      fun _ u => s.Awarded s.stores.party u := by
    refine hshown.then ?_
    intro _ u hu
    exact returns_of_ok rfl hu
  exact ⟨hdone.ok, hdone.error⟩

/-! ### Things -/

theorem returns_readAmount (v : Json) : (liftM (readAmount v) : Play Int).Returns s (¬v.IsInfinite)
    fun n t => (readAmount v).result = .ok n ∧ s.Noted t :=
  (returns_reading _).iff (exists_readAmount_iff v)

/-- What is in range can be given. -/
theorem returns_giveEntry {entry : Json} (hentry : entry.IsThing) {m : Int}
    (hm : ∃ x, Double.ofIntChecked m = .ok x) :
    (giveEntry entry m).Returns s True fun _ t => ∃ party, t = { s with stores.party := party } ∧
      (party = s.stores.party ∨ s.stores.party.gainOf entry (.int m) = .ok party) := by
  obtain ⟨key?, hkey⟩ := hentry.exists_key
  obtain ⟨n, hn⟩ : ∃ n, s.stores.party.countOf entry = .ok n := by
    unfold Party.countOf
    rw [hkey, Except.ok_bind]
    cases key? with
    | none => exact ⟨_, rfl⟩
    | some key => exact ⟨_, rfl⟩
  obtain ⟨party, hparty⟩ := s.stores.party.exists_gainOf ⟨key?, hkey⟩ hm
  refine returns_getBind (returns_exceptBind hn ?_)
  split
  · exact returns_of_ok rfl ⟨_, rfl, Or.inl rfl⟩
  · exact returns_exceptBind hparty (returns_of_ok rfl ⟨_, rfl, Or.inr hparty⟩)

/-- **A thing is given as soon as its number and its amount can be read.** -/
theorem returns_giveItem (hg : g.Sound) (hgame : s.game = g) (kind : ItemKind) (id amount : Json) :
    (giveItem kind id amount).Returns s (¬id.IsInfinite ∧ ¬amount.IsInfinite) fun _ t =>
      ∃ n m party, (readAmount id).result = .ok n ∧ (readAmount amount).result = .ok m ∧
        s.Gives kind n m party ∧ s.Awarded party t := by
  have hshow : s.game.ShowsTreasures := hgame ▸ hg.display
  refine (returns_readAmount id).bind ?_
  rintro n t ⟨hn, notices, rfl⟩
  refine (returns_readAmount amount).first ?_
  rintro m t ⟨hm, notices', rfl⟩
  refine returns_getBind ?_
  dsimp only
  split
  · refine (returns_note _).then ?_
    rintro _ _ ⟨_, rfl⟩
    refine (returns_announce (by exact hshow) _).mono ?_
    intro _ v hv
    exact ⟨n, m, s.stores.party, hn, hm, Or.inl rfl, hv.rest, hv.link⟩
  · next entry hentry =>
      have hthing := hg.isThing_of_item? (hgame ▸ hentry)
      obtain ⟨icon, hicon⟩ := hthing.icon
      refine (returns_giveEntry hthing (ofIntChecked_of_readAmount hm)).then ?_
      rintro success u ⟨party, rfl, hparty⟩
      refine returns_exceptBind hicon ?_
      refine (returns_announce (by exact hshow) _).mono ?_
      intro _ v hv
      exact ⟨n, m, party, hn, hm, hparty.imp_right fun hgain => ⟨entry, hentry, hgain⟩, hv.rest, hv.link⟩

/-- **Gold is given as soon as its amount can be read.** -/
theorem returns_giveGold (hg : g.Sound) (hgame : s.game = g) (amount : Json) :
    (giveGold amount).Returns s (¬amount.IsInfinite) fun _ t =>
      ∃ m party, (readAmount amount).result = .ok m ∧ s.GivesGold m party ∧ s.Awarded party t := by
  have hshow : s.game.ShowsTreasures := hgame ▸ hg.display
  refine (returns_readAmount amount).first ?_
  rintro m t ⟨hm, notices, rfl⟩
  refine returns_getBind ?_
  dsimp only
  split
  · obtain ⟨party, hparty⟩ := s.stores.party.exists_gainGold (ofIntChecked_of_readAmount hm)
    have hgain : (gainGold (.int m)).Returns { s with notices } True fun _ u =>
        u = { s with stores.party := party, notices } := by
      refine returns_getBind ?_
      dsimp only
      rw [hparty]
      exact returns_of_ok rfl rfl
    refine hgain.then ?_
    rintro _ _ rfl
    refine (returns_announce (by exact hshow) _).mono ?_
    intro _ v hv
    exact ⟨m, party, hm, Or.inr hparty, hv.rest, hv.link⟩
  · refine (returns_announce (by exact hshow) _).mono ?_
    intro _ v hv
    exact ⟨m, s.stores.party, hm, Or.inl rfl, hv.rest, hv.link⟩

/-- What cannot be read is too large. -/
theorem giveItem_of_isInfinite {kind : ItemKind} {id amount : Json}
    (h : id.IsInfinite ∨ amount.IsInfinite) (s : Session) :
    ∃ t, giveItem kind id amount s = .error .tooLarge t := by
  by_cases hid : id.IsInfinite
  · exact ⟨_, bind_of_error (lift_reading_of_error (readAmount_of_isInfinite hid) s)⟩
  · obtain ⟨n, hn⟩ := (exists_readAmount_iff id).mpr hid
    have hamount := readAmount_of_isInfinite (h.resolve_left hid)
    exact ⟨_, (bind_of_ok (lift_reading_of_ok hn s)).trans (bind_of_error (lift_reading_of_error hamount _))⟩

/-- The name that the arguments of a call give to a treasure. -/
def nameOf (args : OrderedMap String Json) : String :=
  Text.trim (PluginCall.argD args ["name"] (.str "")).text

theorem giveNamedOrNote_apply (args : OrderedMap String Json) (s : Session) :
    giveNamedOrNote args s = match giveNamed (some (nameOf args)) (amountOf args (.int 1)) s with
      | .ok _ t => .ok () t
      | .error (.noSuchItem _) t => note (.treasureNameUnknown (nameOf args)) t
      | .error e t => .error e t := by
  refine (tryCatch_apply _ _ s).trans ?_
  rw [discard_apply]
  unfold nameOf
  cases giveNamed (some (Text.trim (PluginCall.argD args ["name"] (.str "")).text)) (amountOf args (.int 1)) s with
  | ok a t => rfl
  | error e t => cases e <;> rfl

/-- No thing has the name that the arguments of a call give. -/
def NamesNothing (g : Game) (args : OrderedMap String Json) : Prop :=
  g.database.itemNamed? (nameOf args) = .ok none

/-- **A thing with a name is given as soon as its amount can be read, and a name that nothing has gives
nothing.** -/
theorem returns_giveNamedOrNote (hg : g.Sound) (hgame : s.game = g) (args : OrderedMap String Json) :
    (giveNamedOrNote args).Returns s (NamesNothing g args ∨ ¬(amountOf args (.int 1)).IsInfinite)
      fun _ t => (NamesNothing g args → s.Noted t) ∧ (¬NamesNothing g args → ∃ kind n m party,
        (readAmount (amountOf args (.int 1))).result = .ok m ∧ s.Gives kind n m party ∧
          s.Awarded party t) := by
  have happly := giveNamedOrNote_apply args s
  rcases hg.itemNamed?_cases (nameOf args) with hnone | ⟨kind, entry, hfound, hthing⟩
  · have hnamed : giveNamed (some (nameOf args)) (amountOf args (.int 1)) s =
        .error (.noSuchItem (some (nameOf args))) s := by
      rw [giveNamed, get_bind_apply, hgame, Option.getD_some, hnone]
      rfl
    rw [hnamed] at happly
    refine Returns.iff ?_ (iff_of_true trivial (Or.inl hnone))
    refine ((returns_note _).mono ?_).congr happly
    intro _ t ht
    exact ⟨fun _ => ht, fun hnot => absurd hnone hnot⟩
  · have hnot : ¬NamesNothing g args := by
      intro hnone
      rw [NamesNothing, hfound] at hnone
      cases hnone
    have hnamed : giveNamed (some (nameOf args)) (amountOf args (.int 1)) s =
        giveItem kind ((entry.field? "id").getD (.int 0)) (amountOf args (.int 1)) s := by
      rw [giveNamed, get_bind_apply, hgame, Option.getD_some, hfound, bind_of_ok (lift_ok_apply _ s)]
    rw [hnamed] at happly
    have hgive := returns_giveItem hg hgame kind ((entry.field? "id").getD (.int 0)) (amountOf args (.int 1))
    constructor
    · intro hread
      obtain ⟨treasure, t, hact, n, m, party, -, hm, hparty, hawarded⟩ :=
        hgive.ok ⟨hthing.idInRange, hread.resolve_left hnot⟩
      rw [hact] at happly
      exact ⟨(), t, happly, fun hnone => absurd hnone hnot, fun _ => ⟨kind, n, m, party, hm, hparty, hawarded⟩⟩
    · intro hread
      have hinfinite : (amountOf args (.int 1)).IsInfinite := by
        by_contra hfinite
        exact hread (Or.inr hfinite)
      obtain ⟨t, hact⟩ := giveItem_of_isInfinite (Or.inr hinfinite) s
      rw [hact] at happly
      exact ⟨.tooLarge, t, happly⟩

end Play

end EventLayer
