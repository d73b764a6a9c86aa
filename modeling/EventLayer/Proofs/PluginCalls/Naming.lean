/-
**Treasures by name.**

A thing is looked for by its name in three tables, is then looked up a second time by its number, and is
counted under a kind that is told from its fields.  If the numbers of a table do not repeat, and if the
things of each table carry the field that tells their kind, all three ways lead to the same entry: the
first one that has the name, or else the first that has it up to letter case.  A name that no thing has is
the only reason for which a treasure is refused, and nothing is done then.

Main definitions:

* `Json.IsNumbered`, `Database.IsNumbered` — entries and tables as the editor numbers them;
* `Database.allThings`, `Database.meant?` — the things of all tables, and the one that a name means;
* `Database.Lacks` — a name that no thing has;
* `Session.Received` — a session in which the party was given a thing.

Main results:

* `Database.itemNamed?_eq`, `Database.item?_eq` — the look-ups by name and by number;
* `Play.failsOnData_displayTreasure` — what shows a treasure fails for broken data only;
* `Play.giveNamed_of_meant` — what is given under a name, **step by step**;
* `Play.giveNamed_gives_meant` — **a treasure by name is the one that is meant, or nothing is done**.
-/
import EventLayer.Proofs.Enduring
import EventLayer.Proofs.Faults
import EventLayer.Proofs.PluginCalls.Treasures
import EventLayer.Proofs.Text.Decimals

set_option autoImplicit false
set_option relaxedAutoImplicit false

namespace EventLayer

open Json (Number)

/-! ### Entries -/

namespace Json

/-- The fields of a thing tell its kind: a weapon has a type of weapon, an armor a type of armor and no
other, an item neither. -/
def TellsKind (fields : List (String × Json)) : ItemKind → Prop
  | .item => OrderedMap.find "wtypeId" fields = none ∧ OrderedMap.find "atypeId" fields = none
  | .weapon => (OrderedMap.find "wtypeId" fields).isSome = true
  | .armor => OrderedMap.find "wtypeId" fields = none ∧ (OrderedMap.find "atypeId" fields).isSome = true

/-- The fields of a thing of a kind, with its number. -/
structure IsNumbered (kind : ItemKind) (id : Int) (fields : List (String × Json)) : Prop where
  number : OrderedMap.find "id" fields = some (.int id)
  positive : 0 < id
  inRange : id < 2 ^ 53
  icon : ∃ n, (OrderedMap.find "iconIndex" fields).getD (.int 0) = .int n
  kind : TellsKind fields kind

theorem kindOf_of_tellsKind {fields : List (String × Json)} {kind : ItemKind} (h : TellsKind fields kind) :
    ItemKey.kindOf fields = kind := by
  unfold ItemKey.kindOf
  cases kind with
  | weapon => exact if_pos h
  | armor => rw [h.1, if_neg (by simp), if_pos h.2]
  | item => rw [h.1, h.2, if_neg (by simp), if_neg (by simp)]

/-- A thing is counted under its own kind and number. -/
theorem IsNumbered.key {fields : List (String × Json)} {kind : ItemKind} {id : Int}
    (h : IsNumbered kind id fields) : ItemKey.ofEntry? (.obj fields) = .ok (some ⟨kind.word, id⟩) := by
  cases fields with
  | nil => cases h.number
  | cons field rest =>
      unfold ItemKey.ofEntry?
      dsimp only
      rw [h.number, kindOf_of_tellsKind h.kind]
      rfl

/-- The icon of a thing is a whole number. -/
theorem IsNumbered.exists_icon {fields : List (String × Json)} {kind : ItemKind} {id : Int}
    (h : IsNumbered kind id fields) :
    ∃ n, ((((Json.obj fields).field? "iconIndex").getD (.int 0)).orElse (.int 0)).toInt = .ok n := by
  obtain ⟨n, hn⟩ := h.icon
  rw [show ((Json.obj fields).field? "iconIndex").getD (.int 0) = .int n from hn]
  unfold orElse
  split
  · exact ⟨n, rfl⟩
  · exact ⟨0, rfl⟩

end Json

/-! ### The things of all tables -/

namespace Database

variable {db : Database} {kind : ItemKind} {name : String}

/-- The things of a kind, in the order of their table. -/
def things (db : Database) (kind : ItemKind) : List Json :=
  match db.table kind with
  | .arr entries => entries.filter fun e => e.truthy && e.isObject
  | _ => []

/-- The things of several kinds, one kind after the other. -/
def thingsOf (db : Database) (kinds : List ItemKind) : List (ItemKind × Json) :=
  kinds.flatMap fun kind => (db.things kind).map (Prod.mk kind)

/-- All things, items before weapons before armors. -/
def allThings (db : Database) : List (ItemKind × Json) := db.thingsOf [.item, .weapon, .armor]

theorem mem_allThings {e : Json} : (kind, e) ∈ db.allThings ↔ e ∈ db.things kind := by
  cases kind <;> simp [allThings, thingsOf]

/-- The thing that a name means: the first that has it exactly, or else the first that has it up to
letter case. -/
def meant? (db : Database) (name : String) : Option (ItemKind × Json) :=
  (db.allThings.find? fun t => entryName t.2 == name).or
    (db.allThings.find? fun t => Text.alike (entryName t.2) name)

/-- A name that no thing has: a blank one, or one that differs from all by more than letter case. -/
def Lacks (db : Database) (name : String) : Prop :=
  name = "" ∨ ∀ thing ∈ db.allThings, Text.alike (entryName thing.2) name = false

/-- Tables as the editor numbers them. -/
structure IsNumbered (db : Database) : Prop where
  /-- Each table is one that can be gone through. -/
  tables : ∀ kind, ∃ entries, (db.table kind).elements = .ok entries
  things : ∀ kind, ∀ e ∈ db.things kind, ∃ id fields, e = .obj fields ∧ Json.IsNumbered kind id fields
  distinct : ∀ kind, (db.things kind).Pairwise fun e f => e.field? "id" ≠ f.field? "id"

/-- What a search goes through in a table. -/
theorem filter_elements {entries : List Json} (h : (db.table kind).elements = .ok entries) :
    (entries.filter fun e => e.truthy && e.isObject) = db.things kind := by
  unfold things
  split
  · next found htable =>
      rw [htable] at h
      cases h
      rfl
  · next hother =>
      -- the characters of a text and the keys of an object are texts
      have htext : ∀ e ∈ entries, e.isObject = false := by
        unfold Json.elements at h
        split at h
        · next items hitems => exact absurd hitems (hother items)
        · cases h
          exact List.forall_mem_map.2 fun _ _ => rfl
        · cases h
          exact List.forall_mem_map.2 fun _ _ => rfl
        · cases h
      refine List.filter_eq_nil_iff.2 fun e he => ?_
      rw [htext e he, Bool.and_false]
      exact Bool.false_ne_true

/-- What a search finds: the first exact match, or what was kept, or the first match up to case. -/
theorem search_eq (h : ∀ kind, ∃ entries, (db.table kind).elements = .ok entries) (name : String)
    (kinds : List ItemKind) (alike : Option (ItemKind × Json)) :
    db.search name alike kinds = .ok (((db.thingsOf kinds).find? fun t => entryName t.2 == name).or
      (alike.or ((db.thingsOf kinds).find? fun t => Text.alike (entryName t.2) name))) := by
  induction kinds generalizing alike with
  | nil => simp [search, thingsOf]
  | cons kind rest ih =>
      obtain ⟨entries, hentries⟩ := h kind
      have hsplit : db.thingsOf (kind :: rest) = (db.things kind).map (Prod.mk kind) ++ db.thingsOf rest := rfl
      have hfind : ∀ p : ItemKind × Json → Bool, (db.thingsOf (kind :: rest)).find? p =
          (((db.things kind).find? fun e => p (kind, e)).map (Prod.mk kind)).or
            ((db.thingsOf rest).find? p) := by
        intro p
        rw [hsplit, List.find?_append, List.find?_map]
        rfl
      rw [hfind, hfind, search, hentries, Except.ok_bind]
      dsimp only
      rw [filter_elements hentries]
      cases (db.things kind).find? fun e => entryName e == name with
      | some e => rfl
      | none =>
          rw [ih]
          simp only [Option.map_none, Option.none_or, Option.or_assoc]

/-- **The look-up by name** finds the thing that is meant. -/
theorem itemNamed?_eq (h : db.IsNumbered) (name : String) :
    db.itemNamed? name = .ok (if Text.trim name = "" then none else db.meant? (Text.trim name)) := by
  unfold itemNamed?
  dsimp only
  split
  · rfl
  · rw [search_eq h.tables]
    rfl

theorem alike_of_meant? {thing : ItemKind × Json} (h : db.meant? name = some thing) :
    thing ∈ db.allThings ∧ Text.alike (entryName thing.2) name = true := by
  rcases Option.or_eq_some_iff.1 h with hexact | ⟨-, hloose⟩
  · refine ⟨List.mem_of_find?_eq_some hexact, ?_⟩
    have hname := List.find?_some hexact
    rw [eq_of_beq hname]
    exact Text.alike_self name
  · have halike := List.find?_some hloose
    exact ⟨List.mem_of_find?_eq_some hloose, halike⟩

/-- A name means nothing exactly if it differs from the names of all things. -/
theorem meant?_eq_none_iff :
    db.meant? name = none ↔ ∀ thing ∈ db.allThings, Text.alike (entryName thing.2) name = false := by
  constructor
  · intro h thing hthing
    have hloose := List.find?_eq_none.1 (Option.or_eq_none_iff.1 h).2 thing hthing
    exact Bool.eq_false_iff.2 hloose
  · intro h
    cases hmeant : db.meant? name with
    | none => rfl
    | some thing =>
        obtain ⟨hthing, halike⟩ := alike_of_meant? hmeant
        rw [h thing hthing] at halike
        cases halike

/-- The search by name comes to nothing exactly for a name that no thing has. -/
theorem itemNamed?_eq_none_iff (h : db.IsNumbered) (name : String) :
    db.itemNamed? name = .ok none ↔ db.Lacks (Text.trim name) := by
  rw [itemNamed?_eq h, Lacks]
  by_cases hblank : Text.trim name = ""
  · simp [hblank]
  · rw [if_neg hblank, Except.ok.injEq, meant?_eq_none_iff, or_iff_right hblank]

/-- **The look-up by number** finds the thing with this number, since no other has it. -/
theorem item?_eq (h : db.IsNumbered) {e : Json} (he : e ∈ db.things kind) {id : Int}
    (hid : e.field? "id" = some (.int id)) : db.item? kind (.int id) = some e := by
  have hlook : db.item? kind (.int id) =
      (db.things kind).find? fun e => ((e.field? "id").getD .null).same (.int id) := by
    unfold item? entry? things
    cases db.table kind with
    | arr entries => simp only [List.find?_filter, Bool.decide_and, Bool.decide_eq_true]
    | null | bool | int | float | str | obj => rfl
  obtain ⟨before, after, hsplit⟩ := List.append_of_mem he
  have hdistinct := h.distinct kind
  rw [hsplit, List.pairwise_append] at hdistinct
  rw [hlook, hsplit, List.find?_append, List.find?_eq_none.2, Option.none_or, List.find?_cons_of_pos]
  · rw [hid]
    exact beq_self_eq_true id
  · intro f hf
    obtain ⟨other, fields, rfl, hother⟩ := h.things kind f (hsplit ▸ List.mem_append_left _ hf)
    have hne := hdistinct.2.2 _ hf e List.mem_cons_self
    have hfound : (Json.obj fields).field? "id" = some (.int other) := hother.number
    rw [hfound, hid] at hne
    rw [hfound]
    simpa [Json.same] using hne

end Database

/-! ### Showing a treasure -/

/-- A session that differs in its notices and in the common events that run or wait to be run at most. -/
def Session.Shown (s t : Session) : Prop :=
  ∃ reserved interpreter notices, t = { s with scratch.reserved := reserved, interpreter, notices }

namespace Play

open Session

variable {s t : Session}

/-- To show a treasure touches neither what the party holds nor what is remembered of it. -/
theorem shown_displayTreasure (s : Session) : displayTreasure.Preserves s.Shown := by
  have hnote : ∀ t notices, s.Shown t → s.Shown { t with notices } := by
    rintro _ notices ⟨reserved, interpreter, _, rfl⟩
    exact ⟨reserved, interpreter, notices, rfl⟩
  refine preserves_displayTreasure (fun d id => preserves_getBind fun u => ?_) ?_
  · split
    · exact preserves_note hnote _
    · refine Preserves.bind (preserves_getBind fun _ =>
        (preserves_reading hnote _).bind fun _ => preserves_pure _) fun frame => preserves_modify ?_
      rintro _ ⟨reserved, interpreter, notices, rfl⟩
      exact ⟨reserved, interpreter.push d frame, notices, rfl⟩
  · rintro _ id ⟨reserved, interpreter, notices, rfl⟩
    exact ⟨reserved ++ [id], interpreter, notices, rfl⟩

/-- **To show a treasure fails for broken data only.** -/
theorem failsOnData_displayTreasure : displayTreasure.FailsOnData := by
  have hcall : ∀ (d : Nat) (id : Json), (callCommon d id).FailsOnData := by
    refine fun d id => failsOnData_getBind fun s => ?_
    split
    · exact failsOnData_modify _
    · next entry _ =>
        have hlist := EventCommand.failsOnData_readList (CommonEvent.listOf entry)
        refine FailsOnData.bind (failsOnData_getBind fun _ => ?_) fun _ => failsOnData_modify _
        exact (failsOnData_reading hlist).bind fun _ => failsOnData_pure _
  refine failsOnData_getBind fun s => ?_
  dsimp only
  split
  · exact failsOnData_pure ()
  · split
    · split
      · exact hcall _ _
      · exact failsOnData_modify _
    · exact failsOnData_modify _

end Play

/-! ### Receiving a thing -/

namespace Party

variable {p : Party} {key other : ItemKey} {sum : Number}

/-- The party once it was given something that would make a count a certain sum; a count that can grow no
more stays. -/
def receive (p : Party) (key : ItemKey) (sum : Number) : Party :=
  if (p.count key).below (.int maxCount) = true then p.hold key (clamp maxCount sum) else p

theorem count_receive_self (h : p.items.Distinct) (key : ItemKey) (sum : Number) :
    (p.receive key sum).count key =
      if (p.count key).below (.int maxCount) = true then clamp maxCount sum else p.count key := by
  unfold receive
  split
  · exact count_hold_self h (truthy_clamp (by decide) sum)
  · rfl

theorem count_receive_of_ne (h : key ≠ other) (sum : Number) :
    (p.receive key sum).count other = p.count other := by
  unfold receive
  split
  · exact count_hold_of_ne h _
  · rfl

theorem gold_receive (p : Party) (key : ItemKey) (sum : Number) : (p.receive key sum).gold = p.gold := by
  unfold receive
  split <;> rfl

theorem countOf_of_key {entry : Json} (h : ItemKey.ofEntry? entry = .ok (some key)) (p : Party) :
    p.countOf entry = .ok (p.count key) := by
  rw [countOf, h]
  rfl

end Party

/-- A session with another party. -/
def Session.withParty (s : Session) (party : Party) : Session := { s with stores.party := party }

@[simp] theorem Session.party_withParty (s : Session) (party : Party) :
    (s.withParty party).stores.party = party := rfl

/-- What is remembered of a thing that was to be given. -/
def Treasure.ofThing (kind : ItemKind) (id : Int) (entry : Json) (amount icon : Int) (success : Bool) :
    Treasure where
  kind := kind.word
  id
  name := .str ((entry.field? "name").getD (.str "")).text
  amount
  success
  icon
  entry := some entry

/-- A session in which the party was given a number of a thing of which it held `old`: a count below the
limit grows or falls within the limits, nothing else that the party holds changes, and the treasure is
remembered. -/
structure Session.Received (s : Session) (kind : ItemKind) (id : Int) (entry : Json) (amount : Int)
    (old : Number) (t : Session) : Prop where
  count : ∃ sum, old.plus (.int amount) = .ok sum ∧ t.stores.party.countOf entry =
    .ok (if old.below (.int Party.maxCount) = true then Party.clamp Party.maxCount sum else old)
  others : ∀ other ∈ s.game.database.allThings, other ≠ (kind, entry) →
    t.stores.party.countOf other.2 = s.stores.party.countOf other.2
  gold : t.stores.party.gold = s.stores.party.gold
  treasure : ∃ icon, t.scratch.treasure =
    some (Treasure.ofThing kind id entry amount icon (old.below (.int Party.maxCount)))

/-- A whole count below the limit becomes the sum, brought between zero and the limit. -/
theorem Session.Received.whole {s t : Session} {kind : ItemKind} {id amount n : Int} {entry : Json}
    (h : s.Received kind id entry amount (.int n) t) : t.stores.party.countOf entry =
      .ok (.int (if n < Party.maxCount then max 0 (min (n + amount) Party.maxCount) else n)) := by
  obtain ⟨sum, hsum, hcount⟩ := h.count
  rw [Number.plus_int] at hsum
  cases hsum
  rw [hcount, Party.clamp_int, Number.below_int]
  split <;> simp_all

namespace Play

open Session

variable {s : Session} {kind : ItemKind} {id amount : Int} {fields : List (String × Json)}

/-- A whole amount is taken as it is. -/
theorem readAmount_int {n : Int} (h : n.natAbs ≤ 2 ^ 53) : readAmount (.int n) = pure n := by
  unfold readAmount
  rw [Json.decimalPart_int h]

theorem giveEntry_apply {entry : Json} {key : ItemKey} {sum : Number}
    (hkey : ItemKey.ofEntry? entry = .ok (some key))
    (hsum : (s.stores.party.count key).plus (.int amount) = .ok sum) :
    giveEntry entry amount s = .ok ((s.stores.party.count key).below (.int Party.maxCount))
      (s.withParty (s.stores.party.receive key sum)) := by
  have hgain : s.stores.party.gainOf entry (.int amount) =
      .ok (s.stores.party.hold key (Party.clamp Party.maxCount sum)) := by
    rw [Party.gainOf, hkey, Except.ok_bind]
    change s.stores.party.gain key (.int amount) = _
    rw [Party.gain, hsum]
    rfl
  rw [giveEntry, get_bind_apply, Party.countOf_of_key hkey, bind_of_ok (lift_ok_apply _ s), Party.receive,
    Party.isFull]
  cases (s.stores.party.count key).below (.int Party.maxCount) with
  | false => rfl
  | true =>
      rw [hgain]
      rfl

/-- **A thing that is given by its number**: the party receives it, and the treasure is shown. -/
theorem giveItem_of_mem (hdb : s.game.database.IsNumbered) (he : .obj fields ∈ s.game.database.things kind)
    (hfields : Json.IsNumbered kind id fields) (hamount : amount.natAbs < 2 ^ 53) :
    ∃ sum icon, (s.stores.party.count ⟨kind.word, id⟩).plus (.int amount) = .ok sum ∧
      giveItem kind (.int id) (.int amount) s =
        announce (Treasure.ofThing kind id (.obj fields) amount icon
            ((s.stores.party.count ⟨kind.word, id⟩).below (.int Party.maxCount)))
          (s.withParty (s.stores.party.receive ⟨kind.word, id⟩ sum)) := by
  have hid : id.natAbs ≤ 2 ^ 53 := by
    have hpos := hfields.positive
    have hlt := hfields.inRange
    omega
  obtain ⟨icon, hicon⟩ := hfields.exists_icon
  have hread := readAmount_int hamount.le
  obtain ⟨sum, hsum⟩ := Number.exists_plus (s.stores.party.count ⟨kind.word, id⟩)
    (ofIntChecked_of_readAmount (congrArg Reading.result hread))
  have hitem := Database.item?_eq hdb he hfields.number
  refine ⟨sum, icon, hsum, ?_⟩
  rw [giveItem, readAmount_int hid, hread, bind_of_ok (lift_pure_reading_apply id s),
    bind_of_ok (lift_pure_reading_apply amount s), get_bind_apply, hitem]
  dsimp only
  rw [bind_of_ok (giveEntry_apply hfields.key hsum), hicon, bind_of_ok (lift_ok_apply icon _)]
  rfl

/-- A treasure that is announced is remembered, and what the party holds stays. -/
theorem kept_announce (treasure : Treasure) (s : Session) :
    ((announce treasure).after s).stores = s.stores ∧
      ((announce treasure).after s).scratch.treasure = some treasure := by
  have hshown : (displayTreasure >>= fun _ => pure treasure : Play Treasure).Preserves
      ({ s with scratch.treasure := some treasure } : Session).Shown :=
    (shown_displayTreasure _).bind fun _ => preserves_pure _
  have hafter : ({ s with scratch.treasure := some treasure } : Session).Shown ((announce treasure).after s) :=
    hshown _ ⟨_, _, _, rfl⟩
  obtain ⟨reserved, interpreter, notices, hafter⟩ := hafter
  rw [hafter]
  exact ⟨rfl, rfl⟩

/-- What a treasure that is shown leaves of the party that received it. -/
theorem received_announce (hdb : s.game.database.IsNumbered) (hdistinct : s.stores.party.items.Distinct)
    (he : .obj fields ∈ s.game.database.things kind) (hfields : Json.IsNumbered kind id fields) {sum : Number}
    (hsum : (s.stores.party.count ⟨kind.word, id⟩).plus (.int amount) = .ok sum) (icon : Int) :
    s.Received kind id (.obj fields) amount (s.stores.party.count ⟨kind.word, id⟩)
      ((announce (Treasure.ofThing kind id (.obj fields) amount icon
          ((s.stores.party.count ⟨kind.word, id⟩).below (.int Party.maxCount)))).after
        (s.withParty (s.stores.party.receive ⟨kind.word, id⟩ sum))) := by
  obtain ⟨hstores, htreasure⟩ := kept_announce (Treasure.ofThing kind id (.obj fields) amount icon
    ((s.stores.party.count ⟨kind.word, id⟩).below (.int Party.maxCount)))
    (s.withParty (s.stores.party.receive ⟨kind.word, id⟩ sum))
  refine ⟨⟨sum, hsum, ?_⟩, ?_, ?_, ⟨icon, htreasure⟩⟩
  · rw [hstores, Session.party_withParty, Party.countOf_of_key hfields.key]
    exact congrArg Except.ok (Party.count_receive_self hdistinct _ sum)
  · rintro ⟨kind', e⟩ hmem hne
    obtain ⟨id', fields', rfl, hfields'⟩ := hdb.things kind' e (Database.mem_allThings.1 hmem)
    have hkey : (⟨kind.word, id⟩ : ItemKey) ≠ ⟨kind'.word, id'⟩ := by
      -- one key would mean one table and one number, and so one entry
      intro hsame
      obtain ⟨hword, rfl⟩ := ItemKey.mk.inj hsame
      obtain rfl : kind = kind' := by
        cases kind <;> cases kind' <;> first | rfl | exact absurd hword (by decide)
      have hsecond := Database.item?_eq hdb (Database.mem_allThings.1 hmem) hfields'.number
      rw [Database.item?_eq hdb he hfields.number] at hsecond
      exact hne (by rw [Option.some.inj hsecond])
    rw [hstores, Session.party_withParty, Party.countOf_of_key hfields'.key, Party.countOf_of_key hfields'.key]
    exact congrArg Except.ok (Party.count_receive_of_ne hkey sum)
  · rw [hstores]
    exact Party.gold_receive _ _ sum

/-- A thing that a name means is given by its number. -/
theorem giveNamed_of_meant (hdb : s.game.database.IsNumbered) {name : Option String}
    (hname : Text.trim (name.getD "") ≠ "")
    (hmeant : s.game.database.meant? (Text.trim (name.getD "")) = some (kind, .obj fields))
    (hfields : Json.IsNumbered kind id fields) (amount : Json) :
    giveNamed name amount s = giveItem kind (.int id) amount s := by
  have hid : (Json.obj fields).field? "id" = some (.int id) := hfields.number
  rw [giveNamed, get_bind_apply, Database.itemNamed?_eq hdb, if_neg hname, hmeant,
    bind_of_ok (lift_ok_apply _ s)]
  dsimp only
  rw [hid, Option.getD_some]

/-- **A treasure by name is the thing that is meant, or nothing is done.**  The command is refused exactly
for a name that no thing has, and the session stays as it was.  Otherwise the party receives the thing that
the name means. -/
theorem giveNamed_gives_meant (hdb : s.game.database.IsNumbered) (hdistinct : s.stores.party.items.Distinct)
    (name : Option String) (hamount : amount.natAbs < 2 ^ 53) :
    (s.game.database.Lacks (Text.trim (name.getD "")) →
      giveNamed name (.int amount) s = .error (.noSuchItem name) s) ∧
    (¬s.game.database.Lacks (Text.trim (name.getD "")) →
      (∀ asked t, giveNamed name (.int amount) s ≠ .error (.noSuchItem asked) t) ∧
      (s.game.ShowsTreasures → (giveNamed name (.int amount)).succeeds s = true) ∧
      ∃ kind id entry old, s.game.database.meant? (Text.trim (name.getD "")) = some (kind, entry) ∧
        entry.field? "id" = some (.int id) ∧ s.stores.party.countOf entry = .ok old ∧
        s.Received kind id entry amount old ((giveNamed name (.int amount)).after s) ∧
        ∀ n : Int, old = .int n → ((giveNamed name (.int amount)).after s).stores.party.countOf entry =
          .ok (.int (if n < Party.maxCount then max 0 (min (n + amount) Party.maxCount) else n))) := by
  constructor
  · intro hlacks
    rw [giveNamed, get_bind_apply, (Database.itemNamed?_eq_none_iff hdb _).2 hlacks]
    rfl
  · intro hknown
    rw [Database.Lacks, not_or, ← Database.meant?_eq_none_iff] at hknown
    obtain ⟨hname, hsome⟩ := hknown
    obtain ⟨⟨kind, entry⟩, hmeant⟩ := Option.ne_none_iff_exists'.1 hsome
    have hmem := Database.mem_allThings.1 (Database.alike_of_meant? hmeant).1
    obtain ⟨id, fields, rfl, hfields⟩ := hdb.things kind entry hmem
    obtain ⟨sum, icon, hsum, hgive⟩ := giveItem_of_mem hdb hmem hfields hamount
    rw [← giveNamed_of_meant hdb hname hmeant hfields] at hgive
    have hreceived : s.Received kind id (.obj fields) amount (s.stores.party.count ⟨kind.word, id⟩)
        ((giveNamed name (.int amount)).after s) := by
      rw [after, hgive]
      exact received_announce hdb hdistinct hmem hfields hsum icon
    refine ⟨?_, ?_, kind, id, _, _, hmeant, hfields.number, Party.countOf_of_key hfields.key _,
      hreceived, fun n hn => (hn ▸ hreceived).whole⟩
    · intro asked t hfail
      rw [hgive] at hfail
      have hdata := failsOnData_displayTreasure.bind (fun _ => failsOnData_pure _) _ _ _ hfail
      cases hdata
    · intro hshow
      have hshows : (s.withParty (s.stores.party.receive ⟨kind.word, id⟩ sum)).game.ShowsTreasures := hshow
      obtain ⟨treasure, t, hrun, -⟩ := (returns_announce hshows _).ok trivial
      rw [succeeds, hgive, hrun]

/-- A game in which an item and a weapon have one number, and one name up to letter case and blanks. -/
def namesakes : Game where
  database.items := .arr [.null, .obj [("id", .int 1), ("name", .str "potion")]]
  database.weapons := .arr [.null, .obj [("id", .int 1), ("name", .str "Potion "), ("wtypeId", .int 2)]]

theorem isNumbered_namesakes : namesakes.database.IsNumbered where
  tables := by
    intro kind
    cases kind <;> exact ⟨_, rfl⟩
  things := by
    intro kind e he
    cases kind with
    | item =>
        obtain rfl := List.mem_singleton.1 he
        exact ⟨1, _, rfl, rfl, by decide, by decide, ⟨0, rfl⟩, rfl, rfl⟩
    | weapon =>
        obtain rfl := List.mem_singleton.1 he
        exact ⟨1, _, rfl, rfl, by decide, by decide, ⟨0, rfl⟩, rfl⟩
    | armor => cases he
  distinct := by
    intro kind
    cases kind <;> simp [Database.things, Database.table, namesakes, Json.truthy, Json.isObject]

/-- The weapon has the name exactly, and is given as far as the party can hold it. -/
theorem giveNamed_gives_meant_namesakes :
    namesakes.database.IsNumbered ∧ (Session.begin namesakes {}).stores.party.items.Distinct ∧
      (120 : Int).natAbs < 2 ^ 53 ∧ ∃ entry, namesakes.database.item? .weapon (.int 1) = some entry ∧
        ((giveNamed (some " Potion") (.int 120)).after (Session.begin namesakes {})).stores.party.countOf entry =
          .ok (.int 99) := by
  have hdistinct : (Session.begin namesakes {}).stores.party.items.Distinct := OrderedMap.Distinct.empty
  have hamount : (120 : Int).natAbs < 2 ^ 53 := by decide
  have hmeant : namesakes.database.meant? (Text.trim ((some " Potion").getD "")) =
      some (.weapon, .obj [("id", .int 1), ("name", .str "Potion "), ("wtypeId", .int 2)]) := rfl
  have hknown : ¬namesakes.database.Lacks (Text.trim ((some " Potion").getD "")) := by
    rw [Database.Lacks, not_or, ← Database.meant?_eq_none_iff, hmeant]
    exact ⟨by decide, by simp⟩
  obtain ⟨-, -, kind, id, entry, old, hfound, -, hold, -, hwhole⟩ :=
    (giveNamed_gives_meant isNumbered_namesakes hdistinct (some " Potion") hamount).2 hknown
  cases hmeant.symm.trans hfound
  exact ⟨isNumbered_namesakes, hdistinct, hamount, _, rfl, hwhole 0 (Except.ok.inj hold).symm⟩

end Play

end EventLayer
