/-
**The nearest of the events that a link could point to.**

On the current map a link looks at the events that are not erased, and on another map at those of its
file, where they would stand if it were set up.  It keeps those that a selector, a note and a distance
let pass, and points to the nearest; of equally near ones to the one with the least number.

Main definitions:

* `Candidate.tiles`, `Candidate.Precedes` — how far a candidate is away, and which of two is preferred;
* `Candidate.IsFiled`, `Session.Offered` — the events that a link looks at;
* `Session.Charts` — maps whose events can be looked at;
* `Session.mapSelected`, `Session.measuredFrom` — the map and the reference point of a link;
* `Session.Keeps`, `Session.Picks` — the events that pass, and the one that is preferred to all.

Main results:

* `Candidate.kept_of_placed`, `Candidate.nearest?_of_placed` — the filters, and the choice;
* `Play.returns_linkMap`, `Play.returns_linkReference`, `Play.returns_candidates` — what a link looks at;
* `Play.returns_linkAmong` — **a link is set to the event that is picked**.
-/
import EventLayer.Proofs.Lockstep.Commands
import EventLayer.Proofs.PluginCalls.SoundGame
import EventLayer.Proofs.Returns

set_option autoImplicit false
set_option relaxedAutoImplicit false

namespace EventLayer

namespace Json.Number

theorem compare?_int_eq_iff (m n : Int) : compare? (.int m) (.int n) = some .eq ↔ m = n := by
  have hlt : ((m : Rat) < n) ↔ m < n := Rat.intCast_lt_intCast
  have heq : ((m : Rat) = n) ↔ m = n := Rat.intCast_inj
  simp only [compare?, Double.compare?, Double.toRat?, Option.getD_some, hlt, heq]
  split
  · next h => simp [Int.ne_of_lt h]
  · split
    · next h => simp [h]
    · next h => simp [h]

theorem atMost_int (m n : Int) : atMost (.int m) (.int n) = decide (m ≤ n) := by
  rw [Bool.eq_iff_iff]
  simp only [atMost, below_int, Bool.or_eq_true, beq_iff_eq, compare?_int_eq_iff, decide_eq_true_eq]
  omega

end Json.Number

/-- A filter whose test never fails is one by a test that cannot. -/
theorem filterM_of_ok {α : Type} {l : List α} {test : α → Except Fault Bool} {passes : α → Bool}
    (h : ∀ a ∈ l, test a = .ok (passes a)) : l.filterM test = .ok (l.filter passes) := by
  have haux : ∀ acc, l.filterAuxM test acc = .ok ((l.filter passes).reverse ++ acc) := by
    induction l with
    | nil => exact fun acc => rfl
    | cons a rest ih =>
        intro acc
        have hrest := ih fun b hb => h b (List.mem_cons_of_mem _ hb)
        rw [List.filterAuxM, h a List.mem_cons_self, Except.ok_bind, hrest]
        cases hpasses : passes a with
        | true => simp [hpasses]
        | false => simp [hpasses]
  rw [List.filterM, haux [], Except.ok_bind]
  simp [pure, Except.pure]

/-- A filter whose test never fails keeps what passes the test. -/
theorem exists_filterM {α : Type} {l : List α} {test : α → Except Fault Bool} {Passes : α → Prop}
    (h : ∀ a ∈ l, ∃ b, test a = .ok b ∧ (b = true ↔ Passes a)) :
    ∃ found, l.filterM test = .ok found ∧ ∀ a, a ∈ found ↔ a ∈ l ∧ Passes a := by
  classical
  have htest : ∀ a ∈ l, test a = .ok (decide (Passes a)) := by
    intro a ha
    obtain ⟨b, hb, hpasses⟩ := h a ha
    rw [hb, Bool.eq_iff_iff.mpr (hpasses.trans decide_eq_true_iff.symm)]
  refine ⟨_, filterM_of_ok htest, fun a => ?_⟩
  rw [List.mem_filter, decide_eq_true_iff]

namespace Candidate

variable {pool : List Candidate} {a b c : Candidate} {p : Point}

/-! ### Distances -/

/-- How many tiles a candidate is away from a point, if it stands on one. -/
def tiles (p : Point) (c : Candidate) : Nat :=
  match c.x.number, c.y.number with
  | .ok (.int x), .ok (.int y) => Point.boxDistance ⟨x, y⟩ p
  | _, _ => 0

/-- A candidate is nearer to a point than another one, or else as near with no greater number. -/
def Precedes (p : Point) (a b : Candidate) : Prop :=
  a.tiles p < b.tiles p ∨ a.tiles p = b.tiles p ∧ a.id ≤ b.id

theorem Precedes.refl (p : Point) (c : Candidate) : c.Precedes p c := Or.inr ⟨rfl, Int.le_refl _⟩

theorem Precedes.trans (h : a.Precedes p b) (h' : b.Precedes p c) : a.Precedes p c := by
  unfold Precedes at *
  omega

theorem IsPlaced.distance (h : c.IsPlaced) (p : Point) : c.distance p = .ok (.int (c.tiles p)) := by
  obtain ⟨x, hx⟩ := h.x
  obtain ⟨y, hy⟩ := h.y
  have htiles : c.tiles p = Point.boxDistance ⟨x, y⟩ p := by
    unfold tiles
    rw [hx, hy]
  have hplain := distance_of_point c.id c.name c.note ⟨x, y⟩ p
  rw [htiles, ← hplain]
  unfold Candidate.distance
  rw [hx, hy]
  rfl

/-- Among candidates that stand on tiles, the one that ranks before another is not preceded by it. -/
theorem before_iff (p : Point) (a b : Candidate) :
    before (.int (a.tiles p), a) (.int (b.tiles p), b) = true ↔ ¬b.Precedes p a := by
  unfold before Precedes
  simp only [Json.Number.compare?_int_eq_iff, Json.Number.below_int]
  split
  · simp only [decide_eq_true_eq]
    omega
  · simp only [decide_eq_true_eq]
    omega

/-! ### Filters -/

/-- A candidate on a tile is within a distance unless it is further away from the reference point. -/
theorem IsPlaced.within (h : c.IsPlaced) (ref : Option Point) (limit : Option Int) :
    ∃ near, within ref limit c = .ok near ∧
      (near = true ↔ ∀ p n, ref = some p → limit = some n → (c.tiles p : Int) ≤ n) := by
  unfold Candidate.within
  cases ref with
  | none => exact ⟨true, rfl, by simp⟩
  | some p =>
      cases limit with
      | none => exact ⟨true, rfl, by simp⟩
      | some n =>
          refine ⟨decide ((c.tiles p : Int) ≤ n), ?_, by simp⟩
          dsimp only
          rw [h.distance p, Except.ok_bind, Json.Number.atMost_int]
          rfl

/-- **Of candidates that stand on tiles those are kept that pass the filters.** -/
theorem kept_of_placed (hplaced : ∀ c ∈ pool, c.IsPlaced) (selector : Selector) (note : String)
    (ref : Option Point) (limit : Option Int) :
    ∃ found, kept pool selector note ref limit = .ok found ∧ ∀ c, c ∈ found ↔ c ∈ pool ∧
      c.selected selector = true ∧ c.noted note = true ∧
        ∀ p n, ref = some p → limit = some n → (c.tiles p : Int) ≤ n := by
  have hwithin : ∀ c ∈ pool.filter fun c => c.selected selector && c.noted note, ∃ near,
      within ref limit c = .ok near ∧
        (near = true ↔ ∀ p n, ref = some p → limit = some n → (c.tiles p : Int) ≤ n) :=
    fun c hc => (hplaced c (List.mem_filter.mp hc).1).within ref limit
  obtain ⟨found, hfound, hmem⟩ := exists_filterM hwithin
  refine ⟨found, hfound, fun c => ?_⟩
  simp only [hmem, List.mem_filter, Bool.and_eq_true, and_assoc]

/-! ### The choice -/

/-- One more candidate is looked at: of it and the best so far the one that precedes the other is left. -/
theorem nearer_of_placed (hc : c.IsPlaced) (b : Candidate) :
    ∃ w, nearer (some p) (.int (b.tiles p), b) c = .ok (.int (w.tiles p), w) ∧ (w = b ∨ w = c) ∧
      w.Precedes p b ∧ w.Precedes p c := by
  have hstep : nearer (some p) (.int (b.tiles p), b) c = .ok
      (if before (.int (c.tiles p), c) (.int (b.tiles p), b) then (.int (c.tiles p), c)
        else (.int (b.tiles p), b)) := by
    rw [nearer, reach, hc.distance p]
    rfl
  rw [hstep]
  by_cases hbefore : before (.int (c.tiles p), c) (.int (b.tiles p), b) = true
  · rw [if_pos hbefore]
    rw [before_iff] at hbefore
    refine ⟨c, rfl, Or.inr rfl, ?_, .refl p c⟩
    unfold Precedes at *
    omega
  · rw [if_neg hbefore]
    rw [before_iff, not_not] at hbefore
    exact ⟨b, rfl, Or.inl rfl, .refl p b, hbefore⟩

/-- What precedes all that were looked at is left at the end, by induction on the others. -/
theorem foldlM_nearer_of_placed (hplaced : ∀ c ∈ pool, c.IsPlaced) (b : Candidate) :
    ∃ w, pool.foldlM (nearer (some p)) (.int (b.tiles p), b) = .ok (.int (w.tiles p), w) ∧
      w ∈ b :: pool ∧ ∀ c ∈ b :: pool, w.Precedes p c := by
  induction pool generalizing b with
  | nil => exact ⟨b, rfl, List.mem_cons_self, by simp [Precedes.refl]⟩
  | cons c rest ih =>
      obtain ⟨hc, hrest⟩ := List.forall_mem_cons.mp hplaced
      obtain ⟨v, hv, hfrom, hvb, hvc⟩ := nearer_of_placed (p := p) hc b
      obtain ⟨w, hw, hmem, hleast⟩ := ih hrest v
      simp only [List.forall_mem_cons] at hleast
      refine ⟨w, ?_, ?_, ?_⟩
      · rw [List.foldlM_cons, hv, Except.ok_bind]
        exact hw
      · rcases List.mem_cons.mp hmem with rfl | hmem
        · rcases hfrom with rfl | rfl <;> simp
        · simp [hmem]
      · simp only [List.forall_mem_cons]
        exact ⟨hleast.1.trans hvb, hleast.1.trans hvc, hleast.2⟩

/-- **Of candidates that stand on tiles the one is chosen that precedes all.** -/
theorem nearest?_of_placed (hplaced : ∀ c ∈ pool, c.IsPlaced) (hne : pool ≠ []) (p : Point) :
    ∃ c ∈ pool, nearest? pool (some p) = .ok (some c) ∧ ∀ other ∈ pool, c.Precedes p other := by
  obtain ⟨first, rest, rfl⟩ := List.exists_cons_of_ne_nil hne
  obtain ⟨hfirst, hrest⟩ := List.forall_mem_cons.mp hplaced
  obtain ⟨c, hc, hmem, hleast⟩ := foldlM_nearer_of_placed (p := p) hrest first
  refine ⟨c, hmem, ?_, hleast⟩
  rw [nearest?, reach, hfirst.distance p, Except.ok_bind, hc]
  rfl

/-! ### Events of a map file -/

/-- What a link sees of an event in a map file: its number, its texts, and the place that is recorded for
it, or else the one in the file. -/
structure IsFiled (origins : Origins) (map : Int) (fields : List (String × Json)) (c : Candidate) :
    Prop where
  id : ((OrderedMap.find "id" fields).getD (.int 0)).toInt = .ok c.id
  name : c.name = ((OrderedMap.find "name" fields).getD (.str "")).text
  note : c.note = ((OrderedMap.find "note" fields).getD (.str "")).text
  recorded : ∀ q, origins.origin? map c.id = some q → c.x = .int q.x ∧ c.y = .int q.y
  filed : origins.origin? map c.id = none → c.x = (OrderedMap.find "x" fields).getD (.int 0) ∧
    c.y = (OrderedMap.find "y" fields).getD (.int 0)

variable {origins : Origins} {map : Int} {fields : List (String × Json)} {events : List Json}

theorem ofFields_eq_ok_iff : ofFields map origins fields = .ok c ↔ c.IsFiled origins map fields := by
  obtain ⟨id, name, note, x, y⟩ := c
  cases hid : ((OrderedMap.find "id" fields).getD (.int 0)).toInt with
  | error e =>
      have hfails : ofFields map origins fields = .error e := by
        unfold ofFields
        dsimp only
        rw [hid]
        rfl
      rw [hfails]
      exact iff_of_false nofun fun h => nomatch hid.symm.trans h.id
  | ok n =>
      let x := (OrderedMap.find "x" fields).getD (.int 0)
      let y := (OrderedMap.find "y" fields).getD (.int 0)
      have hread : ofFields map origins fields = .ok ⟨n,
          ((OrderedMap.find "name" fields).getD (.str "")).text,
          ((OrderedMap.find "note" fields).getD (.str "")).text,
          ((origins.origin? map n).map fun q => Json.int q.x).getD x,
          ((origins.origin? map n).map fun q => Json.int q.y).getD y⟩ := by
        unfold ofFields
        dsimp only
        rw [hid, Except.ok_bind]
        cases origins.origin? map n <;> rfl
      rw [hread]
      constructor
      · intro h
        cases h
        refine ⟨hid, rfl, rfl, fun q hq => ?_, fun hnone => ?_⟩
        · dsimp only at hq ⊢
          simp [hq]
        · dsimp only at hnone ⊢
          simp [hnone, x, y]
      · rintro ⟨hid', hname, hnote, hrecorded, hfiled⟩
        obtain rfl : n = id := Except.ok.inj (hid.symm.trans hid')
        dsimp only at hname hnote hrecorded hfiled
        cases horigin : origins.origin? map n with
        | some q =>
            obtain ⟨hx, hy⟩ := hrecorded q horigin
            rw [hname, hnote, hx, hy]
            rfl
        | none =>
            obtain ⟨hx, hy⟩ := hfiled horigin
            rw [hname, hnote, hx, hy]
            rfl

/-- What a link sees of a map file are its events, each with what is recorded of it. -/
theorem mem_ofEvents_iff (h : ofEvents map origins events = .ok pool) :
    c ∈ pool ↔ ∃ fields, .obj fields ∈ events ∧ fields ≠ [] ∧ c.IsFiled origins map fields := by
  induction events generalizing pool with
  | nil =>
      cases h
      simp
  | cons entry rest ih =>
      cases entry with
      | obj fields =>
          cases fields with
          | nil =>
              refine (ih h).trans ?_
              simp
          | cons field more =>
              obtain ⟨first, hfirst, h⟩ := Except.bind_eq_ok h
              obtain ⟨others, hothers, h⟩ := Except.bind_eq_ok h
              cases h
              have hsame : c = first ↔ c.IsFiled origins map (field :: more) := by
                rw [← ofFields_eq_ok_iff, hfirst, Except.ok.injEq, eq_comm]
              rw [List.mem_cons, ih hothers, hsame]
              simp only [List.mem_cons, Json.obj.injEq]
              constructor
              · rintro (hc | ⟨fields, hmem, hne, hc⟩)
                · exact ⟨_, Or.inl rfl, List.cons_ne_nil _ _, hc⟩
                · exact ⟨fields, Or.inr hmem, hne, hc⟩
              · rintro ⟨fields, rfl | hmem, hne, hc⟩
                · exact Or.inl hc
                · exact Or.inr ⟨fields, hmem, hne, hc⟩
      | null | bool | int | float | str | arr =>
          refine (ih h).trans ?_
          simp

end Candidate

/-! ### Queries -/

/-- What a query asks for on a map, once its parts have been read. -/
structure LinkFilter where
  event : Selector
  note : String
  location : Option Location
  distance : Option Int

/-- How far a link looks: no further than the very tile where a location is given without a distance, and
everywhere where neither is given. -/
def LinkFilter.limit (f : LinkFilter) : Option Int :=
  match f.location, f.distance with
  | some _, none => some 0
  | _, distance => distance

namespace LinkQuery

/-- The note that is asked for; empty where none is. -/
def wanted (q : LinkQuery) : String := if q.note.truthy then q.note.text else ""

/-- The parts of a query are read as those of a filter. -/
structure Reads (q : LinkQuery) (f : LinkFilter) : Prop where
  event : Selector.read q.event = .ok f.event
  note : q.wanted = f.note
  location : (Location.read q.location).result = .ok f.location
  distance : (readDistance q.distance).result = .ok f.distance

theorem exists_reads_iff (q : LinkQuery) : (∃ f, q.Reads f) ↔ (∃ e, Selector.read q.event = .ok e) ∧
    (∃ n, (readDistance q.distance).result = .ok n) ∧ ∃ l, (Location.read q.location).result = .ok l := by
  constructor
  · rintro ⟨f, hevent, -, hlocation, hdistance⟩
    exact ⟨⟨_, hevent⟩, ⟨_, hdistance⟩, ⟨_, hlocation⟩⟩
  · rintro ⟨⟨e, hevent⟩, ⟨n, hdistance⟩, l, hlocation⟩
    exact ⟨⟨e, q.wanted, l, n⟩, hevent, rfl, hlocation, hdistance⟩

end LinkQuery

/-! ### Maps and reference points -/

/-- The tile that a location names, seen from an event and from the player, if the character that it is
measured from is there. -/
def Location.tile? (spec : Location) (event player : Option Pose) : Option Point :=
  let ahead (ref : Pose) : Point :=
    Point.shift ⟨ref.x + spec.x, ref.y + spec.y⟩ ref.direction spec.forward spec.rightward
  match spec.relativity with
  | .absolute => some ⟨spec.x, spec.y⟩
  | .event => event.map ahead
  | .player => player.map ahead

theorem Location.result_resolve (spec : Location) (event player : Option Pose) :
    (spec.resolve event player).result = .ok (spec.tile? event player) := by
  unfold resolve tile?
  cases spec.relativity with
  | absolute => rfl
  | event => cases event <;> rfl
  | player => cases player <;> rfl

namespace Session

/-- The map that a selector selects, if there is one. -/
def mapSelected (s : Session) : Selector → Option Json
  | .any => some (.int s.map.id)
  | .number n => some (.int n)
  | .truth => some (.bool true)
  | .name word => s.game.database.mapNamed? word

/-- The point from which the list at a depth measures: that of a location, if one is given, and else the
player's. -/
def measuredFrom (s : Session) (d : Nat) : Option Location → Option Point
  | none => some s.player.body.point
  | some spec => spec.tile? ((s.characterNamed d 0).bind s.poseOf) (s.poseOf .player)

end Session

/-! ### Events of a map -/

/-- A map file has an entry that describes an event. -/
def Json.Describes (file : Json) (event : List (String × Json)) : Prop :=
  ∃ fields entries, file = .obj fields ∧
    ((OrderedMap.find "events" fields).getD .null).orElse (.arr []) = .arr entries ∧
    .obj event ∈ entries ∧ event ≠ []

namespace Session

variable {s t : Session} {map : Json} {c : Candidate}

/-- A link looks at an event of a map: at one that stands on the current map and is not erased, or at one
that the file of another map describes. -/
def Offered (s : Session) (map : Json) (c : Candidate) : Prop :=
  if map.isInt s.map.id then
    ∃ e ∈ s.map.eventList, e.erased = false ∧ c = ⟨e.id, e.name, e.note, .int e.body.x, .int e.body.y⟩
  else
    ∃ n file event, map.toInt = .ok n ∧ s.game.mapFile map = .ok (some file) ∧ file.Describes event ∧
      c.IsFiled s.stores.origins n event

/-- The events of a map can be looked at: those of the current one always, and those of another one if it
has a number and its file, where there is one, describes events that stand on tiles. -/
def Charts (s : Session) (map : Json) : Prop :=
  map.isInt s.map.id = true ∨ map.IsMapNumber ∧ ∃ file?, s.game.mapFile map = .ok file? ∧
    ∀ file, file? = some file → file.IsMapFile

/-- An event of a map passes a filter, seen from a reference point. -/
structure Keeps (s : Session) (map : Json) (f : LinkFilter) (ref : Point) (c : Candidate) : Prop where
  offered : s.Offered map c
  selected : c.selected f.event = true
  noted : c.noted f.note = true
  near : ∀ n, f.limit = some n → (c.tiles ref : Int) ≤ n

/-- An event of a map passes a filter, and precedes all others that do. -/
structure Picks (s : Session) (map : Json) (f : LinkFilter) (ref : Point) (c : Candidate) : Prop
    extends s.Keeps map f ref c where
  least : ∀ other, s.Keeps map f ref other → c.Precedes ref other

/-- What a link comes to on a map: the list at a depth is linked to the event that is picked, or else none
passes the filter, or there is no reference point, and nothing is changed. -/
def LinksOn (d : Nat) (map : Json) (f : LinkFilter) (s : Session) : Bool → Session → Prop
  | true, t => ∃ ref c, s.measuredFrom d f.location = some ref ∧ s.Picks map f ref c ∧
      (s.updateFrame d fun frame => { frame with link := ⟨c.id, map⟩ }).Noted t
  | false, t => s.Noted t ∧ ∀ ref c, s.measuredFrom d f.location = some ref → ¬s.Keeps map f ref c

theorem Keeps.of_noted {f : LinkFilter} {ref : Point} (hst : s.Noted t) (h : t.Keeps map f ref c) :
    s.Keeps map f ref c := by
  obtain ⟨notices, rfl⟩ := hst
  exact ⟨h.offered, h.selected, h.noted, h.near⟩

theorem Picks.of_noted {f : LinkFilter} {ref : Point} (hst : s.Noted t) (h : t.Picks map f ref c) :
    s.Picks map f ref c :=
  ⟨h.toKeeps.of_noted hst, fun other hother => h.least other (hother.of_noted hst.symm)⟩

theorem Charts.of_noted (hst : s.Noted t) (h : s.Charts map) : t.Charts map := by
  obtain ⟨notices, rfl⟩ := hst
  exact h

theorem measuredFrom_of_noted (hst : s.Noted t) (d : Nat) (location : Option Location) :
    t.measuredFrom d location = s.measuredFrom d location := by
  obtain ⟨notices, rfl⟩ := hst
  rfl

theorem LinksOn.of_noted {f : LinkFilter} {d : Nat} {found : Bool} {u : Session} (hst : s.Noted t)
    (h : LinksOn d map f t found u) : LinksOn d map f s found u := by
  have hmeasured := measuredFrom_of_noted hst d f.location
  cases found with
  | true =>
      obtain ⟨ref, c, href, hpicks, hlinked⟩ := h
      refine ⟨ref, c, hmeasured.symm.trans href, hpicks.of_noted hst, ?_⟩
      obtain ⟨notices, rfl⟩ := hst
      exact hlinked
  | false =>
      obtain ⟨hnoted, hnone⟩ := h
      refine ⟨hst.trans hnoted, fun ref c href hkeeps => ?_⟩
      exact hnone ref c (hmeasured.trans href) (hkeeps.of_noted hst.symm)

theorem isPlaced_localCandidates (s : Session) : ∀ c ∈ s.localCandidates, c.IsPlaced := by
  intro c hc
  obtain ⟨e, -, rfl⟩ := List.mem_map.mp hc
  exact ⟨⟨e.body.x, rfl⟩, ⟨e.body.y, rfl⟩⟩

theorem mem_localCandidates_iff (h : map.isInt s.map.id = true) :
    c ∈ s.localCandidates ↔ s.Offered map c := by
  rw [Offered, if_pos h]
  simp only [localCandidates, List.mem_map, List.mem_filter, Bool.not_eq_true', and_assoc,
    @eq_comm Candidate c]

theorem isMapNumber_of_isInt {n : Int} (h : map.isInt n = true) : map.IsMapNumber := by
  refine ⟨Json.toInt_of_isInt h, ?_⟩
  cases map with
  | bool b => exact ⟨_, rfl⟩
  | int m => exact ⟨_, rfl⟩
  | float x => exact ⟨_, rfl⟩
  | null | str | arr | obj => cases h

theorem Charts.isMapNumber (h : s.Charts map) : map.IsMapNumber :=
  h.elim isMapNumber_of_isInt And.left

end Session

namespace Play

open Session

variable {s : Session} {map : Json}

theorem returns_linkMap (selector : Selector) : (linkMap selector).Returns s True fun map? t =>
    map? = s.mapSelected selector ∧ s.Noted t := by
  cases selector with
  | any => exact returns_of_ok rfl ⟨rfl, .refl s⟩
  | number n => exact returns_of_ok rfl ⟨rfl, .refl s⟩
  | truth => exact returns_of_ok rfl ⟨rfl, .refl s⟩
  | name word =>
      refine returns_getBind ?_
      dsimp only
      split
      · exact (returns_note _).then fun _ t hnoted => returns_of_ok rfl ⟨rfl, hnoted⟩
      · exact returns_of_ok rfl ⟨rfl, .refl s⟩

theorem returns_linkReference (d : Nat) (location : Option Location) :
    (linkReference d location).Returns s True fun ref? t =>
      ref? = s.measuredFrom d location ∧ s.Noted t := by
  refine returns_getBind ?_
  cases location with
  | none => exact returns_of_ok rfl ⟨rfl, .refl s⟩
  | some spec =>
      have hread := spec.result_resolve ((s.characterNamed d 0).bind s.poseOf) (s.poseOf .player)
      refine ((returns_reading _).iff (iff_true_intro ⟨_, hread⟩)).mono ?_
      rintro ref? t ⟨hsame, hnoted⟩
      exact ⟨Except.ok.inj (hsame.symm.trans hread), hnoted⟩

/-- **A link looks at the events that are offered**, which stand on tiles. -/
theorem returns_candidates (h : s.Charts map) : (candidates map).Returns s True fun pool? t =>
    s.Noted t ∧ (∀ c, c ∈ pool?.getD [] ↔ s.Offered map c) ∧ ∀ c ∈ pool?.getD [], c.IsPlaced := by
  refine returns_getBind ?_
  split
  · next hlocal =>
      refine returns_of_ok rfl ⟨.refl s, fun c => ?_, s.isPlaced_localCandidates⟩
      exact mem_localCandidates_iff hlocal
  · next hremote =>
      obtain ⟨hmap, file?, hfile, hevents⟩ := h.resolve_left hremote
      obtain ⟨n, hn⟩ := hmap.toInt
      refine returns_getBind (returns_exceptBind hfile ?_)
      cases file? with
      | none =>
          refine (returns_note _).then fun _ t hnoted => returns_of_ok rfl ⟨hnoted, fun c => ?_, nofun⟩
          refine iff_of_false List.not_mem_nil ?_
          rw [Offered, if_neg hremote]
          rintro ⟨_, file, _, -, hsome, -⟩
          rw [hfile] at hsome
          cases hsome
      | some file =>
          obtain ⟨fields, events, rfl, hlist, hplaced⟩ := hevents file rfl
          obtain ⟨pool, hpool, hpoolPlaced⟩ := Candidate.exists_ofEvents n s.stores.origins hplaced
          refine returns_exceptBind rfl ?_
          rw [hlist]
          refine returns_exceptBind (Json.elements_arr events) ?_
          refine returns_exceptBind hn (returns_exceptBind hpool ?_)
          refine returns_of_ok rfl ⟨.refl s, fun c => ?_, hpoolPlaced⟩
          rw [Offered, if_neg hremote]
          refine (Candidate.mem_ofEvents_iff hpool).trans ?_
          constructor
          · rintro ⟨event, hmem, hne, hc⟩
            exact ⟨n, _, event, hn, hfile, ⟨fields, events, rfl, hlist, hmem, hne⟩, hc⟩
          · rintro ⟨m, file, event, hm, hsame, hdescribes, hc⟩
            cases hn.symm.trans hm
            cases hfile.symm.trans hsame
            obtain ⟨fields', events', hfields, hlist', hmem, hne⟩ := hdescribes
            cases hfields
            cases hlist.symm.trans hlist'
            exact ⟨event, hmem, hne, hc⟩

theorem returns_linkTo (d : Nat) (event : Int) {map : Json} (hmap : map.IsMapNumber) :
    (linkTo d event map).Returns s True fun _ t =>
      t = s.updateFrame d fun f => { f with link := { event, map } } := by
  have hset : (modify (updateFrame d fun f => { f with link := { event, map } }) : Play PUnit).Returns s
      True fun _ t => t = s.updateFrame d fun f => { f with link := { event, map } } :=
    returns_of_ok rfl rfl
  obtain ⟨n, hn⟩ := hmap.number
  unfold linkTo
  rw [hn]
  split
  · exact hset.congr rfl
  · exact hset

/-- **A link is set to the event that is picked.** -/
theorem returns_linkAmong (h : s.Charts map) {d : Nat} {f : LinkFilter} {ref : Point}
    (href : s.measuredFrom d f.location = some ref) :
    (linkAmong d map f.event f.note f.limit (some ref)).Returns s True (LinksOn d map f s) := by
  obtain ⟨pool?, t, hpool, hnoted, hmem, hplaced⟩ := (returns_candidates h).ok trivial
  refine returns_bind_of_ok hpool ?_
  cases pool? with
  | none =>
      refine returns_of_ok rfl ⟨hnoted, fun _ c _ hc => ?_⟩
      exact absurd ((hmem c).mpr hc.offered) List.not_mem_nil
  | some pool =>
      obtain ⟨kept, hkept, hpasses⟩ := Candidate.kept_of_placed hplaced f.event f.note (some ref) f.limit
      have hkeeps : ∀ c, c ∈ kept ↔ s.Keeps map f ref c := by
        intro c
        rw [hpasses, hmem]
        constructor
        · rintro ⟨hoffered, hselected, hnote, hnear⟩
          exact ⟨hoffered, hselected, hnote, fun n hn => hnear ref n rfl hn⟩
        · rintro ⟨hoffered, hselected, hnote, hnear⟩
          refine ⟨hoffered, hselected, hnote, ?_⟩
          rintro _ n ⟨⟩ hn
          exact hnear n hn
      refine returns_exceptBind hkept ?_
      by_cases hnone : kept = []
      · subst hnone
        refine returns_exceptBind rfl ((returns_note _).then fun _ u hu => ?_)
        refine returns_of_ok rfl ⟨hnoted.trans hu, fun ref' c href' hc => ?_⟩
        cases href.symm.trans href'
        exact List.not_mem_nil ((hkeeps c).mpr hc)
      · have hkeptPlaced : ∀ c ∈ kept, c.IsPlaced := fun c hc => hplaced c ((hpasses c).mp hc).1
        obtain ⟨c, hc, hnearest, hleast⟩ := Candidate.nearest?_of_placed hkeptPlaced hnone ref
        refine returns_exceptBind hnearest ((returns_linkTo d c.id h.isMapNumber).then ?_)
        rintro _ _ rfl
        refine returns_of_ok rfl ⟨ref, c, href, ⟨(hkeeps c).mp hc, fun other hother => ?_⟩, ?_⟩
        · exact hleast other ((hkeeps other).mpr hother)
        · obtain ⟨notices, rfl⟩ := hnoted
          exact ⟨notices, rfl⟩

/-- **A link on a map is looked for as soon as the query can be read.** -/
theorem returns_linkOn (h : s.Charts map) (d : Nat) (q : LinkQuery) :
    (linkOn d map q).Returns s (∃ f, q.Reads f) fun found t =>
      ∃ f, q.Reads f ∧ LinksOn d map f s found t := by
  refine Returns.iff ?_ q.exists_reads_iff.symm
  refine (returns_except _).bind ?_
  rintro event _ ⟨hevent, rfl⟩
  refine (returns_reading _).bind ?_
  rintro distance t ⟨hdistance, ht⟩
  refine (returns_reading _).first ?_
  rintro location u ⟨hlocation, hu⟩
  have hreads : q.Reads ⟨event, q.wanted, location, distance⟩ := ⟨hevent, rfl, hlocation, hdistance⟩
  refine (returns_linkReference d location).then ?_
  rintro ref? v ⟨href, hv⟩
  have hnoted := (ht.trans hu).trans hv
  rw [← measuredFrom_of_noted hv] at href
  have hlimit : (if location.isSome && distance.isNone then some 0 else distance) =
      LinkFilter.limit ⟨event, q.wanted, location, distance⟩ := by
    cases location with
    | none => rfl
    | some spec => cases distance <;> rfl
  cases ref? with
  | none =>
      -- only a location can fail to name a point
      cases location with
      | none => cases href
      | some spec =>
          refine (returns_note _).then fun _ w hw => ?_
          refine returns_of_ok rfl ⟨_, hreads, hnoted.trans hw, fun ref c href' _ => ?_⟩
          rw [← measuredFrom_of_noted hnoted, ← href] at href'
          cases href'
  | some ref =>
      have hthere : ¬(location.isSome && (some ref).isNone) = true := by simp
      rw [if_neg hthere, hlimit]
      refine (returns_linkAmong (h.of_noted hnoted) href.symm).mono ?_
      exact fun found w hlinks => ⟨_, hreads, hlinks.of_noted hnoted⟩

end Play

end EventLayer
