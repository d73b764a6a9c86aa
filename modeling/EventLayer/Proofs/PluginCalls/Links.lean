/-
**Links that a call asks for.**

In a game with sound data a link is looked for as soon as its selectors, its distance and its location can
be read; if its map is selected by a name that no map has, nothing else is read.  The list is linked to an
event that the selector selects, and to none if there is no such event: then the link stays as it was.  A
distance that is no number and a location that is none have no say in the matter, as if they were not
given.

Main definitions:

* `LinkQuery.IsReadable`, `LinkQuery.usable` — queries whose parts can be read, and what of a query can
  be used;
* `Session.Offers` — there is an event that a query selects.

Main results:

* `Play.returns_link` — **when a link is looked for, and what it changes**;
* `Play.agree_link_usable` — **what cannot be used of a query has no say**.
-/
import EventLayer.Proofs.Link.Nearest
import EventLayer.Proofs.Lockstep.Alike
import EventLayer.Proofs.PluginCalls.Places

set_option autoImplicit false
set_option relaxedAutoImplicit false

namespace EventLayer

/-! ### Queries -/

namespace LinkQuery

/-- The map is selected by a name that no map has. -/
def NamesNoMap (g : Game) (q : LinkQuery) : Prop :=
  ∃ word, Selector.read q.map = .ok (.name word) ∧ g.database.mapNamed? word = none

/-- The parts of a query can be read, as far as they are read. -/
def IsReadable (g : Game) (q : LinkQuery) : Prop :=
  ¬Selector.Unreadable q.map ∧ (q.NamesNoMap g ∨
    ¬Selector.Unreadable q.event ∧ ¬q.distance.IsInfinite ∧ ¬Location.Unreadable q.location)

/-- What of a query can be used: a distance that limits nothing and a location that is none are left
out. -/
def usable (q : LinkQuery) : LinkQuery :=
  { q with
    distance := if (readDistance q.distance).result = .ok none then .null else q.distance
    location := if (Location.read q.location).result = .ok none then .null else q.location }

theorem readDistance_usable (q : LinkQuery) :
    (readDistance q.distance).result = (readDistance q.usable.distance).result := by
  unfold usable
  dsimp only
  split
  · next hnone => rw [hnone]; rfl
  · rfl

theorem readLocation_usable (q : LinkQuery) :
    (Location.read q.location).result = (Location.read q.usable.location).result := by
  unfold usable
  dsimp only
  split
  · next hnone => rw [hnone]; rfl
  · rfl

end LinkQuery

namespace Session

/-- On a map there is an event that a query selects. -/
def OffersOn (s : Session) (map : Json) (q : LinkQuery) : Prop :=
  ∃ selector pool t c, Selector.read q.event = .ok selector ∧ Play.candidates map s = .ok (some pool) t ∧
    c ∈ pool ∧ c.selected selector = true ∧ c.noted q.wanted = true

/-- There is an event that a query selects. -/
def Offers (s : Session) (q : LinkQuery) : Prop :=
  ∃ selector map t, Selector.read q.map = .ok selector ∧ Play.linkMap selector s = .ok (some map) t ∧
    s.OffersOn map q

/-- A session in which the list at a depth has been linked anew, if something was found to link it to.
Other than that only notices were left. -/
def Linked (d : Nat) (found : Bool) (s t : Session) : Prop :=
  if found then ∃ link, (s.updateFrame d fun f => { f with link }).Noted t else s.Noted t

theorem Linked.noted {d : Nat} {found : Bool} {s t u : Session} (h : s.Noted t)
    (h' : t.Linked d found u) : s.Linked d found u := by
  obtain ⟨notices, rfl⟩ := h
  cases found with
  | false => exact Noted.trans ⟨notices, rfl⟩ h'
  | true =>
      obtain ⟨link, notices', rfl⟩ := h'
      exact ⟨link, notices', rfl⟩

theorem Noted.alike {s t : Session} (h : s.Noted t) : s.Alike t := by
  obtain ⟨notices, rfl⟩ := h
  exact ⟨rfl, rfl⟩

theorem OffersOn.of_noted {s t : Session} {map : Json} {q : LinkQuery} (hst : s.Noted t)
    (h : t.OffersOn map q) : s.OffersOn map q := by
  obtain ⟨selector, pool, u, c, hselector, hpool, hc⟩ := h
  have halike : t.Alike s := ⟨hst.alike.1.symm, hst.alike.2.symm⟩
  obtain ⟨v, hv, -⟩ := (Play.privy_alike.candidates map).of_ok halike hpool
  exact ⟨selector, pool, v, c, hselector, hv, hc⟩

end Session

/-! ### Looking for a link -/

/-- In a game with sound data the events of every map can be looked at. -/
theorem Game.Sound.charts {g : Game} {s : Session} {map : Json} (hg : g.Sound) (hgame : s.game = g)
    (hmap : map.IsMapNumber) : s.Charts map := by
  obtain ⟨file?, hfile⟩ := hg.lookups map hmap
  refine Or.inr ⟨hmap, file?, hgame ▸ hfile, ?_⟩
  rintro file rfl
  exact hg.files map file hfile

/-- A map that is selected has a number. -/
theorem Game.Sound.isMapNumber_of_mapSelected {g : Game} {s : Session} {selector : Selector} {map : Json}
    (hg : g.Sound) (hgame : s.game = g) (h : s.mapSelected selector = some map) : map.IsMapNumber := by
  cases selector with
  | any =>
      cases h
      exact Json.isMapNumber_int _
  | number n =>
      cases h
      exact Json.isMapNumber_int n
  | truth =>
      cases h
      exact Json.isMapNumber_true
  | name word => exact hg.maps word map (hgame ▸ h)

namespace Session

theorem mapSelected_eq_none_iff {s : Session} {q : LinkQuery} {selector : Selector}
    (hselector : Selector.read q.map = .ok selector) :
    s.mapSelected selector = none ↔ q.NamesNoMap s.game := by
  constructor
  · intro hnone
    cases selector with
    | name word => exact ⟨word, hselector, hnone⟩
    | any | number | truth => cases hnone
  · rintro ⟨word, hword, hnone⟩
    cases hselector.symm.trans hword
    exact hnone

/-- What was linked on a map was found among the events there. -/
theorem linked_of_linksOn {s t : Session} {d : Nat} {map : Json} {q : LinkQuery} {f : LinkFilter}
    {found : Bool} (hcharts : s.Charts map) (hreads : q.Reads f) (h : LinksOn d map f s found t) :
    Linked d found s t ∧ (found = true → s.OffersOn map q) := by
  cases found with
  | false => exact ⟨h.1, nofun⟩
  | true =>
      obtain ⟨ref, c, -, hpicks, hlinked⟩ := h
      refine ⟨⟨_, hlinked⟩, fun _ => ?_⟩
      obtain ⟨pool?, u, hpool, -, hmem, -⟩ := (Play.returns_candidates hcharts).ok trivial
      have hc := (hmem c).mpr hpicks.offered
      cases pool? with
      | none => cases hc
      | some pool =>
          exact ⟨f.event, pool, u, c, hreads.event, hpool, hc, hpicks.selected, hreads.note ▸ hpicks.noted⟩

end Session

namespace Play

open Session

variable {g : Game} {s : Session}

theorem exists_reads_iff_readable (q : LinkQuery) : (∃ f, q.Reads f) ↔
    ¬Selector.Unreadable q.event ∧ ¬q.distance.IsInfinite ∧ ¬Location.Unreadable q.location := by
  rw [q.exists_reads_iff, Selector.exists_read_iff, exists_readDistance_iff, Location.exists_read_iff]

/-- **A link is looked for as soon as the query can be read.**  It is set to an event that the query
selects; if there is none it stays as it was. -/
theorem returns_link (hg : g.Sound) (hgame : s.game = g) (d : Nat) (q : LinkQuery) :
    (link d q).Returns s (q.IsReadable g) fun found t =>
      Linked d found s t ∧ (found = true → s.Offers q) := by
  refine ((returns_except _).iff (Selector.exists_read_iff q.map)).bind ?_
  rintro selector t ⟨hselector, rfl⟩
  obtain ⟨map?, u, hmap?, hselected, hnoted⟩ := (returns_linkMap (s := t) selector).ok trivial
  have hnone := mapSelected_eq_none_iff (s := t) hselector
  rw [← hselected, hgame] at hnone
  refine returns_bind_of_ok hmap? ?_
  cases map? with
  | none =>
      refine Returns.iff ?_ (iff_of_true trivial (Or.inl (hnone.mp rfl)))
      exact returns_of_ok rfl ⟨hnoted, nofun⟩
  | some map =>
      have hnamed : ¬q.NamesNoMap g := fun hno => nomatch hnone.mpr hno
      have hcharts : t.Charts map := hg.charts hgame (hg.isMapNumber_of_mapSelected hgame hselected.symm)
      refine ((returns_linkOn (hcharts.of_noted hnoted) d q).mono ?_).iff ?_
      · rintro found v ⟨f, hreads, hlinks⟩
        obtain ⟨hlinked, hoffers⟩ := linked_of_linksOn hcharts hreads (hlinks.of_noted hnoted)
        exact ⟨hlinked, fun hfound => ⟨selector, map, u, hselector, hmap?, hoffers hfound⟩⟩
      · rw [exists_reads_iff_readable]
        exact ⟨Or.inr, fun h => h.resolve_left hnamed⟩

/-! ### What can be used of a query -/

/-- Two pieces of data that are read as the same. -/
theorem agree_reading {α : Type} {r r' : Reading α} {t : Session} (hsame : r.result = r'.result)
    (hst : s.Alike t) : Agree Alike Alike ((liftM r : Play α) s) ((liftM r' : Play α) t) := by
  have halike : Alike { s with notices := s.notices ++ r.notices }
      { t with notices := t.notices ++ r'.notices } := hst
  change Agree Alike Alike (ofReading r s) (ofReading r' t)
  unfold ofReading
  rw [hsame]
  cases r'.result with
  | ok a => exact .ok halike
  | error e => exact .error halike

/-- **What cannot be used of a query has no say.** -/
theorem agree_link_usable (d : Nat) (q : LinkQuery) (s : Session) :
    Agree Alike Alike (link d q s) (link d q.usable s) := by
  have hrefl : s.Alike s := ⟨rfl, rfl⟩
  refine Agree.bind (lockstep_lift _ s s hrefl) fun selector s t hst => ?_
  refine Agree.bind (privy_alike.linkMap selector s t hst) fun map? s t hst => ?_
  cases map? with
  | none => exact lockstep_value false s t hst
  | some map =>
      refine Agree.bind (lockstep_lift _ s t hst) fun selector s t hst => ?_
      refine Agree.bind (agree_reading q.readDistance_usable hst) fun limit s t hst => ?_
      refine Agree.bind (agree_reading q.readLocation_usable hst) fun location s t hst => ?_
      refine Agree.bind (privy_alike.linkReference d location s t hst) fun reference s t hst => ?_
      have hrest := privy_alike.linkAmong d map selector q.wanted
        (if location.isSome && limit.isNone then some 0 else limit) reference
      exact ((privy_alike.note _).bind fun _ => lockstep_value false).ite hrest s t hst

end Play

end EventLayer
