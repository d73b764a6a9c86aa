/-
**A link that is set is followed.**

A query selects a map and names a point to measure from.  If both are there and an event of the map passes
the filters, the list is linked to the nearest such event, and acts for it from then on; otherwise nothing
changes but the notices.

Main results:

* `Session.resolve_linked` — a list acts for the event that it has been linked to;
* `Play.link_nearest` — **a link is set to the nearest match, or nothing is changed**.
-/
import EventLayer.Proofs.Link.Nearest
import EventLayer.Proofs.Stack
import EventLayer.Proofs.Turns.Queues

set_option autoImplicit false
set_option relaxedAutoImplicit false

namespace EventLayer

theorem LinkQuery.Reads.unique {q : LinkQuery} {f f' : LinkFilter} (h : q.Reads f) (h' : q.Reads f') :
    f = f' := by
  obtain ⟨event, note, location, distance⟩ := f
  obtain ⟨event', note', location', distance'⟩ := f'
  have hevent := Except.ok.inj (h.event.symm.trans h'.event)
  have hnote := h.note.symm.trans h'.note
  have hlocation := Except.ok.inj (h.location.symm.trans h'.location)
  have hdistance := Except.ok.inj (h.distance.symm.trans h'.distance)
  simp_all

namespace Session

variable {s t : Session} {d : Nat} {map : Json} {c : Candidate}

/-- **A list acts for the event that it has been linked to**, if the event and its map have positive
numbers. -/
theorem resolve_linked (hs : Numbered s.map.events) (hd : d ≤ s.interpreter.nested.length)
    (hoffered : s.Offered map c)
    (ht : (s.updateFrame d fun frame => { frame with link := ⟨c.id, map⟩ }).Noted t)
    (hid : 0 < c.id) (hmap : map.isPositive = true) : t.resolve d = ⟨map, c.id⟩ := by
  obtain ⟨notices, rfl⟩ := ht
  have hset : EventLink.isSet ⟨c.id, map⟩ = true := by simp [EventLink.isSet, hid, hmap]
  have hholds : s.linkHolds ⟨c.id, map⟩ = true := by
    unfold linkHolds isLocal
    rw [hset, Bool.true_and]
    cases hlocal : map.isInt s.map.id with
    | false => rfl
    | true =>
        rw [Offered, if_pos hlocal] at hoffered
        obtain ⟨e, he, hstands, rfl⟩ := hoffered
        simp [event?_of_mem hs he, hstands]
  have hframe := Interpreter.frame_modify_self hd fun frame => { frame with link := ⟨c.id, map⟩ }
  rw [resolve, frame]
  dsimp only [updateFrame]
  rw [hframe, resolveFrame]
  exact if_pos hholds

end Session

namespace Play

open Session

variable {s : Session} {d : Nat} {q : LinkQuery} {selector : Selector} {f : LinkFilter}

/-- Where no map is selected, nothing is linked. -/
theorem returns_link_of_unselected (hmap : Selector.read q.map = .ok selector)
    (hnone : s.mapSelected selector = none) :
    (link d q).Returns s True fun found t => found = false ∧ s.Noted t := by
  refine returns_exceptBind hmap ((returns_linkMap selector).then ?_)
  rintro _ t ⟨rfl, hnoted⟩
  rw [hnone]
  exact returns_of_ok rfl ⟨rfl, hnoted⟩

/-- Where a map is selected, the link is looked for there. -/
theorem returns_link_of_selected (hmap : Selector.read q.map = .ok selector) {map : Json}
    (hsome : s.mapSelected selector = some map) (hcharts : s.Charts map) (hreads : q.Reads f) :
    (link d q).Returns s True (LinksOn d map f s) := by
  refine returns_exceptBind hmap ((returns_linkMap selector).then ?_)
  rintro _ t ⟨rfl, hnoted⟩
  rw [hsome]
  have hlinkOn := returns_linkOn (hcharts.of_noted hnoted) d q
  refine (hlinkOn.mono ?_).iff (iff_of_true ⟨f, hreads⟩ trivial)
  rintro found u ⟨f', hreads', hlinks⟩
  obtain rfl := hreads.unique hreads'
  exact hlinks.of_noted hnoted

/-- **A link is set to the nearest match, or nothing is changed.** -/
theorem link_nearest (hs : Numbered s.map.events) (hd : d ≤ s.interpreter.nested.length)
    (hmap : Selector.read q.map = .ok selector) (hreads : q.Reads f)
    (hcharts : ∀ map, s.mapSelected selector = some map → s.Charts map) :
    ∃ found t, link d q s = .ok found t ∧
      (found = true ↔ ∃ map ref c, s.mapSelected selector = some map ∧
        s.measuredFrom d f.location = some ref ∧ s.Keeps map f ref c) ∧
      (found = true → ∃ map ref c, s.mapSelected selector = some map ∧
        s.measuredFrom d f.location = some ref ∧ s.Picks map f ref c ∧
        (s.updateFrame d fun frame => { frame with link := ⟨c.id, map⟩ }).Noted t ∧
        (0 < c.id → map.isPositive = true → t.resolve d = ⟨map, c.id⟩)) ∧
      (found = false → s.Noted t) := by
  cases hsome : s.mapSelected selector with
  | none =>
      obtain ⟨found, t, hlink, rfl, hnoted⟩ := (returns_link_of_unselected (d := d) hmap hsome).ok trivial
      refine ⟨false, t, hlink, ?_, fun hfound => Bool.noConfusion hfound, fun _ => hnoted⟩
      refine iff_of_false Bool.false_ne_true ?_
      rintro ⟨_, _, _, hmap, -⟩
      cases hmap
  | some map =>
      have hlink := returns_link_of_selected (d := d) hmap hsome (hcharts map hsome) hreads
      obtain ⟨found, t, hlink, hlinks⟩ := hlink.ok trivial
      refine ⟨found, t, hlink, ?_⟩
      cases found with
      | true =>
          obtain ⟨ref, c, href, hpicks, hlinked⟩ := hlinks
          have hresolves := resolve_linked hs hd hpicks.offered hlinked
          refine ⟨iff_of_true rfl ⟨map, ref, c, rfl, href, hpicks.toKeeps⟩, fun _ => ?_, ?_⟩
          · exact ⟨map, ref, c, rfl, href, hpicks, hlinked, hresolves⟩
          · exact fun hfound => Bool.noConfusion hfound
      | false =>
          obtain ⟨hkept, hnone⟩ := hlinks
          refine ⟨iff_of_false Bool.false_ne_true ?_, ?_, fun _ => hkept⟩
          · rintro ⟨_, ref, c, ⟨⟩, href, hkeeps⟩
            exact hnone ref c href hkeeps
          · exact fun hfound => Bool.noConfusion hfound

/-! ### A market -/

/-- The entries of a market with two chests. -/
def marketEntries : List Json :=
  [.null, .obj [("id", 1), ("name", "Runner"), ("x", 0), ("y", 0)],
    .obj [("id", 2), ("name", "Chest"), ("x", 5), ("y", 5)],
    .obj [("id", 3), ("name", "Chest"), ("x", 2), ("y", 2)]]

/-- A game in which every map is the market. -/
def marketGame : Game where
  mapFile := fun _ => .ok (some (.obj [("events", .arr marketEntries)]))

/-- A session in the market. -/
def inMarket : Session := (setupMap 1).after (Session.begin marketGame {})

/-- A query for a chest. -/
def chestQuery : LinkQuery where
  event := "Chest"

/-- In the market, a list is linked to the chest that is nearest to the player, and acts for it. -/
theorem link_nearest_inMarket : ∃ t, link 0 chestQuery inMarket = .ok true t ∧ t.resolve 0 = ⟨1, 3⟩ := by
  have hs : Numbered inMarket.map.events :=
    (Session.Course.snoc (.nil _) (.arrive (.setupMap 1 none))).numbered numbered_empty
  have hreads : chestQuery.Reads ⟨.name "Chest", "", none, none⟩ := ⟨rfl, rfl, rfl, rfl⟩
  have hcharts : ∀ map, inMarket.mapSelected .any = some map → inMarket.Charts map := by
    rintro map ⟨⟩
    exact Or.inl (by simp)
  obtain ⟨found, t, hlink, -, hnearest, -⟩ :=
    link_nearest (d := 0) hs (Nat.zero_le _) (rfl : Selector.read chestQuery.map = .ok .any) hreads hcharts
  have hrun : (match link 0 chestQuery inMarket with
      | .ok found t => found && (t.frame 0).link.event == 3
      | .error _ _ => false) = true := by decide +kernel
  rw [hlink] at hrun
  obtain ⟨rfl, hevent⟩ := Bool.and_eq_true_iff.mp hrun
  obtain ⟨map, ref, c, hmap, -, -, ⟨notices, rfl⟩, hresolves⟩ := hnearest rfl
  obtain rfl : Json.int inMarket.map.id = map := Option.some.inj hmap
  have hthird : c.id = 3 := eq_of_beq hevent
  have hmarket : inMarket.map.id = 1 := by decide +kernel
  refine ⟨_, hlink, ?_⟩
  rw [hresolves (by omega) (by rw [hmarket]; rfl), hthird, hmarket]
  rfl

end Play

end EventLayer
