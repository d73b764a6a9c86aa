/-
**What a load forgets.**

A load replaces the stores, drops what is not saved, sets up the map anew and puts the party in its
place.  Of the session before it, three things remain that later frames can tell: what was queued for
the setup of earlier maps, what the player takes along — the route it is going through, its waiting,
and whether it has just moved or goes through obstacles — and the direction it faces, if the save
names none.  A request for a refresh remains too, but it has no effect, since all pages are due.  Two
sessions that agree in what remains are alike after the load, and stay so from frame to frame.

Main definitions:

* `Save.namesMap`, `Save.direction` — what a save says about the place of the party;
* `Session.loaded` — a session from what a save holds;
* `Character.gait` — what a character takes along when it is put elsewhere;
* `Session.RemainsAlike` — two sessions that agree in what remains;
* `Session.SameGame` — two sessions in which a game has come to the same point.

Main results:

* `Play.load_eq_ok` — **what a load comes to**;
* `Play.advance_calm` — a request for a refresh has no effect on pages that are due;
* `Play.load_forgets` — **after a load two sessions that agree in what remains run alike**.
-/
import EventLayer.Proofs.Map.SetupQueue
import EventLayer.Proofs.Saving.Tidy

set_option autoImplicit false
set_option relaxedAutoImplicit false

namespace EventLayer

/-! ### What a save says -/

namespace Save

/-- The block of a save that says where the party is. -/
def position (save : Json) : Except Fault Json := (save.orElse (.obj [])).fieldD "map" .null

/-- Whether the save names a map. -/
def namesMap (save : Json) : Bool :=
  match (do (← position save).fieldD "mapId" .null : Except Fault Json) with
  | .ok map => map.truthy
  | .error _ => false

/-- The direction that the party faces in the save. -/
def direction (save : Json) : Except Fault Int := do
  Play.savedNumber (← position save) "direction" Direction.down

/-- A place where a save puts the party. -/
structure Place where
  map : Int
  point : Point
  direction : Int

/-- The place where a save puts the party. -/
def place (save : Json) : Except Fault Place := do
  let p ← position save
  let map ← (← p.fieldD "mapId" .null).toInt
  let x ← Play.savedNumber p "x" 0
  let y ← Play.savedNumber p "y" 0
  let d ← direction save
  return ⟨map, ⟨x, y⟩, d⟩

theorem direction_of_place {save : Json} {p : Place} (h : place save = .ok p) :
    direction save = .ok p.direction := by
  obtain ⟨_, -, h⟩ := Except.bind_eq_ok h
  obtain ⟨_, -, h⟩ := Except.bind_eq_ok h
  obtain ⟨_, -, h⟩ := Except.bind_eq_ok h
  obtain ⟨_, -, h⟩ := Except.bind_eq_ok h
  obtain ⟨_, -, h⟩ := Except.bind_eq_ok h
  obtain ⟨d, hd, h⟩ := Except.bind_eq_ok h
  cases h
  exact hd

theorem exists_of_namesMap {save : Json} (h : namesMap save = true) :
    ∃ p map, position save = .ok p ∧ p.truthy = true ∧ p.fieldD "mapId" .null = .ok map ∧
      map.truthy = true := by
  unfold namesMap at h
  split at h
  · next map hmap =>
      obtain ⟨p, hp, hmap⟩ := Except.bind_eq_ok hmap
      refine ⟨p, map, hp, ?_, hmap, h⟩
      cases p with
      | obj fields =>
          cases fields with
          | nil =>
              cases hmap
              cases h
          | cons field rest => rfl
      | _ => cases hmap
  · cases h

end Save

/-! ### The stores of a load -/

theorem ScopedTable.read_congr {t t' : ScopedTable} (h : t.selfIds = t'.selfIds) :
    t.read = t'.read := by
  funext data
  rw [read, read, h]

/-- The stores that a save gives depend on the old ones in the numbers that are self-scoped only. -/
theorem Stores.ofSave_congr {s t : Stores} (h : s.IsLike t) (save : Json) (config : Config) :
    ofSave save config s = ofSave save config t := by
  rw [ofSave, ofSave, ScopedTable.read_congr h.switchTable, ScopedTable.read_congr h.variableTable]

/-! ### What a load comes to -/

namespace Session

/-- A session from what a save holds: its stores, its map, and the place of the party in a region. -/
def loaded (stores : Stores) (m : MapState) (commons : List CommonEvent) (place : Save.Place)
    (region : Int) (s : Session) : Session :=
  let s := ({ s with stores, scratch := {} } : Session).refreshFollowers.onMap m commons
  let s := s.placeParty place.point place.direction
  { s with player.lastRegion := region }

end Session

theorem Character.point_placed (c : Character) (p : Point) (d : Int) :
    ((c.locate p).face d).point = p := by
  unfold Character.face
  split <;> rfl

namespace Play

open Session

variable {g : Game} {s t s' t' : Session} {save : Json}

/-- A transfer within a map puts the party in its place, and its region counts as seen. -/
theorem transfer_within {id : Int} {p : Point} {d : Int} (hid : s.map.id = id)
    (h : transfer id p d s = .ok () t) : ∃ region, s.map.region p = .ok region ∧
      t = { s.placeParty p d with player.lastRegion := region } := by
  rw [transfer, get_bind_apply, if_neg (fun hne => hne hid)] at h
  obtain ⟨_, placed, hplaced, h⟩ := bind_eq_ok h
  cases hplaced
  obtain ⟨region, u, hu, h⟩ := bind_eq_ok h
  obtain rfl := playerRegion_eq_ok hu
  cases h
  rw [playerRegion, get_bind_apply] at hu
  have hpoint : (s.placeParty p d).player.body.point = p := Character.point_placed _ p d
  rw [hpoint] at hu
  cases hr : s.map.region p with
  | error e =>
      have hfault : (s.placeParty p d).map.region p = .error e := hr
      rw [hfault] at hu
      cases hu
  | ok r =>
      have hread : (s.placeParty p d).map.region p = .ok r := hr
      rw [hread] at hu
      cases hu
      exact ⟨_, rfl, rfl⟩

/-- **What a load comes to**, if the save names a map. -/
theorem load_eq_ok (hs : Reachable g s) (hmap : Save.namesMap save = true)
    (h : load save s = .ok () t) :
    ∃ stores m commons place region notices,
      (Stores.ofSave (save.orElse (.obj [])) g.config (Stores.fresh g)).result = .ok stores ∧
      Save.place save = .ok place ∧ g.mapOf stores place.map none = .ok m ∧
      (readCommons g.database g.database.commonEventIds).result = .ok commons ∧
      m.region place.point = .ok region ∧
      t = { s.loaded stores m commons place region with notices } := by
  obtain ⟨p, id?, hp, hgiven, hid?, hid⟩ := Save.exists_of_namesMap hmap
  rw [load, get_bind_apply] at h
  obtain ⟨stores, hstores, h⟩ := reading_bind_eq_ok h
  rw [modify_bind_apply, modify_bind_apply] at h
  obtain ⟨position, hposition, h⟩ := except_bind_eq_ok h
  obtain rfl : p = position := Except.ok.inj (hp.symm.trans hposition)
  rw [loadPosition, if_neg (by simp [hgiven])] at h
  obtain ⟨map, hfield, h⟩ := except_bind_eq_ok h
  obtain rfl : id? = map := Except.ok.inj (hid?.symm.trans hfield)
  rw [if_neg (by simp [hid])] at h
  obtain ⟨id, hnumber, h⟩ := except_bind_eq_ok h
  obtain ⟨_, u, hu, h⟩ := bind_eq_ok h
  obtain ⟨x, hx, h⟩ := except_bind_eq_ok h
  obtain ⟨y, hy, h⟩ := except_bind_eq_ok h
  obtain ⟨d, hd, h⟩ := except_bind_eq_ok h
  obtain ⟨id', hnumber', h⟩ := except_bind_eq_ok h
  obtain rfl : id = id' := Except.ok.inj (hnumber.symm.trans hnumber')
  have hsetup := fun hknows => setupMap_eq_ok (g := g) hknows hu
  obtain ⟨m, commons, notices, hm, hcommons, rfl⟩ := hsetup hs.knowsCommons
  obtain ⟨hsame, -⟩ := mapOf_eq_ok hm
  obtain ⟨region, hregion, rfl⟩ := transfer_within hsame h
  have hplace : Save.place save = .ok ⟨id, ⟨x, y⟩, d⟩ := by
    rw [Save.place, hp, Except.ok_bind, hid?, Except.ok_bind, hnumber, Except.ok_bind, hx,
      Except.ok_bind, hy, Except.ok_bind, Save.direction, hp, Except.ok_bind, hd]
    rfl
  have hfresh : (Stores.ofSave (save.orElse (.obj [])) g.config (Stores.fresh g)).result =
      .ok stores := by
    rw [← Stores.ofSave_congr hs.isTidy.2.1.like, ← hs.isTidy.1]
    exact hstores
  exact ⟨stores, m, commons, _, region, notices, hfresh, hplace, hm, hcommons, hregion, rfl⟩

end Play

/-! ### Requests for a refresh -/

namespace Session

/-- A session in which no refresh is asked for. -/
def calm (s : Session) : Session := { s with map.needsRefresh := false }

end Session

namespace Play

open Session

variable {s : Session}

/-- **A request for a refresh has no effect on pages that are due.** -/
theorem advance_calm (h : s.ShowsDuePages) : advance s = advance s.calm := by
  have hasked : refreshIfAsked s = .ok () s.calm := refreshIfAsked_of_shows h
  have hcalm : refreshIfAsked s.calm = .ok () s.calm := refreshIfAsked_of_shows (s := s.calm) h
  have hmap : advanceMap s = advanceMap s.calm := by
    rw [advanceMap_eq, bind_of_ok hasked, bind_of_ok hcalm]
  exact bind_apply_congr hmap _

end Play

theorem Session.later_calm {s : Session} (h : s.ShowsDuePages) (n : Nat) :
    s.later (n + 1) = s.calm.later (n + 1) := by
  rw [later, later, Play.after, Play.after, Play.advance_calm h]

/-! ### What remains -/

namespace Character

/-- What a character takes along when it is put elsewhere: its route, its waiting, whether it has just
moved and whether it goes through obstacles. -/
def gait (c : Character) : Character := { c.plain with x := 0, y := 0, direction := 0 }

variable {b c : Character}

/-- Characters of the same gait show the same once they are put on one tile, facing one direction. -/
theorem plain_placed (h : b.gait = c.gait) (p : Point) {d : Int}
    (hd : b.direction = c.direction ∨ d ≠ 0) :
    ((b.locate p).face d).plain = ((c.locate p).face d).plain := by
  have hturned : ∀ e : Int, { (b.locate p).plain with direction := e } =
      { (c.locate p).plain with direction := e } := fun e =>
    congrArg (fun k : Character => { k with x := p.x, y := p.y, direction := e }) h
  unfold face
  split
  · next hzero =>
      have hsame : b.direction = c.direction := hd.resolve_right fun hne => hne hzero
      calc (b.locate p).plain
          = { (b.locate p).plain with direction := b.direction } := rfl
        _ = { (c.locate p).plain with direction := b.direction } := hturned b.direction
        _ = (c.locate p).plain := by rw [hsame]; rfl
  · exact hturned d

/-- A follower that is put on a tile, facing a direction, stands as if it never stood elsewhere. -/
theorem face_follower (p q : Point) (e : Int) {d : Int} (hd : d ≠ 0) :
    (((({ through := true } : Character).locate q).face e).locate p).face d =
      (({ through := true } : Character).locate p).face d := by
  unfold face
  rw [if_neg hd, if_neg hd]
  split <;> rfl

theorem direction_placed (c : Character) (p : Point) {d : Int} (hd : c.direction ≠ 0) :
    ((c.locate p).face d).direction ≠ 0 := face_direction_ne_zero (c := c.locate p) hd d

end Character

namespace Session

/-- Two sessions agree in what remains after a load that faces the player in a direction, and in what
a load does not touch: the draws that are left, whether followers are seen, and for whom switches and
variables are read. -/
structure RemainsAlike (d : Int) (s t : Session) : Prop where
  draws : s.draws.rest = t.draws.rest
  visible : s.followersVisible = t.followersVisible
  scopes : s.scopes = t.scopes
  active : s.active = t.active
  /-- The same lists of earlier maps are queued. -/
  pending : s.map.pending = t.map.pending
  /-- The players go through the same route, wait as long, and have both moved or not. -/
  gait : s.player.body.gait = t.player.body.gait
  /-- The players face the same direction, or the one that the save names. -/
  direction : s.player.body.direction = t.player.body.direction ∨ d ≠ 0

/-- Two sessions in which a game has come to the same point. -/
structure SameGame (s t : Session) : Prop where
  stores : s.stores = t.stores
  player : s.player.body.pose = t.player.body.pose
  followers : s.player.followers.map Character.pose = t.player.followers.map Character.pose
  events : s.map.eventList.map (fun e => (e.id, e.body.pose, e.pageIndex)) =
    t.map.eventList.map fun e => (e.id, e.body.pose, e.pageIndex)
  messages : s.scratch.messages = t.scratch.messages
  reserved : s.scratch.reserved = t.scratch.reserved

theorem sameGame_of_seen {s t : Session} (h : s.calm.seen = t.calm.seen) : s.SameGame t := by
  have hat : ∀ {β : Type} (f : Session → β), f s.calm.seen = f t.calm.seen := fun f => congrArg f h
  exact
    { stores := hat (·.stores)
      player := hat (·.player.body.pose)
      followers := hat (·.player.followers.map Character.pose)
      events := hat (·.map.eventList.map fun e => (e.id, e.body.pose, e.pageIndex))
      messages := hat (·.scratch.messages)
      reserved := hat (·.scratch.reserved) }

/-- The leader as it arrives at the place of a save. -/
def leaderAt (place : Save.Place) (s : Session) : Character :=
  ((s.player.body.locate place.point).face place.direction).plain

variable {stores : Stores} {m : MapState} {commons : List CommonEvent} {place : Save.Place}
  {region : Int}

/-- What a session shows after a load, when no refresh is asked for. -/
theorem seen_loaded (s : Session) (notices : List Notice) (hd : (s.leaderAt place).direction ≠ 0) :
    ({ s.loaded stores m commons place region with notices } : Session).calm.seen =
      { game := s.game
        draws := s.draws.rest
        stores := stores
        followersVisible := s.followersVisible
        map := { m with
          needsRefresh := false
          pending := s.map.pending ++ (m.setupLists ++ s.game.database.setupListsOf commons)
          commons := some commons }
        player :=
          { body := s.leaderAt place
            followers := List.replicate (stores.party.members.length - 1)
              ((({ through := true } : Character).locate place.point).face (s.leaderAt place).direction)
            lastRegion := region }
        scopes := s.scopes
        active := s.active } := by
  have hfollowers : (s.loaded stores m commons place region).player.followers =
      List.replicate (stores.party.members.length - 1)
        ((({ through := true } : Character).locate place.point).face (s.leaderAt place).direction) := by
    refine (List.map_replicate ..).trans ?_
    exact congrArg _ (Character.face_follower place.point s.player.body.point _ hd)
  rw [← hfollowers]
  rfl

theorem showsDuePages_loaded {g : Game} {s : Session} {notices : List Notice} (hgame : s.game = g)
    (hm : g.mapOf stores place.map none = .ok m) :
    ({ s.loaded stores m commons place region with notices } : Session).ShowsDuePages := by
  have hdue := (Play.mapOf_eq_ok hm).2
  rw [← hgame] at hdue
  exact hdue

/-- **Two sessions that agree in what remains show the same after a load.** -/
theorem RemainsAlike.seen_loaded {s t : Session} (h : RemainsAlike place.direction s t)
    (hgame : s.game = t.game) (hs : s.player.body.direction ≠ 0) (ht : t.player.body.direction ≠ 0)
    (n n' : List Notice) :
    ({ s.loaded stores m commons place region with notices := n } : Session).calm.seen =
      ({ t.loaded stores m commons place region with notices := n' } : Session).calm.seen := by
  have hleader : s.leaderAt place = t.leaderAt place :=
    Character.plain_placed h.gait place.point h.direction
  rw [Session.seen_loaded s n (Character.direction_placed _ _ hs),
    Session.seen_loaded t n' (Character.direction_placed _ _ ht), hleader, hgame, h.draws, h.visible,
    h.pending, h.scopes, h.active]

end Session

namespace Play

open Session

variable {g : Game} {s t s' t' : Session} {save : Json}

/-- **After a load two sessions that agree in what remains run alike.**  Frame by frame the game comes
to the same point in both, and a frame fails in both or in neither. -/
theorem load_forgets (hs : Reachable g s) (ht : Reachable g t) (hmap : Save.namesMap save = true)
    (hremains : ∀ d, Save.direction save = .ok d → RemainsAlike d s t)
    (hs' : load save s = .ok () s') (ht' : load save t = .ok () t') (n : Nat) :
    (s'.later n).SameGame (t'.later n) ∧
      advance.succeeds (s'.later n) = advance.succeeds (t'.later n) := by
  obtain ⟨stores, m, commons, place, region, k, hstores, hplace, hm, hcommons, hregion, hloaded⟩ :=
    load_eq_ok hs hmap hs'
  obtain ⟨stores', m', commons', place', region', k', hstores', hplace', hm', hcommons', hregion',
    hloaded'⟩ := load_eq_ok ht hmap ht'
  obtain rfl := Except.ok.inj (hstores.symm.trans hstores')
  obtain rfl := Except.ok.inj (hplace.symm.trans hplace')
  obtain rfl := Except.ok.inj (hm.symm.trans hm')
  obtain rfl := Except.ok.inj (hcommons.symm.trans hcommons')
  obtain rfl := Except.ok.inj (hregion.symm.trans hregion')
  have hgame : s.game = t.game := hs.isTidy.1.trans ht.isTidy.1.symm
  have hseen : s'.calm.seen = t'.calm.seen := by
    rw [hloaded, hloaded']
    have hsame := hremains _ (Save.direction_of_place hplace)
    exact hsame.seen_loaded hgame hs.isTidy.2.2 ht.isTidy.2.2 k k'
  have halike : s'.calm.AlikeOutside t'.calm := by
    refine ⟨hseen, fun hr => ?_⟩
    rw [hloaded] at hr
    cases hr
  have hshows : s'.ShowsDuePages := by
    rw [hloaded]
    exact showsDuePages_loaded hs.isTidy.1 hm
  have hshows' : t'.ShowsDuePages := by
    rw [hloaded']
    exact showsDuePages_loaded ht.isTidy.1 hm
  cases n with
  | zero =>
      have hfirst := framed_alikeOutside.advance.succeeds halike
      have hcalm : ∀ {u : Session}, u.ShowsDuePages → advance.succeeds u = advance.succeeds u.calm :=
        fun hu => by rw [succeeds, succeeds, advance_calm hu]
      exact ⟨sameGame_of_seen hseen, (hcalm hshows).trans (hfirst.trans (hcalm hshows').symm)⟩
  | succ n =>
      have hlater := halike.later (n + 1)
      rw [later_calm hshows, later_calm hshows']
      exact ⟨sameGame_of_seen (congrArg calm hlater.1), framed_alikeOutside.advance.succeeds hlater⟩

/-! ### Two histories -/

/-- A game whose first map has an event that turns a switch on when the map is set up, and whose other
maps are bare. -/
def switchedGame : Game where
  mapFile := fun map =>
    let turnOn : Json := .obj [("code", 121), ("indent", 0), ("parameters", .arr [1, 1, 0])]
    let page : Json := .obj [("trigger", 7), ("list", .arr [turnOn])]
    let event : Json := .obj [("id", 1), ("pages", .arr [page])]
    .ok (some (if map.isInt 1 then .obj [("events", .arr [.null, event])] else .obj []))

/-- The game before anything has happened. -/
def untouched : Session := Session.begin switchedGame {}

/-- The game in which only a switch was turned on. -/
def switchedOn : Session := (modify (Session.setSwitch 3 true) : Play PUnit).after untouched

/-- The game on its first map, before a frame has passed. -/
def justSetUp : Session := (setupMap 1).after untouched

/-- A save of the game on its second map. -/
def secondMapSave : Json := .obj [("map", .obj [("mapId", 2)])]

/-- What was written to the stores before a load is forgotten, also a frame later. -/
theorem load_forgets_switchedOn :
    ((load secondMapSave).after untouched |>.later 1).SameGame
      ((load secondMapSave).after switchedOn |>.later 1) := by
  have hs : (load secondMapSave).succeeds untouched = true := by decide +kernel
  have ht : (load secondMapSave).succeeds switchedOn = true := by decide +kernel
  have hremains : ∀ d, RemainsAlike d untouched switchedOn := fun d =>
    ⟨rfl, rfl, rfl, rfl, rfl, rfl, Or.inl rfl⟩
  exact (load_forgets (.begin {}) (.after (.begin {}) (.setSwitch 3 true)) (by decide +kernel)
    (fun d _ => hremains d) (eq_ok_of_succeeds hs) (eq_ok_of_succeeds ht) 1).1

/-- A list that an earlier map has queued is not forgotten: after the load and a frame a switch is on
in one session only. -/
theorem not_sameGame_justSetUp : Reachable switchedGame untouched ∧ Reachable switchedGame justSetUp ∧
    untouched.draws.rest = justSetUp.draws.rest ∧
    untouched.followersVisible = justSetUp.followersVisible ∧
    ∃ s' t', load secondMapSave untouched = .ok () s' ∧ load secondMapSave justSetUp = .ok () t' ∧
      ¬(s'.later 1).SameGame (t'.later 1) := by
  have hs : (load secondMapSave).succeeds untouched = true := by decide +kernel
  have ht : (load secondMapSave).succeeds justSetUp = true := by decide +kernel
  refine ⟨.begin {}, .after (.begin {}) (.setupMap 1 none), rfl, by decide +kernel, _, _,
    eq_ok_of_succeeds hs, eq_ok_of_succeeds ht, fun h => ?_⟩
  have hswitch := congrArg (fun stores : Stores => stores.switchFor ⟨.int 0, 0⟩ (some 1)) h.stores
  exact absurd hswitch (by decide +kernel)

end Play

end EventLayer
