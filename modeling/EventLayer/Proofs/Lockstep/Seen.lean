/-
**What a session shows of itself.**

A session carries things on which nothing that it does later depends: the notices that were left,
the sounds that were played, how many draws were taken, what the player looks like.  The rest is what
the session shows.  Of that again only a part bears on which pages count and on what waits to be run:
the ground that characters move on.  Most of what a game does writes neither the ground nor the command
lists, and what it writes follows from what the session shows.  A relation between sessions is
faithful if it sees at least what is shown and survives all such writes.

Main definitions:

* `Character.plain`, `Session.seen` — what is shown;
* `MapEvent.paged`, `Session.ground` — what pages and queues rest on;
* `Session.Stays`, `Session.Quiet` — writes that leave the ground;
* `Play.Faithful` — relations that survive such writes.

Main results:

* `Session.quiet_updateCharacter`, `Session.quiet_startWhere` — changing characters and starting
  events is quiet;
* `Play.Faithful.look`, `Play.Faithful.quietly` — **reading and writing keep two runs in lockstep**.
-/
import EventLayer.Proofs.Lockstep
import EventLayer.Proofs.OrderedMap
import EventLayer.Session.Walking

set_option autoImplicit false
set_option relaxedAutoImplicit false

namespace EventLayer

/-! ### What is shown -/

/-- A character without what no later step depends on: its look, its priority, whether its latest
step succeeded, and what it played or showed last. -/
def Character.plain (c : Character) : Character :=
  { c with
    image := {}
    balloon := 0
    priority := normalPriority
    moveSucceeded := true
    lastSound := none
    lastBalloon := none }

/-- The draws that are left, however many were taken. -/
def Draws.rest (d : Draws) : Draws := { d with fractionsTaken := 0, wholesTaken := 0 }

namespace Session

/-- What a session shows of itself.  Of the map's own command list the weight table is left out: it is
built anew with every list. -/
def seen (s : Session) : Session :=
  { s with
    draws := s.draws.rest
    scratch := { s.scratch with balloons := [] }
    audio := []
    player := { s.player with body := s.player.body.plain }
    interpreter := { s.interpreter with root := { s.interpreter.root with table := {} } }
    notices := [] }

end Session

/-! ### The ground -/

/-- What the choice of an event's page rests on. -/
def MapEvent.paged (e : MapEvent) : MapEvent :=
  { id := e.id, map := e.map, pages := e.pages, pageIndex := e.pageIndex, erased := e.erased }

namespace Session

/-- What the pages of the events and the queues of the map rest on; things and gold do not count. -/
def ground (s : Session) : Session where
  game := s.game
  stores :=
    { switchTable := s.stores.switchTable
      variableTable := s.stores.variableTable
      selfSwitches := s.stores.selfSwitches
      selfVariables := s.stores.selfVariables
      party := { members := s.stores.party.members } }
  map :=
    { id := s.map.id
      events := s.map.events.mapValues MapEvent.paged
      needsRefresh := s.map.needsRefresh
      pending := s.map.pending
      commons := s.map.commons }

/-- A session with the same ground, in which the same command lists are being run. -/
structure Stays (s t : Session) : Prop where
  interpreter : t.interpreter = s.interpreter
  ground : t.ground = s.ground

theorem Stays.refl (s : Session) : s.Stays s := ⟨rfl, rfl⟩

theorem Stays.trans {s t u : Session} (h : s.Stays t) (h' : t.Stays u) : s.Stays u :=
  ⟨h'.interpreter.trans h.interpreter, h'.ground.trans h.ground⟩

/-- A write that leaves the ground, and of which what it shows follows from what was shown. -/
structure Quiet (g : Session → Session) : Prop where
  seen : ∀ s : Session, (g s.seen).seen = (g s).seen
  stays : ∀ s : Session, s.Stays (g s)

theorem Quiet.comp {g k : Session → Session} (hg : Quiet g) (hk : Quiet k) :
    Quiet fun s => k (g s) where
  seen := fun s => by rw [← hk.seen, hg.seen, hk.seen]
  stays := fun s => (hg.stays s).trans (hk.stays _)

theorem quiet_id : Quiet fun s => s := ⟨fun _ => rfl, Stays.refl⟩

/-- A write that depends on a test of what is shown. -/
theorem Quiet.ite {c : Session → Bool} {g k : Session → Session}
    (hc : ∀ s : Session, c s.seen = c s) (hg : Quiet g) (hk : Quiet k) :
    Quiet fun s => if c s then g s else k s where
  seen := fun s => by
    rw [hc]
    split
    · exact hg.seen s
    · exact hk.seen s
  stays := fun s => by
    split
    · exact hg.stays s
    · exact hk.stays s

/-! ### Changing events and characters -/

/-- Changing one event within what its page does not rest on leaves the ground. -/
theorem stays_updateEvent {f : MapEvent → MapEvent} (hf : ∀ e, (f e).paged = e.paged) (id : Int)
    (s : Session) : s.Stays (s.updateEvent id f) where
  interpreter := rfl
  ground := by
    have hevents : (s.map.events.modify id f).mapValues MapEvent.paged =
        s.map.events.mapValues MapEvent.paged := OrderedMap.mapValues_modify hf _ _
    simp only [Session.ground, updateEvent, MapState.update, hevents]

theorem quiet_updateEvent {f : MapEvent → MapEvent} (hf : ∀ e, (f e).paged = e.paged) (id : Int) :
    Quiet (updateEvent id f) :=
  ⟨fun _ => rfl, stays_updateEvent hf id⟩

/-- Changing a character, if what it shows afterwards follows from what it showed before. -/
theorem quiet_updateCharacter {f : Character → Character} (who : CharacterId)
    (hf : ∀ c : Character, (f c.plain).plain = (f c).plain) :
    Quiet (updateCharacter who f) := by
  cases who with
  | player =>
      refine ⟨fun s => ?_, fun s => ⟨rfl, rfl⟩⟩
      simp only [updateCharacter, Session.seen, hf]
      rfl
  | event id => exact quiet_updateEvent (f := fun e => { e with body := f e.body }) (fun _ => rfl) id
  | follower place => exact ⟨fun s => rfl, fun s => ⟨rfl, rfl⟩⟩

theorem paged_startIfAny (e : MapEvent) : e.startIfAny.paged = e.paged := by
  unfold MapEvent.startIfAny
  split <;> rfl

/-- Starting events leaves the ground. -/
theorem stays_startWhere (p : MapEvent → Bool) (s : Session) : s.Stays (s.startWhere p) where
  interpreter := rfl
  ground := by
    have hpaged : ∀ e : MapEvent, (if p e then e.startIfAny else e).paged = e.paged := by
      intro e
      split
      · exact paged_startIfAny e
      · rfl
    simp only [Session.ground, startWhere, OrderedMap.mapValues_mapValues, hpaged]

/-- Starting events by a test that looks at what is shown. -/
theorem quiet_startWhere {p : Session → MapEvent → Bool}
    (ht : ∀ s : Session, p s.seen = p s) :
    Quiet fun s => s.startWhere (p s) where
  seen := fun s => by
    rw [ht]
    rfl
  stays := fun s => stays_startWhere (p s) s

end Session

/-! ### Faithful relations -/

namespace Play

open Session

/-- A relation between sessions that sees what is shown, and survives whatever leaves the ground and
the command lists and shows the same in both. -/
structure Faithful (R : Session → Session → Prop) : Prop where
  seen : ∀ {s t : Session}, R s t → s.seen = t.seen
  stays : ∀ {s t s' t' : Session}, R s t → s.Stays s' → t.Stays t' →
    s'.seen = t'.seen → R s' t'

namespace Faithful

variable {α β : Type} {R : Session → Session → Prop} {s t : Session}

/-- A quiet write leaves the relation. -/
theorem write (h : Faithful R) {g : Session → Session} (hg : Quiet g)
    (hst : R s t) : R (g s) (g t) := by
  refine h.stays hst (hg.stays s) (hg.stays t) ?_
  rw [← hg.seen s, h.seen hst, hg.seen t]

theorem reading (h : Faithful R) (r : Reading α) :
    (liftM r : Play α).Lockstep R R R := by
  refine lockstep_reading (fun s t m n hst => ?_) (fun _ _ h => h) r
  exact h.stays hst ⟨rfl, rfl⟩ ⟨rfl, rfl⟩ (h.seen (s := s) (t := t) hst)

theorem quietly (h : Faithful R) {g : Session → Session} (hg : Quiet g) :
    (modify g : Play PUnit).Lockstep R R R :=
  lockstep_modify fun _ _ => h.write hg

theorem note (h : Faithful R) (n : Notice) : (Play.note n).Lockstep R R R :=
  h.quietly ⟨fun _ => rfl, fun _ => ⟨rfl, rfl⟩⟩

/-- A sequence that begins with a look at what is shown. -/
theorem look (h : Faithful R) {f : Session → Play β}
    (hf : ∀ s : Session, f s.seen = f s) (hrest : ∀ s, (f s).Lockstep R R R) :
    (get >>= f : Play β).Lockstep R R R := by
  refine lockstep_getBind (fun s t hst => ?_) hrest
  rw [← hf s, h.seen hst, hf t]

theorem onCharacter (h : Faithful R) {who : CharacterId} {f : Character → Character}
    (hf : ∀ c : Character, (f c.plain).plain = (f c).plain) :
    (Play.onCharacter who f).Lockstep R R R :=
  h.quietly (quiet_updateCharacter who hf)

end Faithful

end Play

end EventLayer
