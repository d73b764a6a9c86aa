/-
**Watching the regions that the player comes to.**

An operation that looks at the player's region is written once more, line by line, as a watched one: where
the original starts to deal with an arrival, has looked at the region, lets the player enter one, or has come
to the end of a transfer, it takes a note together with the session at that point.  But for the notes it
does the same as the original, also where that fails.  In one step little can be noted: an arrival that is
looked into takes at most three notes, and the last of them, that a region is entered, only where the region
differs from the recorded one.

Main definitions:

* `Occasion`, `Sighting` — what is noted, and the session in which it is;
* `Watched` — operations that take notes; `Watched.play` makes one of an operation that has nothing to note;
* `Watched.Shows` — a watched operation does the same as an original;
* `Watched.Hosts` — what a host can do, watched;
* `Watched.Marks` — what is noted in one step, with the regions that are recorded before and after it.

Main results:

* `Watched.Hosts.shows` — **but for its notes a watched operation does the same**;
* `Watched.exists_hosts` — everything that a host can do is watched, unless it enters a region itself;
* `Watched.Hosts.isStep` — **whatever a host does is one step**.
-/
import EventLayer.Proofs.Map.RegionEntry
import EventLayer.Proofs.Regions.Record

set_option autoImplicit false
set_option relaxedAutoImplicit false

namespace EventLayer

/-- What can be noted of the regions that the player comes to. -/
inductive Occasion where
  /-- The player has arrived on a tile, and this is looked into. -/
  | arrived
  /-- The region of the player's tile has been looked at. -/
  | checked
  /-- A region is entered: what it starts is to be started. -/
  | entered (region : Int)
  /-- A transfer has come to its end. -/
  | transferred
deriving DecidableEq, Repr

/-- Something that was noted, and the session in which it was. -/
structure Sighting where
  occasion : Occasion
  session : Session

/-- An operation that takes notes. -/
abbrev Watched (α : Type) : Type := EStateM Fault (Session × List Sighting) α

namespace Watched

variable {α β : Type}

/-- An operation with nothing to note. -/
def play (act : Play α) : Watched α := fun p =>
  match act p.1 with
  | .ok a t => .ok a (t, p.2)
  | .error e t => .error e (t, p.2)

/-- Take a note. -/
def note (what : Occasion) : Watched Unit := modify fun p => (p.1, p.2 ++ [⟨what, p.1⟩])

/-! ### Watched operations -/

def regionChanged : Watched Bool := do
  let changed ← play Play.regionChanged
  note .checked
  return changed

def enterRegion (region : Int) : Watched Unit := do
  note (.entered region)
  play (Play.enterRegion (some region))

def arrive : Watched Unit := do
  if (← play get).isEventRunning then return
  note .arrived
  play Play.touchHere
  play Play.touchFollowers
  if ← regionChanged then enterRegion (← play get).player.lastRegion

def advancePlayer : Watched Unit := do
  if (← play get).player.body.forcing then play (Play.walk .player)
  if ← play (liftM (Act.takeMoved .player)) then arrive

def advance : Watched Unit := do
  play Play.advanceMap
  advancePlayer

def transfer (map : Int) (p : Point) (d : Int) : Watched Unit := do
  play (Play.transfer map p d)
  note .transferred

def newGame (map : Int) (p : Point) (members : List Json) : Watched Unit := do
  play (modify fun s =>
    { s with
      stores := { Stores.fresh s.game with
        party := { members := if members.isEmpty then [.int 1] else members } }
      scratch := {} })
  play (modify Session.refreshFollowers)
  play (Play.setupMap map)
  transfer map p 0

def loadPosition (position : Json) : Watched Unit := do
  if !position.truthy then return
  let map ← play (liftM (position.fieldD "mapId" .null))
  if !map.truthy then return
  play (Play.setupMap (← play (liftM map.toInt)))
  let x ← play (liftM (Play.savedNumber position "x" 0))
  let y ← play (liftM (Play.savedNumber position "y" 0))
  let d ← play (liftM (Play.savedNumber position "direction" Direction.down))
  transfer (← play (liftM map.toInt)) ⟨x, y⟩ d

def load (save : Json) : Watched Unit := do
  let save := save.orElse (.obj [])
  let s ← play get
  let stores ← play (liftM (Stores.ofSave save s.game.config s.stores))
  play (modify fun s => { s with stores, scratch := {} })
  play (modify Session.refreshFollowers)
  loadPosition (← play (liftM (save.fieldD "map" .null)))

/-! ### Operations applied to a session and its notes -/

variable {s t : Session} {l : List Sighting}

/-- The session that an operation leaves, and the notes. -/
def after (w : Watched α) (p : Session × List Sighting) : Session × List Sighting :=
  match w p with
  | .ok _ q => q
  | .error _ q => q

theorem bind_apply (w : Watched α) (f : α → Watched β) (p : Session × List Sighting) :
    (w >>= f) p = match w p with
      | .ok a q => f a q
      | .error e q => .error e q := by
  change EStateM.bind w f p = _
  unfold EStateM.bind
  cases w p <;> rfl

theorem play_of_ok {act : Play α} {a : α} (h : act s = .ok a t) : play act (s, l) = .ok a (t, l) := by
  rw [play, h]

theorem play_of_error {act : Play α} {e : Fault} (h : act s = .error e t) :
    play act (s, l) = .error e (t, l) := by
  rw [play, h]

theorem after_play (act : Play α) : (play act).after (s, l) = (act.after s, l) := by
  unfold after play Play.after
  cases act s <;> rfl

/-! ### What is shown -/

/-- An outcome without the notes. -/
def forget : EStateM.Result Fault (Session × List Sighting) α → EStateM.Result Fault Session α
  | .ok a p => .ok a p.1
  | .error e p => .error e p.1

/-- But for its notes a watched operation does the same as another one. -/
def Shows (w : Watched α) (act : Play α) : Prop := ∀ p, forget (w p) = act p.1

namespace Shows

variable {w : Watched α} {act : Play α}

theorem play (act : Play α) : (Watched.play act).Shows act := by
  intro p
  unfold Watched.play
  cases act p.1 <;> rfl

theorem pure (a : α) : (Pure.pure a : Watched α).Shows (Pure.pure a) := fun _ => rfl

theorem bind {f : α → Watched β} {g : α → Play β} (h : w.Shows act) (hf : ∀ a, (f a).Shows (g a)) :
    (w >>= f).Shows (act >>= g) := by
  intro p
  have hw := h p
  rw [Watched.bind_apply, Play.bind_apply, ← hw]
  cases w p with
  | ok a q => exact hf a q
  | error e q => rfl

/-- A note is not shown. -/
theorem noteBind {what : Occasion} {f : Unit → Watched α} (h : (f ()).Shows act) :
    (note what >>= f).Shows act := by
  intro p
  exact h (p.1, p.2 ++ [⟨what, p.1⟩])

theorem bindNote {act : Play Unit} {what : Occasion} {w : Watched Unit} (h : w.Shows act) :
    (do w; note what : Watched Unit).Shows act := by
  intro p
  rw [Watched.bind_apply, ← h p]
  cases w p <;> rfl

theorem ite {c : Prop} [Decidable c] {w' : Watched α} {act' : Play α} (h : w.Shows act)
    (h' : w'.Shows act') : (if c then w else w').Shows (if c then act else act') := by
  split
  · exact h
  · exact h'

theorem after_fst (h : w.Shows act) (p : Session × List Sighting) : (w.after p).1 = act.after p.1 := by
  have hw := h p
  unfold Watched.after Play.after
  rw [← hw]
  cases w p <;> rfl

end Shows

theorem shows_regionChanged : regionChanged.Shows Play.regionChanged := by
  intro p
  unfold regionChanged
  rw [Watched.bind_apply, ← Shows.play Play.regionChanged p]
  cases play Play.regionChanged p <;> rfl

theorem shows_arrive : arrive.Shows Play.arrive := by
  refine (Shows.play get).bind fun s => (Shows.pure ()).ite (Shows.noteBind ?_)
  refine (Shows.play _).bind fun _ => (Shows.play _).bind fun _ => shows_regionChanged.bind fun _ => ?_
  refine Shows.ite ((Shows.play get).bind fun s => ?_) (Shows.pure ())
  exact Shows.noteBind (Shows.play _)

theorem shows_advancePlayer : advancePlayer.Shows Play.advancePlayer := by
  have hrest : (do if ← play (liftM (Act.takeMoved .player)) then arrive : Watched Unit).Shows
      (do if ← Act.takeMoved .player then Play.arrive : Play Unit) :=
    (Shows.play _).bind fun _ => shows_arrive.ite (Shows.pure ())
  refine (Shows.play get).bind fun s => ?_
  dsimp only
  split
  · exact (Shows.play _).bind fun _ => hrest
  · exact hrest

theorem shows_transfer (map : Int) (p : Point) (d : Int) :
    (transfer map p d).Shows (Play.transfer map p d) := (Shows.play _).bindNote

theorem shows_newGame (map : Int) (p : Point) (members : List Json) :
    (newGame map p members).Shows (Play.newGame map p members) :=
  (Shows.play _).bind fun _ => (Shows.play _).bind fun _ => (Shows.play _).bind fun _ => shows_transfer map p 0

theorem shows_loadPosition (position : Json) : (loadPosition position).Shows (Play.loadPosition position) := by
  refine (Shows.pure ()).ite ((Shows.play _).bind fun map => (Shows.pure ()).ite ?_)
  refine (Shows.play _).bind fun id => (Shows.play _).bind fun _ => (Shows.play _).bind fun x => ?_
  refine (Shows.play _).bind fun y => (Shows.play _).bind fun d => (Shows.play _).bind fun id => ?_
  exact shows_transfer id ⟨x, y⟩ d

theorem shows_load (save : Json) : (load save).Shows (Play.load save) := by
  refine (Shows.play get).bind fun s => (Shows.play _).bind fun stores => (Shows.play _).bind fun _ => ?_
  exact (Shows.play _).bind fun _ => (Shows.play _).bind fun position => shows_loadPosition position

/-! ### What a host can do -/

/-- What a host can do, and how it is watched.  Only the operations that look at the player's region have
anything to note. -/
inductive Hosts : {α : Type} → Play α → Watched α → Prop
  | advance : Hosts Play.advance advance
  | advancePlayer : Hosts Play.advancePlayer advancePlayer
  | regionChanged : Hosts Play.regionChanged regionChanged
  | transfer (map : Int) (p : Point) (d : Int) : Hosts (Play.transfer map p d) (transfer map p d)
  | newGame (map : Int) (p : Point) (members : List Json) :
      Hosts (Play.newGame map p members) (newGame map p members)
  | load (save : Json) : Hosts (Play.load save) (load save)
  | other {α : Type} {act : Play α} (h : Play.Hosted act) (hlooks : ¬Play.LooksAtRegion act) :
      Hosts act (play act)

/-- **But for its notes a watched operation does the same.** -/
theorem Hosts.shows {act : Play α} {w : Watched α} (h : Hosts act w) : w.Shows act := by
  cases h with
  | advance => exact (Shows.play _).bind fun _ => shows_advancePlayer
  | advancePlayer => exact shows_advancePlayer
  | regionChanged => exact shows_regionChanged
  | transfer map p d => exact shows_transfer map p d
  | newGame map p members => exact shows_newGame map p members
  | load save => exact shows_load save
  | other h hlooks => exact Shows.play act

/-- Everything that a host can do is watched, unless it enters a region itself. -/
theorem exists_hosts {act : Play α} (h : Play.Hosted act)
    (henter : ∀ region, ¬HEq act (Play.enterRegion region)) : ∃ w, Hosts act w := by
  by_cases hlooks : Play.LooksAtRegion act
  · cases hlooks with
    | advance => exact ⟨_, .advance⟩
    | advancePlayer => exact ⟨_, .advancePlayer⟩
    | regionChanged => exact ⟨_, .regionChanged⟩
    | transfer map p d => exact ⟨_, .transfer map p d⟩
    | newGame map p members => exact ⟨_, .newGame map p members⟩
    | load save => exact ⟨_, .load save⟩
    | enterRegion region => exact absurd HEq.rfl (henter region)
  · exact ⟨_, .other h hlooks⟩

/-! ### What a step can note -/

/-- What is noted in one step, with the regions that are recorded before and after it. -/
inductive Marks (r : Int) : List Sighting → Int → Prop
  | nothing : Marks r [] r
  -- an arrival, up to where it is looked into
  | arrived (a : Session) : Marks r [⟨.arrived, a⟩] r
  | stayed {a c : Session} (ha : a.StandsIn r) (hc : c.StandsIn r) :
      Marks r [⟨.arrived, a⟩, ⟨.checked, c⟩] r
  | entered {a c : Session} {q : Int} (hnew : q ≠ r) (ha : a.StandsIn q) (hc : c.StandsIn q) :
      Marks r [⟨.arrived, a⟩, ⟨.checked, c⟩, ⟨.entered q, c⟩] q
  -- a look that the host takes itself, and a transfer
  | checked {c : Session} {q : Int} (hc : c.StandsIn q) : Marks r [⟨.checked, c⟩] q
  | transferred {c : Session} {q : Int} (hc : c.StandsIn q) : Marks r [⟨.transferred, c⟩] q

/-- A watched operation is one step. -/
def IsStep (w : Watched α) : Prop := ∀ (s : Session) (l : List Sighting), ∃ (t : Session) (m : List Sighting),
  w.after (s, l) = (t, l ++ m) ∧ Marks s.player.lastRegion m t.player.lastRegion

section Steps

variable {w : Watched α} {act : Play α}

theorem isStep_play (h : ∀ r, act.Preserves (Session.Recalls r)) : (play act).IsStep := by
  intro s l
  refine ⟨act.after s, [], ?_, ?_⟩
  · rw [after_play, List.append_nil]
  · rw [h _ s rfl]
    exact .nothing

/-- What leaves the record alone may go before a step. -/
theorem IsStep.first {f : α → Watched β} (h : ∀ r, act.Preserves (Session.Recalls r))
    (hf : ∀ a, (f a).IsStep) : (play act >>= f).IsStep := by
  intro s l
  unfold after
  rw [bind_apply]
  cases hact : act s with
  | error e t =>
      rw [play_of_error hact]
      have hsame : t.player.lastRegion = s.player.lastRegion := (h _).of_error rfl hact
      refine ⟨t, [], by rw [List.append_nil], ?_⟩
      rw [hsame]
      exact .nothing
  | ok a t =>
      rw [play_of_ok hact]
      have hsame : t.player.lastRegion = s.player.lastRegion := (h _).of_ok rfl hact
      rw [← hsame]
      exact hf a t l

/-- Both branches are steps. -/
theorem IsStep.ite {c : Prop} [Decidable c] {w' : Watched α} (h : w.IsStep) (h' : w'.IsStep) :
    (if c then w else w').IsStep := by
  split
  · exact h
  · exact h'

theorem isStep_pure (a : α) : (pure a : Watched α).IsStep :=
  fun s l => ⟨s, [], by rw [List.append_nil]; rfl, .nothing⟩

/-- A step whose first part only looks at the session. -/
theorem isStep_getBind {f : Session → Watched α} (h : ∀ s, (f s).IsStep) : (play get >>= f).IsStep :=
  IsStep.first (fun _ _ hs => hs) h

end Steps

/-! ### The steps -/

theorem regionChanged_cases (s : Session) (l : List Sighting) :
    (∃ e, regionChanged (s, l) = .error e (s, l)) ∨
      ∃ (q : Int) (c : Session), c = { s with player.lastRegion := q } ∧ s.StandsIn q ∧
        regionChanged (s, l) = .ok (q != s.player.lastRegion) (c, l ++ [⟨.checked, c⟩]) := by
  unfold regionChanged
  rw [bind_apply]
  rcases Play.regionChanged_cases s with ⟨e, hlook⟩ | ⟨q, hq, hlook⟩
  · rw [play_of_error hlook]
    exact Or.inl ⟨e, rfl⟩
  · rw [play_of_ok hlook]
    exact Or.inr ⟨q, _, rfl, hq, rfl⟩

theorem isStep_regionChanged : regionChanged.IsStep := by
  intro s l
  unfold after
  rcases regionChanged_cases s l with ⟨e, hlook⟩ | ⟨q, c, rfl, hq, hlook⟩
  · rw [hlook]
    exact ⟨s, [], by rw [List.append_nil], .nothing⟩
  · rw [hlook]
    exact ⟨_, _, rfl, .checked hq⟩

/-- A look at the region at the end of an arrival, and what follows from it. -/
def look : Watched Unit := do
  if ← regionChanged then enterRegion (← play get).player.lastRegion

theorem look_cases (s : Session) (l : List Sighting) : look.after (s, l) = (s, l) ∨
    ∃ (q : Int) (c t : Session), s.StandsIn q ∧ c.StandsIn q ∧ t.player.lastRegion = q ∧
      ((q = s.player.lastRegion ∧ look.after (s, l) = (t, l ++ [⟨.checked, c⟩])) ∨
        (q ≠ s.player.lastRegion ∧ look.after (s, l) = (t, l ++ [⟨.checked, c⟩, ⟨.entered q, c⟩]))) := by
  unfold look after
  rw [bind_apply]
  rcases regionChanged_cases s l with ⟨e, hlook⟩ | ⟨q, c, hc, hq, hlook⟩
  · rw [hlook]
    exact Or.inl rfl
  · rw [hlook]
    have hcq : c.StandsIn q := by
      rw [hc]
      exact hq
    have hrecords : c.Recalls q := by
      rw [hc]
      rfl
    cases hchanged : q != s.player.lastRegion with
    | false => exact Or.inr ⟨q, c, c, hq, hcq, hrecords, Or.inl ⟨by simpa using hchanged, rfl⟩⟩
    | true =>
        have hentered : (do enterRegion (← play get).player.lastRegion : Watched Unit).after
            (c, l ++ [⟨.checked, c⟩]) =
              ((Play.enterRegion (some q)).after c, l ++ [⟨.checked, c⟩] ++ [⟨.entered q, c⟩]) := by
          rw [← hrecords]
          exact after_play (Play.enterRegion (some c.player.lastRegion))
        rw [List.append_assoc] at hentered
        have hleft := Play.recalls_enterRegion (some q) c hrecords
        exact Or.inr ⟨q, c, _, hq, hcq, hleft, Or.inr ⟨by simpa using hchanged, hentered⟩⟩

theorem arrive_of_running {s : Session} (h : s.isEventRunning = true) (l : List Sighting) :
    arrive.after (s, l) = (s, l) := by
  have hnothing : arrive (s, l) = .ok () (s, l) := by
    change (if s.isEventRunning then pure () else _ : Watched Unit) (s, l) = _
    rw [h]
    rfl
  rw [after, hnothing]

theorem arrive_of_idle {s : Session} (h : s.isEventRunning = false) (l : List Sighting) :
    arrive.after (s, l) = look.after (s.touched, l ++ [⟨.arrived, s⟩]) := by
  have hlooks : arrive (s, l) = look (s.touched, l ++ [⟨.arrived, s⟩]) := by
    change (if s.isEventRunning then pure () else _ : Watched Unit) (s, l) = _
    rw [h]
    rfl
  rw [after, after, hlooks]

/-- **What is noted of an arrival.** -/
theorem isStep_arrive : arrive.IsStep := by
  intro s l
  cases hrunning : s.isEventRunning with
  | true => exact ⟨s, [], by rw [arrive_of_running hrunning, List.append_nil], .nothing⟩
  | false =>
      -- what is touched leaves the player where it is
      obtain ⟨-, hbody, hlast, -, hregion⟩ := s.touched_stays
      have hstands : ∀ {q : Int}, s.touched.StandsIn q → s.StandsIn q := by
        intro q hq
        rwa [Session.StandsIn, hregion, hbody] at hq
      rw [arrive_of_idle hrunning, ← hlast]
      rcases look_cases s.touched (l ++ [⟨.arrived, s⟩]) with hfails | ⟨q, c, t, hq, hc, ht, hlook⟩
      · exact ⟨_, _, hfails, .arrived s⟩
      · rcases hlook with ⟨hsame, hlook⟩ | ⟨hnew, hlook⟩
        · refine ⟨t, _, by rw [hlook, List.append_assoc], ?_⟩
          rw [ht, ← hsame]
          exact .stayed (hstands hq) hc
        · refine ⟨t, _, by rw [hlook, List.append_assoc], ?_⟩
          rw [ht]
          exact .entered hnew (hstands hq) hc

theorem isStep_advancePlayer : advancePlayer.IsStep := by
  have htakes : ∀ r, (liftM (Act.takeMoved .player) : Play Bool).Preserves (Session.Recalls r) := fun r =>
    Play.preserves_act fun _ hs => (Play.roaming_recalls r .player).takeMoved hs
  have hrest : (do if ← play (liftM (Act.takeMoved .player)) then arrive : Watched Unit).IsStep :=
    IsStep.first htakes fun _ => isStep_arrive.ite (isStep_pure ())
  refine isStep_getBind fun s => ?_
  dsimp only
  split
  · exact IsStep.first (fun r => Play.recalls_walk .player) fun _ => hrest
  · exact hrest

theorem isStep_transfer (map : Int) (p : Point) (d : Int) : (transfer map p d).IsStep := by
  intro s l
  unfold transfer after
  rw [bind_apply]
  rcases Play.transfer_cases map p d s with ⟨e, t, htransfer, hsame⟩ | ⟨t, htransfer, hstands⟩
  · rw [play_of_error htransfer]
    refine ⟨t, [], by rw [List.append_nil], ?_⟩
    rw [hsame]
    exact .nothing
  · rw [play_of_ok htransfer]
    exact ⟨t, _, rfl, .transferred hstands⟩

theorem isStep_newGame (map : Int) (p : Point) (members : List Json) : (newGame map p members).IsStep := by
  refine IsStep.first (fun r => Play.preserves_modify fun _ hs => hs) fun _ => ?_
  refine IsStep.first (fun r => Play.preserves_modify fun _ hs => hs) fun _ => ?_
  exact IsStep.first (fun r => Play.recalls_setupMap map none) fun _ => isStep_transfer map p 0

theorem isStep_loadPosition (position : Json) : (loadPosition position).IsStep := by
  refine (isStep_pure ()).ite (IsStep.first (fun r => Play.preserves_except _) fun map => ?_)
  refine (isStep_pure ()).ite (IsStep.first (fun r => Play.preserves_except _) fun id => ?_)
  refine IsStep.first (fun r => Play.recalls_setupMap id none) fun _ => ?_
  refine IsStep.first (fun r => Play.preserves_except _) fun x => ?_
  refine IsStep.first (fun r => Play.preserves_except _) fun y => ?_
  refine IsStep.first (fun r => Play.preserves_except _) fun d => ?_
  exact IsStep.first (fun r => Play.preserves_except _) fun id => isStep_transfer id _ d

theorem isStep_load (save : Json) : (load save).IsStep := by
  refine isStep_getBind fun s => ?_
  refine IsStep.first (fun r => Play.preserves_reading (fun _ _ hs => hs) _) fun stores => ?_
  refine IsStep.first (fun r => Play.preserves_modify fun _ hs => hs) fun _ => ?_
  refine IsStep.first (fun r => Play.preserves_modify fun _ hs => hs) fun _ => ?_
  exact IsStep.first (fun r => Play.preserves_except _) fun position => isStep_loadPosition position

/-- **Whatever a host does is one step.** -/
theorem Hosts.isStep {act : Play α} {w : Watched α} (h : Hosts act w) : w.IsStep := by
  cases h with
  | advance => exact IsStep.first (fun r => Play.recalls_advanceMap) fun _ => isStep_advancePlayer
  | advancePlayer => exact isStep_advancePlayer
  | regionChanged => exact isStep_regionChanged
  | transfer map p d => exact isStep_transfer map p d
  | newGame map p members => exact isStep_newGame map p members
  | load save => exact isStep_load save
  | other h hlooks => exact isStep_play fun r => Play.recalls_of_hosted h hlooks

end Watched

end EventLayer
