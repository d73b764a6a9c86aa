/-
**The common events that a session knows.**

The triggers of the common events are read from the database once and kept from then on.  Nothing that
happens to a session changes the database, and nothing but the first reading writes what was read, so
that what a session knows of the common events is always what a new reading would give.

Commands write neither the number of the map nor its queue nor what is known of the common events.  A
property that rests on these alone is kept by every command without further ado.

Main definitions:

* `Session.fixed` — the part of the ground that no command writes;
* `Session.KnowsCommons` — what is known of the common events is what the database says.

Main results:

* `Play.upheld_of_fixed` — **a property of what no command writes is upheld**;
* `Session.Reachable.knowsCommons` — **every reachable session knows the common events of its game**.
-/
import EventLayer.Proofs.Lasting
import EventLayer.Proofs.Lockstep.Alike

set_option autoImplicit false
set_option relaxedAutoImplicit false

namespace EventLayer

namespace Session

/-- The part of the ground that no command writes. -/
def fixed (s : Session) : Session where
  game := s.game
  map := { id := s.map.id, pending := s.map.pending, commons := s.map.commons }

theorem fixed_of_ground {s t : Session} (h : t.ground = s.ground) : t.fixed = s.fixed := by
  have hfixed : t.ground.fixed = s.ground.fixed := congrArg fixed h
  exact hfixed

/-- A property that rests on what no command writes. -/
def RestsOnFixed (P : Session → Prop) : Prop := ∀ s t : Session, P s → t.fixed = s.fixed → P t

/-- What is known of the common events is what the database says. -/
def KnowsCommons (g : Game) (s : Session) : Prop :=
  s.game = g ∧ ∀ found, s.map.commons = some found →
    (Play.readCommons g.database g.database.commonEventIds).result = .ok found

end Session

namespace Play

open Session

/-! ### Properties of what no command writes -/

section Fixed

variable {P : Session → Prop} (hP : RestsOnFixed P)

include hP

/-- No single write of a command reaches what is fixed. -/
theorem enduring_of_fixed : Enduring P where
  aside := fun _ _ _ _ hs _ => hP _ _ hs rfl
  setReserved := fun _ hs => hP _ _ hs rfl
  setSwitch := fun _ _ hs => hP _ _ hs rfl
  setVariable := fun _ _ hs => hP _ _ hs rfl
  setSelfSwitch := fun _ _ hs => hP _ _ hs rfl
  requestRefresh := fun hs => hP _ _ hs rfl
  recordOrigin := fun _ _ _ hs => hP _ _ hs rfl
  setBehavior := fun _ hs => hP _ _ hs rfl
  gain := fun _ _ ht => hP _ _ ht rfl
  forceRoute := by
    intro s who route hs
    refine hP _ _ hs ?_
    cases who <;> rfl
  eraseEvent := preserves_eraseEvent (fun _ _ hs => hP _ _ hs rfl) fun _ _ _ hs => hP _ _ hs rfl
  onFrame := fun _ _ _ hs => hP _ _ hs rfl
  await := fun _ _ hs => hP _ _ hs rfl

theorem sustained_of_fixed : Sustained P :=
  (enduring_of_fixed hP).sustained (fun _ hs => hP _ _ hs rfl) fun _ hs => hP _ _ hs rfl

/-- **A property of what no command writes is upheld.** -/
theorem upheld_of_fixed : Upheld P P := by
  have hplain : ∀ {i : Instruction} (d : Nat), (∀ id, i ≠ .callCommon id) →
      (carryOutPlain d i).Keeps P P := by
    intro i d hi
    refine ((enduring_of_fixed hP).carryOutPlain d ?_).keeps
    intro id hcall
    exact absurd hcall (hi id)
  exact
    { ground := fun hs h => hP _ _ hs (fixed_of_ground h)
      fails := fun hs => hs
      leave := fun _ hs => hP _ _ hs rfl
      setSwitches := fun d _ _ _ => hplain d nofun
      changeVariables := fun d _ _ _ _ => hplain d nofun
      setSelfSwitch := fun d _ => hplain d nofun
      eraseEvent := fun id => ((enduring_of_fixed hP).eraseEvent id).keeps }

/-- With what is done to the queue and to the common events, frames keep such a property too. -/
theorem upheldThroughout_of_fixed (hpopped : ∀ {s : Session}, P s → P s.popped)
    (hcommons : commonEvents.Preserves P) : UpheldThroughout P P :=
  { upheld_of_fixed hP with
    popped := hpopped
    commonEvents := hcommons.keeps
    refreshMap := by
      refine (preserves_getBind fun s => ?_).keeps
      refine (preserves_reading (fun _ _ hs => hP _ _ hs rfl) _).bind fun events => ?_
      exact preserves_modify fun _ hs => hP _ _ hs rfl }

end Fixed

/-! ### Knowing the common events -/

variable {g : Game} {s t : Session}

theorem restsOnFixed_knowsCommons : RestsOnFixed (KnowsCommons g) := by
  rintro s t ⟨hgame, hcommons⟩ h
  have hgame' : t.fixed.game = s.fixed.game := congrArg Session.game h
  have hcommons' : t.fixed.map.commons = s.fixed.map.commons :=
    congrArg (fun u : Session => u.map.commons) h
  exact ⟨hgame'.trans hgame, fun found hfound => hcommons found (hcommons' ▸ hfound)⟩

/-- What a look at the common events finds is what the database says; nothing else is written. -/
theorem commonEvents_eq_ok {found : List CommonEvent} (hs : s.KnowsCommons g)
    (h : commonEvents s = .ok found t) :
    (readCommons g.database g.database.commonEventIds).result = .ok found ∧
      ∃ notices, t = { s with map.commons := some found, notices := notices } := by
  rw [commonEvents, get_bind_apply] at h
  cases hknown : s.map.commons with
  | some known =>
      rw [hknown] at h
      cases h
      refine ⟨hs.2 _ hknown, s.notices, ?_⟩
      rw [← hknown]
  | none =>
      rw [hknown] at h
      obtain ⟨read, hread, h⟩ := reading_bind_eq_ok h
      cases h
      exact ⟨hs.1 ▸ hread, _, rfl⟩

/-- A look at the common events finds them if their triggers can be read. -/
theorem commonEvents_of_readable {found : List CommonEvent} (hs : s.KnowsCommons g)
    (h : (readCommons g.database g.database.commonEventIds).result = .ok found) :
    ∃ notices, commonEvents s =
      .ok found { s with map.commons := some found, notices := notices } := by
  cases hknown : s.map.commons with
  | some known =>
      obtain rfl : known = found := Except.ok.inj ((hs.2 _ hknown).symm.trans h)
      have hsame : { s with map.commons := some known } = s := by rw [← hknown]
      refine ⟨s.notices, ?_⟩
      rw [hsame, commonEvents, get_bind_apply, hknown]
      rfl
  | none =>
      have hread : (readCommons s.game.database s.game.database.commonEventIds).result =
          .ok found := by
        rw [hs.1]
        exact h
      rw [commonEvents, get_bind_apply, hknown]
      dsimp only
      rw [bind_apply, lift_reading_of_ok hread]
      exact ⟨_, rfl⟩

theorem knowsCommons_commonEvents : commonEvents.Preserves (KnowsCommons g) := by
  refine preserves_getBind_of fun s hs => ?_
  dsimp only
  split
  · exact preserves_pure _
  · refine preserves_readingBind (fun _ _ h => h) fun found hfound => ?_
    refine Preserves.bind (preserves_modify fun t ht => ⟨ht.1, ?_⟩) fun _ => preserves_pure _
    rintro _ ⟨⟩
    exact hs.1 ▸ hfound

/-- What is known of the common events lasts. -/
theorem lasting_knowsCommons : Lasting (KnowsCommons g) :=
  { sustained_of_fixed restsOnFixed_knowsCommons with
    onCharacter := by
      intro s who f _ hs
      cases who <;> exact hs
    onParty := fun _ _ _ hs => hs
    onMap := by
      rintro s m hm ⟨hgame, hcommons⟩
      exact ⟨hgame, fun found hfound => hcommons found (hm ▸ hfound)⟩
    commonEvents := knowsCommons_commonEvents
    clear := fun hs => hs
    setupInterpreter := preserves_setupInterpreter (fun _ _ hs => hs) fun _ _ hs => hs
    jump := fun _ _ hs => hs
    enterScopes := fun _ hs => hs
    setSelfVariable := fun _ _ hs => hs
    setMembers := fun _ hs => hs
    newStores := fun _ hs => hs
    savedStores := fun _ _ ht => ht }

end Play

/-- **Every session that a game comes to knows the common events of the game.** -/
theorem Session.Reachable.knowsCommons {g : Game} {s : Session} (h : Reachable g s) :
    s.KnowsCommons g :=
  h.lasting (fun _ => ⟨rfl, nofun⟩) Play.lasting_knowsCommons

end EventLayer
