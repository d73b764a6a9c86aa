/-
**Orderly command lists.**

A command list is begun with the table of its own commands, and no operation takes the one without the
other.  A list that stands in front of its first command stands one position before it at most, and a
list that is linked is linked to a map with a number.  So the lists of every session that a game comes
to are orderly.  Beyond that a list can be asked to have some
property of its commands, which then the lists have to have that are begun.

Main definitions:

* `ReadsAs` — what a list of the data is read as has a property;
* `Frame.Orderly`, `Interpreter.Orderly` — lists that stand as they were begun.

Main results:

* `Play.sustained_orderly` — **a run of orderly lists leaves orderly lists**;
* `Session.Reachable.orderly` — **the lists of every reachable session are orderly**.
-/
import EventLayer.Proofs.Ending.Forward
import EventLayer.Proofs.Lasting

set_option autoImplicit false
set_option relaxedAutoImplicit false

namespace EventLayer

/-- Whatever a list of the data is read as has a property. -/
def ReadsAs (L : List EventCommand → Prop) (list : Json) : Prop :=
  ∀ l, (EventCommand.readList list).result = .ok l → L l

/-! ### Single lists -/

/-- A command list as it was begun: its commands have a property, and its table is theirs.  The map that
it is linked to has a number. -/
structure Frame.Orderly (L : List EventCommand → Prop) (f : Frame) : Prop where
  index : -1 ≤ f.index
  link : ∃ n, f.link.map.toInt = .ok n
  built : ∀ l, f.commands = some l → L l ∧ f.table = WeightTable.build l

namespace Frame

variable {L : List EventCommand → Prop} {f : Frame}

theorem orderly_none (hindex : -1 ≤ f.index) (hlink : f.link = {}) (hnone : f.commands = none) :
    f.Orderly L := by
  refine ⟨hindex, ⟨0, by rw [hlink]; rfl⟩, ?_⟩
  intro l hl
  rw [hnone] at hl
  cases hl

theorem Orderly.adjust {F : Frame → Frame} (h : f.Orderly L) (hF : Frame.Adjusts F) :
    (F f).Orderly L := by
  obtain ⟨hcommands, hindex, htable⟩ := Frame.eq_of_course (hF.course f)
  have hlink : ∃ n, (F f).link.map.toInt = .ok n := by
    rcases hF.link f with hsame | hlinked
    · rw [hsame]
      exact h.link
    · exact hlinked
  refine ⟨hindex ▸ h.index, hlink, ?_⟩
  intro l hl
  obtain ⟨hL, hbuilt⟩ := h.built l (hcommands.symm.trans hl)
  exact ⟨hL, htable.trans hbuilt⟩

theorem Orderly.goOn (h : f.Orderly L) {next : Int} (hnext : -1 ≤ next) :
    { f with index := next }.Orderly L :=
  ⟨hnext, h.link, h.built⟩

/-- A list that stands as it was begun has any property that its commands have. -/
theorem Orderly.of_list (h : f.Orderly fun _ => True) (hL : L f.list) : f.Orderly L := by
  refine ⟨h.index, h.link, ?_⟩
  intro l hl
  have hsame : f.list = l := congrArg (fun c => c.getD []) hl
  exact ⟨hsame ▸ hL, (h.built l hl).2⟩

theorem Orderly.terminate (h : f.Orderly L) : f.terminate.Orderly L :=
  orderly_none h.index rfl rfl

end Frame

/-! ### The stack -/

/-- A stack of orderly lists. -/
structure Interpreter.Orderly (L : List EventCommand → Prop) (i : Interpreter) : Prop where
  root : i.root.Orderly L
  nested : ∀ f ∈ i.nested, f.Orderly L

namespace Interpreter

variable {L : List EventCommand → Prop} {i : Interpreter}

theorem Orderly.frame (h : i.Orderly L) (d : Nat) : (i.frame d).Orderly L := by
  cases d with
  | zero => exact h.root
  | succ d =>
      rw [Interpreter.frame, List.getD_eq_getElem?_getD]
      cases hf : i.nested[d]? with
      | none => exact Frame.orderly_none (by decide) rfl rfl
      | some f => exact h.nested f (List.mem_of_getElem? hf)

theorem Orderly.modify {F : Frame → Frame} (h : i.Orderly L) (d : Nat)
    (hF : ∀ f : Frame, f.Orderly L → (F f).Orderly L) : (i.modify F d).Orderly L := by
  cases d with
  | zero => exact ⟨hF _ h.root, h.nested⟩
  | succ d =>
      refine ⟨h.root, ?_⟩
      intro f hf
      obtain ⟨n, hn⟩ := List.mem_iff_getElem?.1 hf
      rw [Interpreter.modify, List.getElem?_modify] at hn
      cases hold : i.nested[n]? with
      | none =>
          rw [hold] at hn
          cases hn
      | some g =>
          have hg : g.Orderly L := h.nested g (List.mem_of_getElem? hold)
          have hf' : (if d = n then F g else g) = f := by simpa [hold] using hn
          rw [← hf']
          split
          · exact hF g hg
          · exact hg

theorem Orderly.cut (h : i.Orderly L) (d : Nat) : (i.cut d).Orderly L := by
  refine ⟨h.root, ?_⟩
  intro f hf
  exact h.nested f (List.mem_of_mem_take hf)

theorem Orderly.push {f : Frame} (h : i.Orderly L) (d : Nat) (hf : f.Orderly L) :
    (i.push d f).Orderly L := by
  refine ⟨h.root, ?_⟩
  intro g hg
  simp only [Interpreter.push, List.mem_append, List.mem_singleton] at hg
  rcases hg with hg | rfl
  · exact h.nested g (List.mem_of_mem_take hg)
  · exact hf

theorem Orderly.single {f : Frame} (hf : f.Orderly L) : ({ root := f } : Interpreter).Orderly L := by
  refine ⟨hf, ?_⟩
  intro g hg
  cases hg

theorem orderly_clear (i : Interpreter) : i.clear.Orderly L := by
  have hindex : -1 ≤ i.root.clear.index := show (-1 : Int) ≤ 0 by decide
  exact .single (Frame.orderly_none hindex rfl rfl)

end Interpreter

namespace Play

open Session

variable {L : List EventCommand → Prop} {Q : Session → Prop}

/-! ### Beginning a list -/

/-- A list that is opened is orderly, and is run from then on. -/
theorem orderly_openFrame {list : Json} (hlist : ReadsAs L list) {event : Int} {s t : Session}
    {frame : Frame} (h : openFrame list event s = .ok frame t) :
    frame.Orderly L ∧ frame.isRunning = true := by
  rw [openFrame, get_bind_apply] at h
  obtain ⟨l, hl, h⟩ := reading_bind_eq_ok h
  cases h
  refine ⟨⟨show (-1 : Int) ≤ 0 by decide, ⟨0, rfl⟩, ?_⟩, rfl⟩
  rintro _ ⟨⟩
  exact ⟨hlist l hl, rfl⟩

/-- What is done with a list once it is opened may rely on its being orderly. -/
theorem preserves_openFrame {P : Session → Prop}
    (hn : ∀ (s : Session) (n : List Notice), P s → P { s with notices := n }) {list : Json}
    (hlist : ReadsAs L list) (event : Int) {f : Frame → Play Unit}
    (hf : ∀ frame : Frame, frame.Orderly L → frame.isRunning = true → (f frame).Preserves P) :
    (openFrame list event >>= f : Play Unit).Preserves P := by
  intro s hs
  have hopen : (openFrame list event).Preserves P :=
    preserves_getBind fun _ => (preserves_reading hn _).bind fun _ => preserves_pure _
  unfold after
  rw [bind_apply]
  cases h : openFrame list event s with
  | ok frame t =>
      obtain ⟨horderly, hrunning⟩ := orderly_openFrame hlist h
      exact hf frame horderly hrunning t (hopen.of_ok hs h)
  | error e t => exact hopen.of_error hs h

/-! ### Commands -/

/-- No single write of a command brings a list out of order. -/
theorem enduring_orderly : Enduring fun s => s.interpreter.Orderly L where
  aside := fun _ _ _ _ hs _ => hs
  setReserved := fun _ hs => hs
  setSwitch := fun _ _ hs => hs
  setVariable := fun _ _ hs => hs
  setSelfSwitch := fun _ _ hs => hs
  requestRefresh := fun hs => hs
  recordOrigin := fun _ _ _ hs => hs
  setBehavior := fun _ hs => hs
  gain := fun _ _ ht => ht
  forceRoute := by
    intro s who route hs
    cases who <;> exact hs
  eraseEvent := preserves_eraseEvent (fun _ _ hs => hs) fun _ _ _ hs => hs
  onFrame := by
    intro s d F _ hF _ hs
    refine hs.modify d ?_
    intro f hf
    exact hf.adjust hF
  await := by
    intro s d who hs
    have hawaits : ∀ f : Frame, f.Orderly L → { f with awaited := who }.Orderly L := fun _ hf =>
      ⟨hf.index, hf.link, hf.built⟩
    exact Interpreter.Orderly.modify hs d hawaits

/-- **A run of orderly lists leaves orderly lists**, beside whatever else endures, if the common events
are read as lists of the same kind. -/
theorem sustained_orderly (hQ : Enduring Q)
    (hlists : ∀ {s : Session} (i : Interpreter), Q s → Q { s with interpreter := i })
    (hactive : ∀ {s : Session} (a : Option Nat), Q s → Q { s with active := a })
    (hcommons : ∀ {s : Session}, Q s → ∀ (id entry : Json),
      s.game.database.commonEvent? id = some entry → ReadsAs L (CommonEvent.listOf entry)) :
    Sustained fun s => Q s ∧ s.interpreter.Orderly L := by
  have horderly : Enduring fun s => s.interpreter.Orderly L := enduring_orderly
  have henduring := hQ.and horderly
  have hcall : ∀ (d : Nat) (id : Json),
      (callCommon d id).Preserves fun s => Q s ∧ s.interpreter.Orderly L := by
    intro d id
    refine preserves_getBind_of fun s hs => ?_
    split
    · exact henduring.note _
    · next entry hentry =>
        refine preserves_openFrame ?_ (hcommons hs.1 id entry hentry) _ ?_
        · intro t n ht
          exact henduring.aside t.draws t.scratch t.audio n ht rfl
        · intro frame hframe _
          refine preserves_modify ?_
          intro t ht
          exact ⟨hlists _ ht.1, ht.2.push d hframe⟩
  refine { henduring with callCommon := hcall, terminate := ?_, cut := ?_, goOn := ?_, activate := ?_ }
  · intro s d hs
    refine ⟨hlists _ hs.1, hs.2.modify d ?_⟩
    intro f hf
    exact hf.terminate
  · intro s d hs
    exact ⟨hlists _ hs.1, hs.2.cut d⟩
  · intro d i s hs
    have hcarried : (carryOut d i).Preserves fun s => Q s ∧ s.interpreter.Orderly L :=
      henduring.carryOut d (fun id _ => hcall d id) fun _ => henduring.displayTreasure hcall
    unfold after
    rw [bind_apply]
    cases h : carryOut d i s with
    | error e t => exact hcarried.of_error hs h
    | ok next t =>
        have ht := hcarried.of_ok hs h
        have hnext : 0 ≤ next := (carryOut_leadsTo i next t h).nonneg (hs.2.frame d).index
        have hmoved : (t.interpreter.modify (fun f => { f with index := next }) d).Orderly L := by
          refine ht.2.modify d ?_
          intro f hf
          exact hf.goOn (by omega)
        exact ⟨hlists _ ht.1, hmoved⟩
  · intro s a hs
    exact ⟨hactive a hs.1, hs.2⟩

/-! ### Whatever a host does -/

/-- Any list can be begun. -/
theorem readsAs_any (list : Json) : ReadsAs (fun _ => True) list := by
  intro l _
  trivial

/-- No property at all. -/
theorem enduring_true : Enduring fun _ => True where
  aside := fun _ _ _ _ _ _ => trivial
  setReserved := fun _ _ => trivial
  setSwitch := fun _ _ _ => trivial
  setVariable := fun _ _ _ => trivial
  setSelfSwitch := fun _ _ _ => trivial
  requestRefresh := fun _ => trivial
  recordOrigin := fun _ _ _ _ => trivial
  setBehavior := fun _ _ => trivial
  gain := fun _ _ _ => trivial
  forceRoute := fun _ _ _ => trivial
  eraseEvent := fun _ _ _ => trivial
  onFrame := fun _ _ _ _ => trivial
  await := fun _ _ _ => trivial

/-- **That lists are orderly lasts.** -/
theorem lasting_orderly : Lasting fun s => True ∧ s.interpreter.Orderly fun _ => True :=
  { sustained_orderly enduring_true (fun _ _ => trivial) (fun _ _ => trivial) fun _ _ entry _ =>
      readsAs_any _ with
    onCharacter := by
      intro s who f _ hs
      cases who <;> exact hs
    onParty := fun _ _ _ hs => hs
    onMap := fun _ _ hs => hs
    commonEvents := preserves_commonEvents fun _ _ _ hs => hs
    clear := fun _ => ⟨trivial, Interpreter.orderly_clear _⟩
    setupInterpreter := by
      intro list event
      refine Preserves.bind (preserves_modify fun _ _ => ⟨trivial, Interpreter.orderly_clear _⟩) ?_
      intro _
      refine preserves_openFrame (fun _ _ hs => hs) (readsAs_any list) event ?_
      intro frame hframe _
      exact preserves_modify fun _ _ => ⟨trivial, .single hframe⟩
    jump := by
      intro s d stop hs
      have hstop : -1 ≤ (stop : Int) - 1 := by omega
      exact ⟨trivial, hs.2.modify d fun f hf => hf.goOn hstop⟩
    enterScopes := fun _ hs => hs
    setSelfVariable := fun _ _ hs => hs
    setMembers := fun _ hs => hs
    newStores := fun _ hs => hs
    savedStores := fun _ _ ht => ht }

end Play

/-- **The lists of every reachable session are orderly.** -/
theorem Session.Reachable.orderly {g : Game} {s : Session} (h : Reachable g s) :
    s.interpreter.Orderly fun _ => True := by
  refine (h.lasting ?_ Play.lasting_orderly).2
  intro draws
  exact ⟨trivial, .single (Frame.orderly_none (by decide) rfl rfl)⟩

end EventLayer
