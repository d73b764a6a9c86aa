/-
**Faults of the data.**

Most readings can fail for one kind of reason only: a value of the game's data has the wrong shape for the
place where it stands.  Such a fault carries no message of the layer's own, and it is told apart from the
fault of a command that is no object.

Main definitions:

* `FailsOnData`, `Play.FailsOnData` — readings and operations that fail for a value of the wrong shape only.

Main results:

* `FailsOnData.bind`, `Reading.failsOnData_bind`, `Play.FailsOnData.bind` — sequences of them;
* `EventCommand.failsOnData_readList` — **a list of commands is unreadable for its own data only**.
-/
import EventLayer.Command
import EventLayer.Proofs.Preserves
import EventLayer.Proofs.Results

set_option autoImplicit false
set_option relaxedAutoImplicit false

namespace EventLayer

variable {α β : Type}

/-- What fails for a value of the wrong shape only: neither for a reason of the layer's own, nor because a
value that is no object was asked for a field. -/
def FailsOnData (r : Except Fault α) : Prop := ∀ e, r = .error e → e.isOwn = false ∧ e ≠ .notAnObject

theorem FailsOnData.ok (a : α) : FailsOnData (.ok a) := nofun

theorem FailsOnData.error {e : Fault} (h : e.isOwn = false ∧ e ≠ .notAnObject) :
    FailsOnData (.error e : Except Fault α) := by
  rintro _ ⟨⟩
  exact h

theorem FailsOnData.bind {r : Except Fault α} {f : α → Except Fault β} (hr : FailsOnData r)
    (hf : ∀ a, FailsOnData (f a)) : FailsOnData (r >>= f) := by
  intro e he
  rcases Except.bind_eq_error_iff.1 he with hfail | ⟨a, -, hfail⟩
  · exact hr e hfail
  · exact hf a e hfail

theorem Reading.failsOnData_bind {r : Reading α} {f : α → Reading β} (hr : FailsOnData r.result)
    (hf : ∀ a, FailsOnData (f a).result) : FailsOnData (r >>= f).result := by
  change FailsOnData (Reading.andThen r f).result
  unfold Reading.andThen
  cases h : r.result with
  | ok a => exact hf a
  | error e => exact FailsOnData.error (hr e h)

namespace Json

theorem failsOnData_elements (v : Json) : FailsOnData v.elements := by
  cases v <;> first | exact FailsOnData.ok _ | exact FailsOnData.error (by decide)

theorem failsOnData_count (v : Json) : FailsOnData v.count :=
  v.failsOnData_elements.bind fun _ => FailsOnData.ok _

theorem failsOnData_item (v : Json) (i : Nat) : FailsOnData (v.item i) := by
  unfold item
  split
  · exact FailsOnData.error (by decide)
  · refine (failsOnData_elements _).bind fun items => ?_
    split
    · exact FailsOnData.ok _
    · exact FailsOnData.error (by decide)

theorem failsOnData_toInt (v : Json) : FailsOnData v.toInt := by
  unfold toInt
  split
  · exact FailsOnData.ok _
  · exact FailsOnData.ok _
  · next x => cases x <;> first | exact FailsOnData.ok _ | exact FailsOnData.error (by decide)
  · split
    · exact FailsOnData.ok _
    · exact FailsOnData.error (by decide)
  · exact FailsOnData.error (by decide)

end Json

namespace PluginCall

theorem failsOnData_pluginOf (params : Json) : FailsOnData (pluginOf params) := by
  unfold pluginOf
  split
  · exact FailsOnData.ok _
  · exact (params.failsOnData_item 0).bind fun _ => FailsOnData.ok _

theorem failsOnData_commandOf (params : Json) : FailsOnData (commandOf params) := by
  refine params.failsOnData_count.bind fun n => ?_
  split
  · exact (params.failsOnData_item 1).bind fun _ => FailsOnData.ok _
  · exact FailsOnData.ok _

theorem failsOnData_argsOf (params : Json) : FailsOnData (argsOf params) := by
  refine params.failsOnData_count.bind fun n => ?_
  split
  · refine (params.failsOnData_item 3).bind fun v => ?_
    split <;> exact FailsOnData.ok _
  · exact FailsOnData.ok _

theorem failsOnData_ofCommand? (plugin : String) (command : Json) :
    FailsOnData (ofCommand? plugin command) := by
  unfold ofCommand?
  split
  · split
    · refine (failsOnData_pluginOf _).bind fun name => ?_
      split
      · exact (failsOnData_commandOf _).bind fun _ => (failsOnData_argsOf _).bind fun _ =>
          FailsOnData.ok _
      · exact FailsOnData.ok _
    · exact FailsOnData.ok _
  · exact FailsOnData.ok _

end PluginCall

theorem Weight.failsOnData_read (args : Json) : FailsOnData (Weight.read args).result := by
  unfold Weight.read
  dsimp only
  split
  · exact FailsOnData.ok _
  · split <;> exact FailsOnData.ok _

namespace EventCommand

theorem failsOnData_read (command : Json) : FailsOnData (read command).result := by
  unfold read
  split
  · refine Reading.failsOnData_bind (Json.failsOnData_toInt _) fun indent => ?_
    refine Reading.failsOnData_bind (PluginCall.failsOnData_ofCommand? layerName (.obj _)) fun call => ?_
    refine Reading.failsOnData_bind ?_ fun mark => FailsOnData.ok _
    unfold WeightMark.read
    split
    · split
      · exact Reading.failsOnData_bind (Weight.failsOnData_read _) fun _ => FailsOnData.ok _
      · split <;> exact FailsOnData.ok _
    · exact FailsOnData.ok _
  · exact FailsOnData.ok _
  · exact FailsOnData.ok _

theorem failsOnData_readItems (commands : List Json) : FailsOnData (readItems commands).result := by
  induction commands with
  | nil => exact FailsOnData.ok _
  | cons c rest ih =>
      exact Reading.failsOnData_bind (failsOnData_read c) fun _ =>
        Reading.failsOnData_bind ih fun _ => FailsOnData.ok _

/-- **A list of commands is unreadable for its own data only.** -/
theorem failsOnData_readList (list : Json) : FailsOnData (readList list).result :=
  Reading.failsOnData_bind (Json.failsOnData_elements _) failsOnData_readItems

end EventCommand

/-! ### Operations -/

namespace Play

/-- An operation that fails, from any session, for broken data only. -/
def FailsOnData (act : Play α) : Prop := ∀ s e t, act s = .error e t → e.isOwn = false

theorem FailsOnData.bind {x : Play α} {f : α → Play β} (hx : x.FailsOnData)
    (hf : ∀ a, (f a).FailsOnData) : (x >>= f).FailsOnData := by
  intro s e t h
  rw [bind_apply] at h
  cases hrun : x s with
  | ok a u =>
      rw [hrun] at h
      exact hf a u e t h
  | error e' u =>
      rw [hrun] at h
      cases h
      exact hx s _ _ hrun

theorem failsOnData_pure (a : α) : (pure a : Play α).FailsOnData := by
  intro s e t h
  cases h

theorem failsOnData_modify (g : Session → Session) : (modify g : Play PUnit).FailsOnData := by
  intro s e t h
  cases h

theorem failsOnData_getBind {f : Session → Play β} (h : ∀ s, (f s).FailsOnData) :
    (get >>= f : Play β).FailsOnData := fun s => h s s

theorem failsOnData_reading {r : Reading α} (h : EventLayer.FailsOnData r.result) :
    (liftM r : Play α).FailsOnData := by
  intro s e t hfail
  cases hr : r.result with
  | ok a =>
      rw [lift_reading_of_ok hr s] at hfail
      cases hfail
  | error e' =>
      rw [lift_reading_of_error hr s] at hfail
      cases hfail
      exact (h _ hr).1

end Play

end EventLayer
