/-
**Command lists go forward.**

Where no command is indented below zero, the jump table of a list is complete: every set of branches ends,
at the latest where the list ends, so that every marker leads to a later position.  And then whatever a
command does, its list goes on behind it.  With a negative indentation a set can stay open, and the marker
of its latest branch leads back to the start of the list.

Main definitions:

* `Indented` — lists without negative indentation;
* `WeightTable.IsForward` — tables whose markers lead to later positions;
* `Instruction.Weighs` — instructions that give a branch its weight;
* `Frame.LeadsTo` — the positions at which a list can go on;
* `Frame.Passes` — those of them that do not lie at the end of a jump.

Main results:

* `WeightTable.isForward_build` — **the table of an indented list leads forward**;
* `Play.carryOut_passes` — a command that is no weight command does not jump;
* `Play.carryOut_leadsTo`, `Frame.LeadsTo.lt` — **a list goes on behind the command that it has carried
  out**.
-/
import EventLayer.Proofs.Preserves
import EventLayer.Proofs.Results
import EventLayer.Proofs.Weights.Pass
import EventLayer.Session.Run

set_option autoImplicit false
set_option relaxedAutoImplicit false

namespace EventLayer

/-- A list in which no command is indented below zero. -/
def Indented (l : List EventCommand) : Prop := ∀ c ∈ l, 0 ≤ c.indent

instance : DecidablePred Indented := fun l => inferInstanceAs (Decidable (∀ c ∈ l, 0 ≤ c.indent))

/-- An instruction that gives a branch its weight. -/
def Instruction.Weighs (i : Instruction) : Prop :=
  ∃ call, i = .plugin call ∧ LayerCommand.registry.lookup? call = some .weight

namespace WeightTable

/-- A table whose markers lead to later positions. -/
def IsForward (t : WeightTable) : Prop := ∀ m ∈ t.markers, m.index < m.nextStop

/-- **The table of an indented list leads forward.** -/
theorem isForward_build {l : List EventCommand} (hl : Indented l) : (build l).IsForward := by
  intro m hm
  rcases marker_jumps hm with ⟨⟨c, hc, -, hneg, -⟩, -⟩ | ⟨-, hlt⟩
  · have hdepth := hl c (List.mem_of_getElem? hc)
    omega
  · exact hlt

end WeightTable

/-! ### Where a list goes on -/

namespace Frame

/-- A position at which a command list can go on after a command. -/
inductive LeadsTo (f : Frame) : Int → Prop
  /-- Behind the command, or behind what belongs to it. -/
  | past (n : Nat) : LeadsTo f (f.index + 1 + n)
  /-- The end of the list. -/
  | out : LeadsTo f f.list.length
  /-- The place to which the marker leads that stands at the position of the list. -/
  | jump {m : Marker} : m ∈ f.table.markers → (m.index : Int) = f.index → LeadsTo f m.nextStop

/-- A position behind a command and what belongs to it. -/
inductive Passes (f : Frame) : Int → Prop
  | behind (n : Nat) : Passes f (f.index + 1 + n)
  | out : Passes f f.list.length

/-- Where a list jumps to, if it does. -/
def Jumps (f : Frame) (jump : Option Nat) : Prop := ∀ stop : Nat, jump = some stop → f.LeadsTo stop

variable {f : Frame} {next : Int}

/-- **A list whose table leads forward goes forward.** -/
theorem LeadsTo.lt (h : f.LeadsTo next) (hforward : f.table.IsForward)
    (hwithin : f.index < f.list.length) : f.index < next := by
  cases h with
  | past n => omega
  | out => exact hwithin
  | jump hm hindex =>
      have := hforward _ hm
      omega

theorem Passes.leadsTo (h : f.Passes next) : f.LeadsTo next := by
  cases h with
  | behind n => exact .past n
  | out => exact .out

theorem Passes.lt (h : f.Passes next) (hwithin : f.index < f.list.length) : f.index < next := by
  cases h with
  | behind n => omega
  | out => exact hwithin

theorem LeadsTo.nonneg (h : f.LeadsTo next) (hindex : -1 ≤ f.index) : 0 ≤ next := by
  cases h with
  | past n => omega
  | out => omega
  | jump hm hm' => omega

end Frame

/-! ### Carrying out commands -/

namespace Play

open Session

section Yields

variable {α β : Type} {Q : α → Prop} {s : Session}

/-- The result of an operation, if it comes to one, has a property. -/
def Yields (Q : α → Prop) (act : Play α) (s : Session) : Prop := ∀ a t, act s = .ok a t → Q a

theorem yields_pure {a : α} (h : Q a) : (pure a : Play α).Yields Q s := by
  intro b t hb
  cases hb
  exact h

theorem yields_bind {x : Play β} {f : β → Play α} (h : ∀ b u, x s = .ok b u → (f b).Yields Q u) :
    (x >>= f).Yields Q s := by
  intro a t ha
  obtain ⟨b, u, hb, ha⟩ := bind_eq_ok ha
  exact h b u hb a t ha

theorem yields_ite {c : Prop} [Decidable c] {x y : Play α} (hx : x.Yields Q s)
    (hy : y.Yields Q s) : (if c then x else y).Yields Q s := by
  split
  · exact hx
  · exact hy

end Yields

variable {d : Nat} {s : Session}

/-- A weight command jumps where its marker leads. -/
theorem weigh_leadsTo : (weigh d).Yields (s.frame d).Jumps s := by
  refine yields_bind fun _ u hget => ?_
  cases hget
  dsimp only
  split
  · exact yields_bind fun _ _ _ => yields_pure nofun
  · next m hm =>
      have hmarker : (s.frame d).LeadsTo (m.nextStop : Int) := by
        have hindex : (m.index : Int) = (s.frame d).index := by simpa using List.find?_some hm
        exact .jump (List.mem_of_find?_eq_some hm) hindex
      have hjump : ∀ chosen : Nat, (s.frame d).Jumps
          (if (chosen : Int) = (s.frame d).index then none else some m.nextStop) := by
        intro chosen stop hstop
        split at hstop
        · cases hstop
        · cases hstop
          exact hmarker
      split
      · exact yields_bind fun _ _ _ => yields_pure nofun
      · split
        · exact yields_pure (hjump _)
        · exact yields_bind fun _ _ _ => yields_bind fun _ _ _ => yields_pure (hjump _)

/-- Of the commands of this layer only a weight command jumps. -/
theorem carryOutOwn_stays {c : LayerCommand} (hc : c ≠ .weight) (args : OrderedMap String Json) :
    (carryOutOwn d c args).Yields (· = none) s := by
  cases c with
  | weight => exact absurd rfl hc
  | triggerMarker => exact yields_pure rfl
  | _ => exact yields_bind fun _ _ _ => yields_pure rfl

theorem carryOutCall_stays {call : PluginCall} (h : LayerCommand.registry.lookup? call ≠ some .weight) :
    (carryOutCall d call).Yields (· = none) s := by
  unfold carryOutCall
  split
  · next c hc => exact carryOutOwn_stays (fun hweight => h (hweight ▸ hc)) _
  · exact yields_pure rfl

/-- **A command that is no weight command lets its list go on behind it**, or at the end of the list. -/
theorem carryOut_passes {i : Instruction} (h : ¬i.Weighs) :
    (carryOut d i).Yields (s.frame d).Passes s := by
  have hnext : (s.frame d).Passes ((s.frame d).index + 1) := by
    simpa using Frame.Passes.behind (f := s.frame d) 0
  refine yields_bind fun _ u hget => ?_
  cases hget
  dsimp only
  split
  · exact yields_bind fun _ _ _ => yields_bind fun _ _ _ => yields_pure (.behind _)
  · refine yields_bind fun _ _ _ => yields_bind fun _ _ _ => yields_ite (yields_pure hnext) ?_
    exact yields_bind fun _ _ _ => yields_pure (.behind _)
  · exact yields_ite (yields_pure hnext) (yields_bind fun _ _ _ => yields_pure (.behind _))
  · exact yields_pure .out
  · refine yields_bind fun jump u hcall => ?_
    have hstays := carryOutCall_stays (fun hweight => h ⟨_, rfl, hweight⟩) _ _ hcall
    subst hstays
    exact yields_pure hnext
  · exact yields_bind fun _ _ _ => yields_pure hnext

/-- A weight command lets its list go on behind it, or jumps. -/
theorem carryOut_weighs {call : PluginCall} (h : LayerCommand.registry.lookup? call = some .weight)
    (s : Session) : carryOut d (.plugin call) s = (do
      match ← weigh d with
      | some stop => return stop
      | none => return (s.frame d).index + 1 : Play Int) s := by
  rw [carryOut, get_bind_apply]
  dsimp only
  rw [carryOutCall, h]
  rfl

/-- **A command lets its list go on behind it**, at the end of the list or where a marker leads. -/
theorem carryOut_leadsTo (i : Instruction) : (carryOut d i).Yields (s.frame d).LeadsTo s := by
  by_cases hweighs : i.Weighs
  · obtain ⟨call, rfl, hcall⟩ := hweighs
    intro next u h
    rw [carryOut_weighs hcall] at h
    obtain ⟨jump, v, hweighed, h⟩ := bind_eq_ok h
    have hjump := weigh_leadsTo _ _ hweighed
    cases jump with
    | some stop =>
        cases h
        exact hjump _ rfl
    | none =>
        cases h
        simpa using Frame.LeadsTo.past (f := s.frame d) 0
  · exact fun next u h => (carryOut_passes hweighs next u h).leadsTo

end Play

end EventLayer
