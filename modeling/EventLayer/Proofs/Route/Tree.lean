/-
**Route bodies as trees.**

The editor writes a route as a flat list, but it means a tree: a body is a sequence of steps, effects
and chains of branches, and a chain is an opening marker with its branch, further alternatives with
theirs, and a closing marker.  What a passage through a body does is said here of the tree, without
positions or jumps: in each chain at most one branch is gone through, the first whose condition is
true or absent, and no condition behind it is asked.

Main definitions:

* `RouteBody`, `RouteArms` — bodies and the alternatives of a chain;
* `RouteBody.steps` — the flat list;
* `Deed` — what is done on the way;
* `RouteBody.Passes` — the deeds of a complete passage.

Main results:

* `RouteBody.exists_passes` — through every body there is a passage.
-/
import EventLayer.Route

set_option autoImplicit false
set_option relaxedAutoImplicit false

namespace EventLayer

mutual

/-- A sequence of steps, effects and chains of branches. -/
inductive RouteBody where
  | nil
  | move (m : Move) (rest : RouteBody)
  /-- A script line that is no branch marker. -/
  | effect (line : RouteInstruction) (plain : line.marker? = none) (rest : RouteBody)
  | chain (c : RouteCondition) (branch : RouteBody) (arms : RouteArms) (rest : RouteBody)

/-- The alternatives of a chain, those behind its first branch. -/
inductive RouteArms where
  | done
  | arm (c : Option RouteCondition) (branch : RouteBody) (others : RouteArms)

end

/-! ### The flat list -/

mutual

/-- The steps of a body as the editor writes them. -/
def RouteBody.steps : RouteBody → List RouteStep
  | .nil => []
  | .move m rest => .move m :: rest.steps
  | .effect line _ rest => .script line :: rest.steps
  | .chain c branch arms rest =>
    .script (.openIf c) :: (branch.steps ++ (arms.steps ++ .script .endIf :: rest.steps))

/-- The steps of the alternatives of a chain, up to the closing marker. -/
def RouteArms.steps : RouteArms → List RouteStep
  | .done => []
  | .arm c branch others => .script (.orElse c) :: (branch.steps ++ others.steps)

end

/-- The number of steps of a body. -/
def RouteBody.size (b : RouteBody) : Nat := b.steps.length

/-- The number of steps of the alternatives of a chain. -/
def RouteArms.size (a : RouteArms) : Nat := a.steps.length

namespace RouteBody

@[simp] theorem size_nil : nil.size = 0 := by simp [size, steps]

@[simp] theorem size_move (m : Move) (rest : RouteBody) : (move m rest).size = rest.size + 1 := by
  simp [size, steps]

@[simp] theorem size_effect (line : RouteInstruction) (h : line.marker? = none)
    (rest : RouteBody) : (effect line h rest).size = rest.size + 1 := by
  simp [size, steps]

@[simp] theorem size_chain (c : RouteCondition) (branch : RouteBody) (arms : RouteArms)
    (rest : RouteBody) :
    (chain c branch arms rest).size = branch.size + arms.size + rest.size + 2 := by
  simp only [size, RouteArms.size, steps, List.length_cons, List.length_append]
  omega

end RouteBody

namespace RouteArms

@[simp] theorem size_done : done.size = 0 := by simp [size, steps]

@[simp] theorem size_arm (c : Option RouteCondition) (branch : RouteBody) (others : RouteArms) :
    (arm c branch others).size = branch.size + others.size + 1 := by
  simp [size, RouteBody.size, steps]

end RouteArms

/-! ### Passages -/

/-- What is done on the way through a route. -/
inductive Deed where
  /-- A condition was asked. -/
  | asked (c : RouteCondition) (answer : Bool)
  /-- A script line that is no marker was carried out. -/
  | acted (line : RouteInstruction)
  /-- A step was taken; one that was blocked, and may not be skipped, is not passed. -/
  | took (m : Move) (passed : Bool)

mutual

/-- The deeds of a complete passage through a body. -/
inductive RouteBody.Passes : RouteBody → List Deed → Prop
  | nil : RouteBody.nil.Passes []
  | move {m : Move} {rest : RouteBody} {l : List Deed} (h : rest.Passes l) :
      (RouteBody.move m rest).Passes (.took m true :: l)
  /-- A blocked step is tried again. -/
  | again {m : Move} {rest : RouteBody} {l : List Deed} (h : (RouteBody.move m rest).Passes l) :
      (RouteBody.move m rest).Passes (.took m false :: l)
  | effect {line : RouteInstruction} {plain : line.marker? = none} {rest : RouteBody}
      {l : List Deed} (h : rest.Passes l) :
      (RouteBody.effect line plain rest).Passes (.acted line :: l)
  | entered {c : RouteCondition} {branch rest : RouteBody} {arms : RouteArms} {l l' : List Deed}
      (h : branch.Passes l) (h' : rest.Passes l') :
      (RouteBody.chain c branch arms rest).Passes (.asked c true :: (l ++ l'))
  | refused {c : RouteCondition} {branch rest : RouteBody} {arms : RouteArms} {l l' : List Deed}
      (h : arms.Passes l) (h' : rest.Passes l') :
      (RouteBody.chain c branch arms rest).Passes (.asked c false :: (l ++ l'))

/-- The deeds of a complete passage through the alternatives of a chain none of whose branches has
been taken. -/
inductive RouteArms.Passes : RouteArms → List Deed → Prop
  | done : RouteArms.done.Passes []
  | always {branch : RouteBody} {others : RouteArms} {l : List Deed} (h : branch.Passes l) :
      (RouteArms.arm none branch others).Passes l
  | entered {c : RouteCondition} {branch : RouteBody} {others : RouteArms} {l : List Deed}
      (h : branch.Passes l) : (RouteArms.arm (some c) branch others).Passes (.asked c true :: l)
  | refused {c : RouteCondition} {branch : RouteBody} {others : RouteArms} {l : List Deed}
      (h : others.Passes l) : (RouteArms.arm (some c) branch others).Passes (.asked c false :: l)

end

/-- Through every body there is a passage. -/
theorem RouteBody.exists_passes : (b : RouteBody) → ∃ l, b.Passes l
  | .nil => ⟨[], .nil⟩
  | .move m rest =>
    have ⟨l, h⟩ := rest.exists_passes
    ⟨.took m true :: l, .move h⟩
  | .effect line _ rest =>
    have ⟨l, h⟩ := rest.exists_passes
    ⟨.acted line :: l, .effect h⟩
  | .chain c branch _ rest =>
    have ⟨l, h⟩ := branch.exists_passes
    have ⟨l', h'⟩ := rest.exists_passes
    ⟨.asked c true :: (l ++ l'), .entered h h'⟩

/-- Through the alternatives of a chain there is a passage. -/
theorem RouteArms.exists_passes : (a : RouteArms) → ∃ l, a.Passes l
  | .done => ⟨[], .done⟩
  | .arm none branch _ =>
    have ⟨l, h⟩ := branch.exists_passes
    ⟨l, .always h⟩
  | .arm (some c) branch _ =>
    have ⟨l, h⟩ := branch.exists_passes
    ⟨.asked c true :: l, .entered h⟩

end EventLayer
