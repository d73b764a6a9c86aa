/-
**Event programs as trees.**

The editor writes the commands of an event as one flat list, but an author means a tree: a block is
a sequence of plain commands, conditionals with a block for each outcome, and random choices among
weighted bodies.  A body stands at the indentation of its choice, so that a choice inside a body has
to stand in the arm of a conditional; the type of a block says whether it may hold choices of its
own.

What a tree does is said here without positions, indentations, jump tables or memory of choices: a
conditional tests its condition once and runs one arm, and a choice takes at most one draw and runs
one body.

Main definitions:

* `Program.Leaf`, `Program.Block`, `Program.Otherwise`, `Program.Arms` — the trees;
* `Program.Block.flatten` — the list that the editor writes;
* `Program.Block.commands` — the list as it is read;
* `Program.pick`, `Program.Block.run` — what a tree does.

Main results:

* `Program.pick_of_not_atMost`, `Program.pick_of_atMost` — how many draws a choice takes;
* `Program.pick_eq_ok` — a choice falls on one of its bodies.
-/
import EventLayer.Session.Commands

set_option autoImplicit false
set_option relaxedAutoImplicit false

namespace EventLayer.Program

/-! ### Trees -/

/-- The codes of commands that have no parts and lead nowhere else. -/
def plainCodes : List Int := [121, 122, 123, 125, 126, 127, 128, 230, 250]

/-- A command without commands inside it. -/
inductive Leaf where
  | plain (code : Int) (isPlain : code ∈ plainCodes) (params : Json)
  /-- A text, with the parameters of each of its lines. -/
  | text (params : Json) (lines : List Json)

mutual

/-- A sequence of commands, which may hold choices of its own or may not. -/
inductive Block : Bool → Type where
  | nil {choices : Bool} : Block choices
  | leaf {choices : Bool} (l : Leaf) (rest : Block choices) : Block choices
  | branch {choices : Bool} (params : Json) (yes : Block true) (no : Otherwise)
      (rest : Block choices) : Block choices
  /-- A random choice among a body and further ones, each under its weight. -/
  | choice (weight : Json) (body : Block false) (more : Arms) (rest : Block true) : Block true

/-- What a conditional does where its condition fails. -/
inductive Otherwise : Type where
  | absent
  | present (b : Block true)

/-- The further bodies of a random choice. -/
inductive Arms : Type where
  | done
  | arm (weight : Json) (body : Block false) (others : Arms)

end

/-! ### What the editor writes -/

/-- A command as the editor writes it. -/
def commandAt (d code : Int) (params : Json) : Json :=
  .obj [("code", .int code), ("indent", .int d), ("parameters", params)]

/-- The parameters of a weight command. -/
def weightParams (weight : Json) : Json :=
  .arr [.str layerName, .str weightCommand, .str "", .obj [("weight", weight)]]

/-- The parameters of the command that closes a choice. -/
def endParams : Json := .arr [.str layerName, .str endCommand, .str "", .obj []]

/-- The commands of a leaf. -/
def Leaf.flatten (d : Int) : Leaf → List Json
  | .plain code _ params => [commandAt d code params]
  | .text params lines => commandAt d 101 params :: lines.map (commandAt d 401)

mutual

/-- The commands of a block at an indentation. -/
def Block.flatten (d : Int) : {choices : Bool} → Block choices → List Json
  | _, .nil => []
  | _, .leaf l rest => l.flatten d ++ rest.flatten d
  | _, .branch params yes no rest =>
    commandAt d 111 params :: (yes.flatten (d + 1) ++ commandAt (d + 1) 0 (.arr []) ::
      (no.flatten d ++ commandAt d 412 (.arr []) :: rest.flatten d))
  | _, .choice weight body more rest =>
    commandAt d 357 (weightParams weight) :: (body.flatten d ++
      (more.flatten d ++ commandAt d 357 endParams :: rest.flatten d))

/-- The commands of an alternative to a conditional at an indentation. -/
def Otherwise.flatten (d : Int) : Otherwise → List Json
  | .absent => []
  | .present b =>
    commandAt d 411 (.arr []) :: (b.flatten (d + 1) ++ [commandAt (d + 1) 0 (.arr [])])

/-- The commands of further bodies of a choice at an indentation. -/
def Arms.flatten (d : Int) : Arms → List Json
  | .done => []
  | .arm weight body others =>
    commandAt d 357 (weightParams weight) :: (body.flatten d ++ others.flatten d)

end

/-! ### The list as it is read -/

/-- The parameters of a command, none where they are blank. -/
def given (params : Json) : Json := params.orElse (.arr [])

/-- The instruction of a plain command. -/
def instructionOf (code : Int) (params : Json) : Instruction :=
  match Instruction.read (some code) (given params) with
  | .ok i => i
  | .error e => .faulty e

/-- The text of a line. -/
def lineOf (params : Json) : Except Fault String := (param (given params) 0 (.str "")).map Json.text

/-- The condition of a conditional. -/
def conditionOf (params : Json) : BranchCondition := BranchCondition.ofParams (given params)

/-- The value of a weight. -/
def weightOf (weight : Json) : Double :=
  match (Weight.read (.obj [("weight", weight)])).result with
  | .ok w => w
  | .error _ => .finite 0

/-- The commands of a leaf as they are read. -/
def Leaf.commands (d : Int) : Leaf → List EventCommand
  | .plain code _ params => [{ indent := d, instruction := instructionOf code params }]
  | .text _ lines =>
    { indent := d, instruction := .showText } ::
      lines.map fun l => { indent := d, instruction := .textLine (lineOf l) }

/-- A conditional. -/
def branchAt (d : Int) (params : Json) : EventCommand :=
  { indent := d, instruction := .branch (conditionOf params) }

/-- The alternative to a conditional. -/
def otherwiseAt (d : Int) : EventCommand := { indent := d, instruction := .otherwise }

/-- The end of a block or of a conditional. -/
def idleAt (d : Int) : EventCommand := { indent := d, instruction := .idle }

/-- A weight command. -/
def weightAt (d : Int) (weight : Json) : EventCommand where
  indent := d
  instruction := .plugin ⟨layerName, weightCommand, ⟨[("weight", weight)]⟩⟩
  mark := .weight (weightOf weight)

/-- The command that closes a choice. -/
def endAt (d : Int) : EventCommand where
  indent := d
  instruction := .plugin ⟨layerName, endCommand, ∅⟩
  mark := .close

mutual

/-- The commands of a block as they are read. -/
def Block.commands (d : Int) : {choices : Bool} → Block choices → List EventCommand
  | _, .nil => []
  | _, .leaf l rest => l.commands d ++ rest.commands d
  | _, .branch params yes no rest =>
    branchAt d params :: (yes.commands (d + 1) ++ idleAt (d + 1) ::
      (no.commands d ++ idleAt d :: rest.commands d))
  | _, .choice weight body more rest =>
    weightAt d weight :: (body.commands d ++ (more.commands d ++ endAt d :: rest.commands d))

/-- The commands of an alternative as they are read. -/
def Otherwise.commands (d : Int) : Otherwise → List EventCommand
  | .absent => []
  | .present b => otherwiseAt d :: (b.commands (d + 1) ++ [idleAt (d + 1)])

/-- The commands of further bodies as they are read. -/
def Arms.commands (d : Int) : Arms → List EventCommand
  | .done => []
  | .arm weight body others => weightAt d weight :: (body.commands d ++ others.commands d)

end

/-! ### What a tree does -/

/-- The texts of several lines. -/
def linesOf : List Json → Except Fault (List String)
  | [] => .ok []
  | l :: rest => return (← lineOf l) :: (← linesOf rest)

theorem length_linesOf {lines : List Json} {texts : List String} (h : linesOf lines = .ok texts) :
    texts.length = lines.length := by
  induction lines generalizing texts with
  | nil =>
      cases h
      rfl
  | cons l rest ih =>
      rw [linesOf] at h
      cases hl : lineOf l with
      | error e =>
          rw [hl] at h
          cases h
      | ok text =>
          cases hr : linesOf rest with
          | error e =>
              rw [hl, hr] at h
              cases h
          | ok more =>
              rw [hl, hr] at h
              cases h
              rw [List.length_cons, List.length_cons, ih hr]

/-- Carry out a plain instruction.  Waiting does nothing to a game: it only lets frames pass. -/
def runPlain : Instruction → Play Unit
  | .wait _ => pure ()
  | i => Play.carryOutPlain 0 i

theorem runPlain_of_ne_wait {i : Instruction} (h : ∀ n, i ≠ .wait n) :
    runPlain i = Play.carryOutPlain 0 i := by
  unfold runPlain
  split
  · exact absurd rfl (h _)
  · rfl

/-- Run a leaf. -/
def Leaf.run : Leaf → Play Unit
  | .plain code _ params => runPlain (instructionOf code params)
  | .text _ lines => do Play.showText ("\n".intercalate (← linesOf lines))

/-- The sum of weights. -/
def total (weights : List Double) : Double := weights.foldl (· + ·) (.finite 0)

/-- The weight that a draw falls on; a draw beyond all sums falls on the last. -/
def fallsOn (draw : Double) (weights : List Double) : Nat :=
  (firstExceeding draw (.finite 0) ((List.range weights.length).zip weights)).getD
    (weights.length - 1)

/-- Draw one of several bodies by their weights: without a positive total the first, and no draw is
taken. -/
def pick (d : Int) (weights : List Double) : Play Nat := do
  if (total weights).atMost (.finite 0) then
    Play.note (.noPositiveWeight d)
    return 0
  let s ← get
  let (x, draws) := s.draws.fraction
  modify fun s => { s with draws }
  return fallsOn (x * total weights) weights

theorem mem_of_firstExceeding {α ι : Type} [Add α] [LT α] [DecidableLT α] {draw acc : α} {i : ι}
    {l : List (ι × α)} (h : firstExceeding draw acc l = some i) : i ∈ l.map Prod.fst := by
  induction l generalizing acc with
  | nil => cases h
  | cons e rest ih =>
      obtain ⟨j, w⟩ := e
      rw [firstExceeding] at h
      split at h
      · cases h
        simp
      · exact List.mem_cons_of_mem _ (ih h)

theorem fallsOn_lt (draw : Double) {weights : List Double} (h : weights ≠ []) :
    fallsOn draw weights < weights.length := by
  have hpos := List.length_pos_iff.2 h
  unfold fallsOn
  cases hf : firstExceeding draw (.finite 0) ((List.range weights.length).zip weights) with
  | none =>
      simp only [Option.getD_none]
      omega
  | some n =>
      have hmem := mem_of_firstExceeding hf
      rw [List.map_fst_zip (by simp)] at hmem
      exact List.mem_range.1 hmem

/-- Without a positive total a choice takes no draw and falls on its first body. -/
theorem pick_of_atMost {d : Int} {weights : List Double}
    (h : (total weights).atMost (.finite 0) = true) (s : Session) :
    pick d weights s = .ok 0 { s with notices := s.notices ++ [.noPositiveWeight d] } := by
  rw [pick, if_pos h]
  rfl

/-- With a positive total a choice takes exactly one draw. -/
theorem pick_of_not_atMost {d : Int} {weights : List Double}
    (h : (total weights).atMost (.finite 0) = false) (s : Session) :
    pick d weights s = .ok (fallsOn (s.draws.fraction.1 * total weights) weights)
      { s with draws := s.draws.fraction.2 } := by
  rw [pick, if_neg (by rw [h]; exact Bool.false_ne_true)]
  rfl

/-- A choice always falls on one of its bodies. -/
theorem pick_eq_ok (d : Int) {weights : List Double} (h : weights ≠ []) (s : Session) :
    ∃ n < weights.length, ∃ t, pick d weights s = .ok n t := by
  cases ht : (total weights).atMost (.finite 0) with
  | true => exact ⟨0, List.length_pos_iff.2 h, _, pick_of_atMost ht s⟩
  | false => exact ⟨_, fallsOn_lt _ h, _, pick_of_not_atMost ht s⟩

/-- The weights of further bodies. -/
def Arms.weights : Arms → List Double
  | .done => []
  | .arm weight _ others => weightOf weight :: others.weights

mutual

/-- Run a block that stands at an indentation. -/
def Block.run (d : Int) : {choices : Bool} → Block choices → Play Unit
  | _, .nil => pure ()
  | _, .leaf l rest => do
    l.run
    rest.run d
  | _, .branch params yes no rest => do
    let holds ← Play.test 0 (conditionOf params)
    let arm : Play Unit := if holds then yes.run (d + 1) else no.run d
    arm
    rest.run d
  | _, .choice weight body more rest => do
    let n ← pick d (weightOf weight :: more.weights)
    let chosen : Play Unit := match n with
      | 0 => body.run d
      | n + 1 => more.run d n
    chosen
    rest.run d

/-- Run the alternative to a conditional. -/
def Otherwise.run (d : Int) : Otherwise → Play Unit
  | .absent => pure ()
  | .present b => b.run (d + 1)

/-- Run one of several further bodies. -/
def Arms.run (d : Int) : Arms → Nat → Play Unit
  | .done, _ => pure ()
  | .arm _ body _, 0 => body.run d
  | .arm _ _ others, n + 1 => others.run d n

end

/-! ### Numbers of commands -/

/-- The number of commands of a leaf. -/
def Leaf.size : Leaf → Nat
  | .plain .. => 1
  | .text _ lines => lines.length + 1

mutual

/-- The number of commands of a block. -/
def Block.size : {choices : Bool} → Block choices → Nat
  | _, .nil => 0
  | _, .leaf l rest => l.size + rest.size
  | _, .branch _ yes no rest => 1 + yes.size + 1 + no.size + 1 + rest.size
  | _, .choice _ body more rest => 1 + body.size + more.size + 1 + rest.size

/-- The number of commands of an alternative. -/
def Otherwise.size : Otherwise → Nat
  | .absent => 0
  | .present b => 1 + b.size + 1

/-- The number of commands of further bodies. -/
def Arms.size : Arms → Nat
  | .done => 0
  | .arm _ body others => 1 + body.size + others.size

end

@[simp] theorem Leaf.length_commands (d : Int) (l : Leaf) : (l.commands d).length = l.size := by
  cases l <;> simp [commands, size]

mutual

@[simp] theorem Block.length_commands (d : Int) : {choices : Bool} → (b : Block choices) →
    (b.commands d).length = b.size
  | _, .nil => rfl
  | _, .leaf l rest => by
    have := rest.length_commands d
    simp [Block.commands, Block.size, this]
  | _, .branch _ yes no rest => by
    have hy := yes.length_commands (d + 1)
    have hn := no.length_commands d
    have hr := rest.length_commands d
    simp only [Block.commands, Block.size, List.length_cons, List.length_append, hy, hn, hr]
    omega
  | _, .choice _ body more rest => by
    have hb := body.length_commands d
    have hm := more.length_commands d
    have hr := rest.length_commands d
    simp only [Block.commands, Block.size, List.length_cons, List.length_append, hb, hm, hr]
    omega

@[simp] theorem Otherwise.length_commands (d : Int) : (o : Otherwise) →
    (o.commands d).length = o.size
  | .absent => rfl
  | .present b => by
    have := b.length_commands (d + 1)
    simp only [Otherwise.commands, Otherwise.size, List.length_cons, List.length_append, this,
      List.length_nil]
    omega

@[simp] theorem Arms.length_commands (d : Int) : (a : Arms) → (a.commands d).length = a.size
  | .done => rfl
  | .arm _ body others => by
    have hb := body.length_commands d
    have ho := others.length_commands d
    simp only [Arms.commands, Arms.size, List.length_cons, List.length_append, hb, ho]
    omega

end

end EventLayer.Program
