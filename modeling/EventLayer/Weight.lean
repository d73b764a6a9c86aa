/-
**Weights of random branches.**

An author gives the branches of a random choice weights, as texts.  A weight that is no number or
not positive counts as zero and leaves a notice.  A draw between zero and the total of the weights
falls on the first branch at which the running sum of the weights exceeds it.

Main definitions:

* `Weight.read` — a weight from the arguments of a call;
* `BranchSet` — the branches of one choice with their weights;
* `BranchSet.total`, `BranchSet.select?` — the total of the weights, and the branch of a draw.

Main results:

* `firstExceeding_nil` — no item, no choice.
-/
import EventLayer.Reading
import EventLayer.PluginCall

set_option autoImplicit false
set_option relaxedAutoImplicit false

namespace EventLayer

/-- The value that arguments give as a weight: the argument itself where they are no object. -/
def Weight.raw (args : Json) : Json :=
  match args with
  | .obj fields => PluginCall.argD ⟨fields⟩ ["weight", "Weight"] (.int 0)
  | v => v

/-- The weight that a call gives; what is no number or not positive counts as zero. -/
def Weight.read (args : Json) : Reading Double :=
  let raw := Weight.raw args
  match raw.decimal? with
  | none => do
    Reading.note (.weightNotNumeric raw)
    return .finite 0
  | some w =>
    if w.atMost (.finite 0) then do
      Reading.note (.weightNotPositive w)
      return .finite 0
    else return w

/-- The first of several weighted items at which the running sum, starting from `acc`, exceeds a
draw. -/
def firstExceeding {α ι : Type} [Add α] [LT α] [DecidableLT α] (draw acc : α) :
    List (ι × α) → Option ι
  | [] => none
  | (i, w) :: rest => if draw < acc + w then some i else firstExceeding draw (acc + w) rest

theorem firstExceeding_nil {α ι : Type} [Add α] [LT α] [DecidableLT α] (draw acc : α) :
    firstExceeding draw acc ([] : List (ι × α)) = none := rfl

/-- The branches of one random choice, by the positions of their markers. -/
structure BranchSet where
  depth : Int
  branches : List Nat := []
  weights : List Double := []
  endIndex : Option Nat := none
deriving Repr

namespace BranchSet

/-- The sum of the weights, added from left to right. -/
def total (s : BranchSet) : Double := s.weights.foldl (· + ·) (.finite 0)

/-- The branch that a draw falls on; a draw beyond all sums falls on the last. -/
def select? (s : BranchSet) (draw : Double) : Option Nat :=
  (firstExceeding draw (.finite 0) (s.branches.zip s.weights)).or s.branches.getLast?

end BranchSet

end EventLayer
