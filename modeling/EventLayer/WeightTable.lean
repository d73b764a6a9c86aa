/-
**The jump table of random branches.**

The branches of a random choice stand one after the other at the same indentation, each opened by a
weight command, and a closing command ends the set.  A set also ends where the indentation falls
below its own.  One pass over a command list finds the sets and, for each weight command, where to
go on when its branch is not the one chosen.

Main definitions:

* `Marker` — a weight or closing command with the place to go on at;
* `WeightTable.build` — the table of a command list;
* `WeightTable.marker?` — the marker at a position.

Main results:

* `WeightTable.build_nil` — an empty list has no markers.
-/
import EventLayer.Command

set_option autoImplicit false
set_option relaxedAutoImplicit false

namespace EventLayer

/-- A weight or closing command of a list. -/
structure Marker where
  index : Nat
  depth : Int
  isEnd : Bool
  /-- The number of the set it belongs to, in the order in which sets open. -/
  set : Option Nat
  /-- Where to go on when the branch is not taken. -/
  nextStop : Nat := 0
deriving Repr, DecidableEq

/-- A set whose closing command has not been met, with its latest weight command. -/
structure OpenSet where
  depth : Int
  set : Nat
  latest : Nat
deriving Repr, DecidableEq

/-- The sets and markers of a command list. -/
structure WeightTable where
  sets : List BranchSet := []
  markers : List Marker := []
deriving Repr

namespace WeightTable

/-- The marker at a position. -/
def marker? (t : WeightTable) (index : Int) : Option Marker :=
  t.markers.find? fun m => (m.index : Int) == index

/-- Let the marker at a position go on at `stop`. -/
def setStop (index stop : Nat) (t : WeightTable) : WeightTable :=
  { t with
    markers := t.markers.map fun m => if m.index = index then { m with nextStop := stop } else m }

/-- What a pass over a command list has found so far. -/
structure Pass where
  index : Nat := 0
  table : WeightTable := {}
  pending : List OpenSet := []

namespace Pass

/-- End the sets that lie deeper than a depth; their latest branches go on at `stop`. -/
def closeDeeper (depth : Int) (stop : Nat) (p : Pass) : Pass :=
  let deeper := p.pending.filter fun o => depth < o.depth
  { p with
    table := deeper.foldl (fun t o => t.setStop o.latest stop) p.table
    pending := p.pending.filter fun o => ¬ depth < o.depth }

/-- The open set at a depth. -/
def openAt? (depth : Int) (p : Pass) : Option OpenSet := p.pending.find? fun o => o.depth == depth

/-- A weight command: a further branch of the open set at its depth, or the first of a new set. -/
def addBranch (depth : Int) (weight : Double) (p : Pass) : Pass :=
  match p.openAt? depth with
  | some o =>
    -- the branch before this one goes on here when it is not taken
    let t := p.table.setStop o.latest p.index
    let grow (s : BranchSet) : BranchSet :=
      { s with branches := s.branches ++ [p.index], weights := s.weights ++ [weight] }
    { p with
      table := { sets := t.sets.modify o.set grow
                 markers := t.markers ++ [⟨p.index, depth, false, some o.set, 0⟩] }
      pending := p.pending.map fun q =>
        if q.depth = depth then { q with latest := p.index } else q }
  | none =>
    let number := p.table.sets.length
    { p with
      table := { sets := p.table.sets ++ [{ depth, branches := [p.index], weights := [weight] }]
                 markers := p.table.markers ++ [⟨p.index, depth, false, some number, 0⟩] }
      pending := p.pending ++ [⟨depth, number, p.index⟩] }

/-- A closing command: the end of the open set at its depth, if there is one. -/
def close (depth : Int) (p : Pass) : Pass :=
  let closed := p.openAt? depth
  let t := match closed with
    | some o =>
      let t := p.table.setStop o.latest p.index
      { t with sets := t.sets.modify o.set fun s => { s with endIndex := some p.index } }
    | none => p.table
  { p with
    table := { t with
      markers := t.markers ++ [⟨p.index, depth, true, closed.map OpenSet.set, p.index + 1⟩] }
    pending := p.pending.filter fun o => o.depth != depth }

/-- The next command of the list. -/
def step (p : Pass) (c : EventCommand) : Pass :=
  -- a command of less indentation ends the sets that lie deeper, whatever it does itself
  let p := p.closeDeeper c.indent p.index
  let p := match c.mark with
    | .weight w => p.addBranch c.indent w
    | .close => p.close c.indent
    | .plain => p
  { p with index := p.index + 1 }

end Pass

/-- The table of a command list.  At the end of the list every set that lies at no negative depth
ends. -/
def build (commands : List EventCommand) : WeightTable :=
  ((commands.foldl Pass.step {}).closeDeeper (-1) commands.length).table

@[simp] theorem build_nil : build [] = {} := rfl

end WeightTable

end EventLayer
