/-
**Random draws.**

A game takes its chances from two sources: fractions between zero and one, and whole numbers below a
bound.  Both are given in advance, so that a run is determined by them.  A source that is used up
gives zeros.

Main definitions:

* `Draws` — what is left of the two sources, and how much of them was taken;
* `Draws.fraction`, `Draws.whole` — the next fraction and the next whole number;
* `Draws.below` — the next whole number, brought below a bound.

Main results:

* `Draws.below_lt` — a whole number drawn below a bound lies below it.
-/
import EventLayer.Double

set_option autoImplicit false
set_option relaxedAutoImplicit false

namespace EventLayer

/-- The two sources of chance. -/
structure Draws where
  fractions : List Double := []
  wholes : List Int := []
  fractionsTaken : Nat := 0
  wholesTaken : Nat := 0

namespace Draws

instance : Inhabited Draws := ⟨{}⟩

/-- The next fraction. -/
def fraction (d : Draws) : Double × Draws :=
  (d.fractions.headD (.finite 0),
    { d with fractions := d.fractions.tail, fractionsTaken := d.fractionsTaken + 1 })

/-- The next whole number. -/
def whole (d : Draws) : Int × Draws :=
  (d.wholes.headD 0, { d with wholes := d.wholes.tail, wholesTaken := d.wholesTaken + 1 })

/-- The next whole number, brought below a positive bound. -/
def below (d : Draws) (bound : Nat) : Int × Draws := (d.whole.1 % (bound : Int), d.whole.2)

theorem below_nonneg (d : Draws) {bound : Nat} (h : 0 < bound) : 0 ≤ (d.below bound).1 :=
  Int.emod_nonneg _ (by omega)

theorem below_lt (d : Draws) {bound : Nat} (h : 0 < bound) : (d.below bound).1 < bound :=
  Int.emod_lt_of_pos _ (by omega)

end Draws

end EventLayer
