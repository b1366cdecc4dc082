/-
The collector of the first NVIDIA GPU (`nvml_collector.h` and
`nvml_collector.cc`).

A reading is what the calls of the library return, `none` where a call does not
return `NVML_SUCCESS`.  The library documents power in milliwatts, utilisation
in percent, temperature in degrees Celsius and memory in bytes.

* `mem_collect_iff` — each metric is pushed exactly when it is requested and its
  call succeeds.
-/
import Volta.MetricType
import Mathlib.Algebra.Order.Field.Rat

namespace Volta

structure NvmlUtilization where
  gpu : UInt32
  memory : UInt32

/-- Of `nvmlMemory_t`. -/
structure NvmlMemoryInfo where
  total : UInt64
  used : UInt64

/-- With a total to divide by: a share of 0 is no number in C++ (`StoredUnits`). -/
structure NvmlMemory extends NvmlMemoryInfo where
  total_pos : 0 < total.toNat

structure NvmlReading where
  powerUsage : Option UInt32
  temperature : Option UInt32
  utilizationRates : Option NvmlUtilization
  memoryInfo : Option NvmlMemory

/-- Of `nvmlPciInfo_t`. -/
structure NvmlPciInfo where
  domain : UInt32
  bus : UInt32
  device : UInt32

structure NvmlCollector where
  requestedMetrics : List MetricType := []
  initialized : Bool := false
  gpuId : GpuID := {}

namespace NvmlCollector

def satisfiable : List MetricType :=
  [ metricTypeGpuVramUsed, metricTypeGpuUtilization, metricTypeGpuSharedMemoryUtilization,
    metricTypeGpuTemperature, metricTypeGpuPower ]

/-- `pciInfo` is `none` when the library, the device or the information is
missing. -/
def init (c : NvmlCollector) (pciInfo : Option NvmlPciInfo) : Bool × NvmlCollector :=
  match pciInfo with
  | none => (false, c)
  | some pciInfo =>
      (true, { c with
        gpuId := { pciDomain := pciInfo.domain, pciBus := pciInfo.bus
                   pciDevice := pciInfo.device, pciFunction := 0 }
        initialized := true })

def collect (c : NvmlCollector) (nvml : NvmlReading) (now : Int64) : List Metric :=
  if !c.initialized || c.requestedMetrics.isEmpty then []
  else
    let needs (type : MetricType) : Bool := c.requestedMetrics.contains type
    let metric (type : MetricType) (value : Double) : Metric :=
      { type := type, devId := some (.gpu c.gpuId), value := value, timestamp := now }
    (if needs metricTypeGpuPower then
      (nvml.powerUsage.map fun powerMw =>
        metric metricTypeGpuPower ((powerMw.toNat : ℚ) / 1000)).toList
    else []) ++
    (if needs metricTypeGpuTemperature then
      (nvml.temperature.map fun tempC => metric metricTypeGpuTemperature tempC.toNat).toList
    else []) ++
    (if needs metricTypeGpuUtilization || needs metricTypeGpuSharedMemoryUtilization then
      nvml.utilizationRates.toList.flatMap fun utilization =>
        (if needs metricTypeGpuUtilization then
          [metric metricTypeGpuUtilization utilization.gpu.toNat]
        else []) ++
        (if needs metricTypeGpuSharedMemoryUtilization then
          [metric metricTypeGpuSharedMemoryUtilization utilization.memory.toNat]
        else [])
    else []) ++
    (if needs metricTypeGpuVramUsed then
      (nvml.memoryInfo.map fun memory =>
        metric metricTypeGpuVramUsed ((memory.used.toNat : ℚ) / memory.total.toNat)).toList
    else [])

/-- What the collector makes of a reading for each type. -/
inductive Stores (nvml : NvmlReading) : MetricType → Double → Prop where
  | power {powerMw : UInt32} (h : nvml.powerUsage = some powerMw) :
      Stores nvml metricTypeGpuPower ((powerMw.toNat : ℚ) / 1000)
  | temperature {tempC : UInt32} (h : nvml.temperature = some tempC) :
      Stores nvml metricTypeGpuTemperature tempC.toNat
  | utilization {utilization : NvmlUtilization} (h : nvml.utilizationRates = some utilization) :
      Stores nvml metricTypeGpuUtilization utilization.gpu.toNat
  | sharedMemory {utilization : NvmlUtilization} (h : nvml.utilizationRates = some utilization) :
      Stores nvml metricTypeGpuSharedMemoryUtilization utilization.memory.toNat
  | vram {memory : NvmlMemory} (h : nvml.memoryInfo = some memory) :
      Stores nvml metricTypeGpuVramUsed ((memory.used.toNat : ℚ) / memory.total.toNat)

theorem mem_collect_iff (c : NvmlCollector) (nvml : NvmlReading) (now : Int64) (m : Metric) :
    m ∈ c.collect nvml now ↔
      c.initialized = true ∧ m.type ∈ c.requestedMetrics ∧ Stores nvml m.type m.value ∧
        m.devId = some (.gpu c.gpuId) ∧ m.timestamp = now := by
  obtain ⟨type, devId, value, timestamp⟩ := m
  constructor
  · intro hm
    rw [collect] at hm
    split at hm
    · exact absurd hm List.not_mem_nil
    · rename_i hready
      have hinit : c.initialized = true := by
        by_contra hno
        simp [hno] at hready
      simp only [List.mem_append, List.mem_ite_nil_right, Option.mem_toList, Option.map_eq_some_iff,
        List.mem_flatMap, List.contains_iff_mem, List.mem_singleton, Metric.mk.injEq] at hm
      rcases hm with ((⟨hreq, x, hx, rfl, rfl, rfl, rfl⟩ | ⟨hreq, x, hx, rfl, rfl, rfl, rfl⟩) |
        ⟨-, x, hx, ⟨hreq, rfl, rfl, rfl, rfl⟩ | ⟨hreq, rfl, rfl, rfl, rfl⟩⟩) |
        ⟨hreq, x, hx, rfl, rfl, rfl, rfl⟩
      · exact ⟨hinit, hreq, .power hx, rfl, rfl⟩
      · exact ⟨hinit, hreq, .temperature hx, rfl, rfl⟩
      · exact ⟨hinit, hreq, .utilization hx, rfl, rfl⟩
      · exact ⟨hinit, hreq, .sharedMemory hx, rfl, rfl⟩
      · exact ⟨hinit, hreq, .vram hx, rfl, rfl⟩
  · rintro ⟨hinit, hreq, hstores, rfl, rfl⟩
    have hne : c.requestedMetrics.isEmpty = false := by
      rw [List.isEmpty_eq_false_iff]
      exact List.ne_nil_of_mem hreq
    rw [collect, hinit, hne, if_neg (by simp)]
    simp only [List.mem_append, List.mem_ite_nil_right, Option.mem_toList, Option.map_eq_some_iff,
      List.mem_flatMap, List.contains_iff_mem, List.mem_singleton, Bool.or_eq_true]
    cases hstores with
    | power h => exact .inl (.inl (.inl ⟨hreq, _, h, rfl⟩))
    | temperature h => exact .inl (.inl (.inr ⟨hreq, _, h, rfl⟩))
    | utilization h => exact .inl (.inr ⟨.inl hreq, _, h, .inl ⟨hreq, rfl⟩⟩)
    | sharedMemory h => exact .inl (.inr ⟨.inr hreq, _, h, .inr ⟨hreq, rfl⟩⟩)
    | vram h => exact .inr ⟨hreq, _, h, rfl⟩

end NvmlCollector
end Volta
