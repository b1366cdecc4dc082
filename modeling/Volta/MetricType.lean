/-
The metric types (`MetricType` in `types/metric.proto`).

CPU types are 100 to 199, GPU types 200 to 299, RAM types 300 to 399, disk types
400 to 499 and network types 500 to 599.
-/
import Volta.Metric
import Mathlib.Data.List.Nodup

namespace Volta

def metricTypeCpuPowerPackage : MetricType := 100

def metricTypeCpuPowerCores : MetricType := 101

def metricTypeCpuClockSpeed : MetricType := 102

def metricTypeCpuUtilization : MetricType := 103

def metricTypeCpuTemperature : MetricType := 104

def metricTypeCpuIowait : MetricType := 105

def metricTypeCpuCacheHitRatio : MetricType := 106

def metricTypeCpuActiveProcesses : MetricType := 107

def metricTypeGpuPower : MetricType := 200

def metricTypeGpuClockSpeed : MetricType := 201

def metricTypeGpuUtilization : MetricType := 202

def metricTypeGpuTemperature : MetricType := 203

def metricTypeGpuVramUsed : MetricType := 204

def metricTypeGpuPcieBandwidth : MetricType := 205

def metricTypeGpuComputeUnitUtilization : MetricType := 206

def metricTypeGpuSharedMemoryUtilization : MetricType := 207

def metricTypeGpuRegisterUtilization : MetricType := 208

def metricTypeRamPower : MetricType := 300

def metricTypeRamTotal : MetricType := 301

def metricTypeRamAvailable : MetricType := 302

def metricTypeRamUsed : MetricType := 303

def metricTypeRamCached : MetricType := 304

def metricTypeSwapUsed : MetricType := 305

def metricTypeSwapActivity : MetricType := 306

def metricTypeDiskReadThroughput : MetricType := 400

def metricTypeDiskWriteThroughput : MetricType := 401

def metricTypeDiskReadIops : MetricType := 402

def metricTypeDiskWriteIops : MetricType := 403

def metricTypeDiskBusyTime : MetricType := 404

def metricTypeDiskCapacityUsed : MetricType := 405

def metricTypeNetBytesReceived : MetricType := 500

def metricTypeNetBytesSent : MetricType := 501

def metricTypeNetPacketsReceived : MetricType := 502

def metricTypeNetPacketsSent : MetricType := 503

/-- The names of the enumeration. -/
def metricTypeNames : List (MetricType × String) :=
  [ (metricTypeUnspecified, "METRIC_TYPE_UNSPECIFIED"),
    (metricTypeCpuPowerPackage, "METRIC_TYPE_CPU_POWER_PACKAGE"),
    (metricTypeCpuPowerCores, "METRIC_TYPE_CPU_POWER_CORES"),
    (metricTypeCpuClockSpeed, "METRIC_TYPE_CPU_CLOCK_SPEED"),
    (metricTypeCpuUtilization, "METRIC_TYPE_CPU_UTILIZATION"),
    (metricTypeCpuTemperature, "METRIC_TYPE_CPU_TEMPERATURE"),
    (metricTypeCpuIowait, "METRIC_TYPE_CPU_IOWAIT"),
    (metricTypeCpuCacheHitRatio, "METRIC_TYPE_CPU_CACHE_HIT_RATIO"),
    (metricTypeCpuActiveProcesses, "METRIC_TYPE_CPU_ACTIVE_PROCESSES"),
    (metricTypeGpuPower, "METRIC_TYPE_GPU_POWER"),
    (metricTypeGpuClockSpeed, "METRIC_TYPE_GPU_CLOCK_SPEED"),
    (metricTypeGpuUtilization, "METRIC_TYPE_GPU_UTILIZATION"),
    (metricTypeGpuTemperature, "METRIC_TYPE_GPU_TEMPERATURE"),
    (metricTypeGpuVramUsed, "METRIC_TYPE_GPU_VRAM_USED"),
    (metricTypeGpuPcieBandwidth, "METRIC_TYPE_GPU_PCIE_BANDWIDTH"),
    (metricTypeGpuComputeUnitUtilization, "METRIC_TYPE_GPU_COMPUTE_UNIT_UTILIZATION"),
    (metricTypeGpuSharedMemoryUtilization, "METRIC_TYPE_GPU_SHARED_MEMORY_UTILIZATION"),
    (metricTypeGpuRegisterUtilization, "METRIC_TYPE_GPU_REGISTER_UTILIZATION"),
    (metricTypeRamPower, "METRIC_TYPE_RAM_POWER"),
    (metricTypeRamTotal, "METRIC_TYPE_RAM_TOTAL"),
    (metricTypeRamAvailable, "METRIC_TYPE_RAM_AVAILABLE"),
    (metricTypeRamUsed, "METRIC_TYPE_RAM_USED"),
    (metricTypeRamCached, "METRIC_TYPE_RAM_CACHED"),
    (metricTypeSwapUsed, "METRIC_TYPE_SWAP_USED"),
    (metricTypeSwapActivity, "METRIC_TYPE_SWAP_ACTIVITY"),
    (metricTypeDiskReadThroughput, "METRIC_TYPE_DISK_READ_THROUGHPUT"),
    (metricTypeDiskWriteThroughput, "METRIC_TYPE_DISK_WRITE_THROUGHPUT"),
    (metricTypeDiskReadIops, "METRIC_TYPE_DISK_READ_IOPS"),
    (metricTypeDiskWriteIops, "METRIC_TYPE_DISK_WRITE_IOPS"),
    (metricTypeDiskBusyTime, "METRIC_TYPE_DISK_BUSY_TIME"),
    (metricTypeDiskCapacityUsed, "METRIC_TYPE_DISK_CAPACITY_USED"),
    (metricTypeNetBytesReceived, "METRIC_TYPE_NET_BYTES_RECEIVED"),
    (metricTypeNetBytesSent, "METRIC_TYPE_NET_BYTES_SENT"),
    (metricTypeNetPacketsReceived, "METRIC_TYPE_NET_PACKETS_RECEIVED"),
    (metricTypeNetPacketsSent, "METRIC_TYPE_NET_PACKETS_SENT") ]

/-- `MetricType_Name`, empty for a number without a name. -/
def metricTypeName (type : MetricType) : String :=
  ((metricTypeNames.find? fun entry => entry.1 = type).map Prod.snd).getD ""

/-- The entry of a key that no other entry has. -/
theorem find?_of_nodup {α β : Type*} [DecidableEq β] {l : List α} {f : α → β}
    (h : (l.map f).Nodup) {a : α} (ha : a ∈ l) : l.find? (fun x => f x = f a) = some a := by
  have hsome : (l.find? fun x => f x = f a).isSome :=
    List.find?_isSome.mpr ⟨a, ha, by simp⟩
  obtain ⟨b, hb⟩ := Option.isSome_iff_exists.mp hsome
  have hkey : f b = f a := by simpa using List.find?_some hb
  rw [hb, List.inj_on_of_nodup_map h (List.mem_of_find?_eq_some hb) ha hkey]

theorem nodup_types : (metricTypeNames.map Prod.fst).Nodup := by decide

theorem nodup_names : (metricTypeNames.map Prod.snd).Nodup := by simp [metricTypeNames]

theorem metricTypeName_of_mem {entry : MetricType × String} (h : entry ∈ metricTypeNames) :
    metricTypeName entry.1 = entry.2 := by
  rw [metricTypeName, find?_of_nodup nodup_types h]
  rfl

/-- `MetricType_IsValid`. -/
def metricTypeIsValid (type : MetricType) : Bool := metricTypeNames.any fun entry => entry.1 = type

/-- `MetricType_Parse`. -/
def metricTypeParse (name : String) : Option MetricType :=
  (metricTypeNames.find? fun entry => entry.2 = name).map Prod.fst

theorem metricTypeIsValid_iff {type : MetricType} :
    metricTypeIsValid type = true ↔ ∃ name, (type, name) ∈ metricTypeNames := by
  rw [metricTypeIsValid, List.any_eq_true]
  constructor
  · rintro ⟨entry, hmem, htype⟩
    exact ⟨entry.2, of_decide_eq_true htype ▸ hmem⟩
  · rintro ⟨name, hmem⟩
    exact ⟨_, hmem, decide_eq_true rfl⟩

theorem metricTypeParse_eq_some_iff {name : String} {type : MetricType} :
    metricTypeParse name = some type ↔ (type, name) ∈ metricTypeNames := by
  rw [metricTypeParse, Option.map_eq_some_iff]
  constructor
  · rintro ⟨entry, hfind, rfl⟩
    have hname : entry.2 = name := by simpa using List.find?_some hfind
    exact hname ▸ List.mem_of_find?_eq_some hfind
  · intro hmem
    exact ⟨(type, name), find?_of_nodup nodup_names hmem, rfl⟩

end Volta
