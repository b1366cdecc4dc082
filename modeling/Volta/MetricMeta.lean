/-
What the dashboard calls metrics and devices (`lib/metrics.ts`).

* `formatDeviceId_inj` — the label of a device tells devices apart;
* `seriesKey_eq_iff` — so the key of a live series is the same for the same
  type of the same device only.
-/
import Volta.MetricType
import Volta.Numeral

namespace Volta

inductive MetricCategory where
  | cpu
  | gpu
  | memory
  | disk
  | network
  deriving DecidableEq

structure MetricMeta where
  label : String
  category : MetricCategory
  deriving DecidableEq

/-- The `label` and `category` columns of `METRIC_META`. -/
def metricMeta : List (MetricType × String × MetricCategory) :=
  [(metricTypeCpuPowerPackage, "Package Power", .cpu),
    (metricTypeCpuPowerCores, "Cores Power", .cpu),
    (metricTypeCpuClockSpeed, "Clock Speed", .cpu),
    (metricTypeCpuUtilization, "Utilization", .cpu),
    (metricTypeCpuTemperature, "Temperature", .cpu),
    (metricTypeCpuIowait, "IO Wait", .cpu),
    (metricTypeCpuCacheHitRatio, "Cache Hit Ratio", .cpu),
    (metricTypeCpuActiveProcesses, "Active Processes", .cpu),
    (metricTypeGpuPower, "Power", .gpu),
    (metricTypeGpuClockSpeed, "Clock Speed", .gpu),
    (metricTypeGpuUtilization, "Utilization", .gpu),
    (metricTypeGpuTemperature, "Temperature", .gpu),
    (metricTypeGpuVramUsed, "VRAM Used", .gpu),
    (metricTypeGpuPcieBandwidth, "PCIe Bandwidth", .gpu),
    (metricTypeGpuComputeUnitUtilization, "Compute Unit Util.", .gpu),
    (metricTypeGpuSharedMemoryUtilization, "Shared Memory Util.", .gpu),
    (metricTypeGpuRegisterUtilization, "Register Util.", .gpu),
    (metricTypeRamPower, "Power", .memory),
    (metricTypeRamTotal, "Total", .memory),
    (metricTypeRamAvailable, "Available", .memory),
    (metricTypeRamUsed, "Used", .memory),
    (metricTypeRamCached, "Cached", .memory),
    (metricTypeSwapUsed, "Swap Used", .memory),
    (metricTypeSwapActivity, "Swap Activity", .memory),
    (metricTypeDiskReadThroughput, "Read Throughput", .disk),
    (metricTypeDiskWriteThroughput, "Write Throughput", .disk),
    (metricTypeDiskReadIops, "Read IOPS", .disk),
    (metricTypeDiskWriteIops, "Write IOPS", .disk),
    (metricTypeDiskBusyTime, "Busy Time", .disk),
    (metricTypeDiskCapacityUsed, "Capacity Used", .disk),
    (metricTypeNetBytesReceived, "Bytes Received", .network),
    (metricTypeNetBytesSent, "Bytes Sent", .network),
    (metricTypeNetPacketsReceived, "Packets Received", .network),
    (metricTypeNetPacketsSent, "Packets Sent", .network)]

/-- An unknown type is shown with its number. -/
def getMetricMeta (type : MetricType) : MetricMeta :=
  match metricMeta.lookup type with
  | some (label, category) => ⟨label, category⟩
  | none => ⟨"Metric " ++ type.toInt.repr, .cpu⟩

/-- `n.toString(16).padStart(w, "0")`. -/
def hex (n : UInt32) (w : ℕ) : String :=
  String.ofList (Numeral.padStart w (Nat.toDigits 16 n.toNat))

/-- No label for an absent device, nor for one whose oneof is unset. -/
def formatDeviceId (device : Option DeviceID) : Option String :=
  match device.bind DeviceID.device with
  | some (.cpu id) =>
      some ("CPU " ++ id.socketIndex.toNat.repr ++ ":" ++ id.coreIndex.toNat.repr)
  | some (.gpu id) =>
      some ("GPU " ++ hex id.pciDomain 4 ++ ":" ++ hex id.pciBus 2 ++ ":" ++ hex id.pciDevice 2
        ++ "." ++ id.pciFunction.toNat.repr)
  | some (.network id) => some ("if" ++ id.ifindex.toNat.repr)
  | some (.disk id) => some ("disk " ++ id.major.toNat.repr ++ ":" ++ id.minor.toNat.repr)
  | none => none

/-- The type is an `int32` on the wire; below 10^21 a number prints all its
digits. -/
def seriesKey (type : ℤ) (device : Option DeviceID) : String :=
  type.repr ++ "::" ++ (formatDeviceId device).getD ""

/-! ### Labels -/

theorem toList_colon : ":".toList = [':'] := rfl

theorem toList_dot : ".".toList = ['.'] := rfl

theorem separates_colon : Numeral.Separates ':' := fun d => by simp

theorem separates_dot : Numeral.Separates '.' := fun d => by simp

/-- A decimal or padded hexadecimal numeral of a `uint32`. -/
theorem repr_toNat_inj {m n : UInt32} :
    Nat.toDigits 10 m.toNat = Nat.toDigits 10 n.toNat ↔ m = n :=
  (Numeral.toDigits_inj (by decide) (by decide)).trans UInt32.toNat_inj

theorem hex_toList (n : UInt32) (w : ℕ) :
    (hex n w).toList = Numeral.padStart w (Nat.toDigits 16 n.toNat) := String.toList_ofList

theorem hex_inj {m n : UInt32} {w : ℕ} : (hex m w).toList = (hex n w).toList ↔ m = n := by
  rw [hex_toList, hex_toList, Numeral.padStart_toDigits_inj (by decide) (by decide)]
  exact UInt32.toNat_inj

theorem notMem_hex {c : Char} (hc : Numeral.Separates c) (n : UInt32) (w : ℕ) :
    c ∉ (hex n w).toList := by
  rw [hex_toList]
  exact Numeral.notMem_padStart hc (by decide) w _

/-- The text of a label, empty without one. -/
def labelText (device : Option DeviceID) : List Char := ((formatDeviceId device).getD "").toList

/-- Devices of two kinds have labels that begin differently. -/
def labelInitial : Option DeviceId → Option Char
  | none => none
  | some (.gpu _) => some 'G'
  | some (.cpu _) => some 'C'
  | some (.network _) => some 'i'
  | some (.disk _) => some 'd'

section Shapes

variable {device : Option DeviceID}

theorem labelText_none (h : device.bind DeviceID.device = none) : labelText device = [] := by
  rw [labelText, formatDeviceId, h]
  rfl

theorem labelText_cpu {id : CpuID} (h : device.bind DeviceID.device = some (.cpu id)) :
    labelText device = "CPU ".toList ++ (Nat.toDigits 10 id.socketIndex.toNat ++
      ':' :: Nat.toDigits 10 id.coreIndex.toNat) := by
  rw [labelText, formatDeviceId, h]
  simp only [Option.getD_some, String.toList_append, Nat.toList_repr, List.append_assoc,
    toList_colon, List.singleton_append]

theorem labelText_gpu {id : GpuID} (h : device.bind DeviceID.device = some (.gpu id)) :
    labelText device = "GPU ".toList ++ ((hex id.pciDomain 4).toList ++
      ':' :: ((hex id.pciBus 2).toList ++ ':' :: ((hex id.pciDevice 2).toList ++
        '.' :: Nat.toDigits 10 id.pciFunction.toNat))) := by
  rw [labelText, formatDeviceId, h]
  simp only [Option.getD_some, String.toList_append, Nat.toList_repr, List.append_assoc,
    toList_colon, toList_dot, List.cons_append, List.nil_append]

theorem labelText_network {id : NetInterfaceID}
    (h : device.bind DeviceID.device = some (.network id)) :
    labelText device = "if".toList ++ Nat.toDigits 10 id.ifindex.toNat := by
  rw [labelText, formatDeviceId, h]
  simp only [Option.getD_some, String.toList_append, Nat.toList_repr]

theorem labelText_disk {id : DiskID} (h : device.bind DeviceID.device = some (.disk id)) :
    labelText device = "disk ".toList ++ (Nat.toDigits 10 id.major.toNat ++
      ':' :: Nat.toDigits 10 id.minor.toNat) := by
  rw [labelText, formatDeviceId, h]
  simp only [Option.getD_some, String.toList_append, Nat.toList_repr, List.append_assoc,
    toList_colon, List.singleton_append]

theorem labelText_head (device : Option DeviceID) :
    (labelText device).head? = labelInitial (device.bind DeviceID.device) := by
  rcases h : device.bind DeviceID.device with _ | (id | id | id | id)
  · rw [labelText_none h]
    rfl
  · rw [labelText_gpu h]
    rfl
  · rw [labelText_cpu h]
    rfl
  · rw [labelText_network h]
    rfl
  · rw [labelText_disk h]
    rfl

end Shapes

/-- Two decimal numerals with a colon between them. -/
theorem colonPair_inj {a b a' b' : UInt32} :
    Nat.toDigits 10 a.toNat ++ ':' :: Nat.toDigits 10 b.toNat
        = Nat.toDigits 10 a'.toNat ++ ':' :: Nat.toDigits 10 b'.toNat ↔
      a = a' ∧ b = b' := by
  have hcolon (n : ℕ) : ':' ∉ Nat.toDigits 10 n :=
    Numeral.notMem_toDigits separates_colon (by decide) n
  rw [Numeral.append_separator_inj (hcolon _) (hcolon _), repr_toNat_inj, repr_toNat_inj]

theorem gpuText_inj {id id' : GpuID} :
    (hex id.pciDomain 4).toList ++ ':' :: ((hex id.pciBus 2).toList ++
        ':' :: ((hex id.pciDevice 2).toList ++ '.' :: Nat.toDigits 10 id.pciFunction.toNat))
      = (hex id'.pciDomain 4).toList ++ ':' :: ((hex id'.pciBus 2).toList ++
        ':' :: ((hex id'.pciDevice 2).toList ++ '.' :: Nat.toDigits 10 id'.pciFunction.toNat)) ↔
      id = id' := by
  have hcolon (n : UInt32) (w : ℕ) : ':' ∉ (hex n w).toList := notMem_hex separates_colon n w
  have hdot (n : UInt32) (w : ℕ) : '.' ∉ (hex n w).toList := notMem_hex separates_dot n w
  rw [Numeral.append_separator_inj (hcolon _ _) (hcolon _ _), hex_inj,
    Numeral.append_separator_inj (hcolon _ _) (hcolon _ _), hex_inj,
    Numeral.append_separator_inj (hdot _ _) (hdot _ _), hex_inj, repr_toNat_inj]
  obtain ⟨domain, bus, device, function⟩ := id
  obtain ⟨domain', bus', device', function'⟩ := id'
  rw [GpuID.mk.injEq]

/-- The first letters tell the kinds apart, the separators the fields. -/
theorem labelText_inj {device device' : Option DeviceID} :
    labelText device = labelText device' ↔
      device.bind DeviceID.device = device'.bind DeviceID.device := by
  constructor
  · intro h
    have hhead := congrArg List.head? h
    rw [labelText_head, labelText_head] at hhead
    rcases hd : device.bind DeviceID.device with _ | (id | id | id | id) <;>
      rcases hd' : device'.bind DeviceID.device with _ | (id' | id' | id' | id') <;>
      rw [hd, hd'] at hhead <;>
      try (simp [labelInitial] at hhead; done)
    · rw [labelText_gpu hd, labelText_gpu hd', List.append_cancel_left_eq] at h
      rw [gpuText_inj.mp h]
    · rw [labelText_cpu hd, labelText_cpu hd', List.append_cancel_left_eq] at h
      obtain ⟨hsocket, hcore⟩ := colonPair_inj.mp h
      rw [show id = id' from CpuID.mk.injEq _ _ _ _ ▸ ⟨hsocket, hcore⟩]
    · rw [labelText_network hd, labelText_network hd', List.append_cancel_left_eq] at h
      rw [show id = id' from congrArg NetInterfaceID.mk (repr_toNat_inj.mp h)]
    · rw [labelText_disk hd, labelText_disk hd', List.append_cancel_left_eq] at h
      obtain ⟨hmajor, hminor⟩ := colonPair_inj.mp h
      rw [show id = id' from DiskID.mk.injEq _ _ _ _ ▸ ⟨hmajor, hminor⟩]
  · intro h
    rw [labelText, labelText, formatDeviceId, formatDeviceId, h]

theorem seriesKey_toList (type : ℤ) (device : Option DeviceID) :
    (seriesKey type device).toList = type.repr.toList ++ ':' :: (':' :: labelText device) := by
  rw [seriesKey, String.toList_append, String.toList_append, List.append_assoc]
  rfl

theorem seriesKey_injective {type type' : ℤ} {device device' : Option DeviceID}
    (h : seriesKey type device = seriesKey type' device') :
    type = type' ∧ device.bind DeviceID.device = device'.bind DeviceID.device := by
  have hcolon (t : ℤ) : ':' ∉ t.repr.toList :=
    Numeral.notMem_intRepr separates_colon (by decide) t
  have hlist := congrArg String.toList h
  rw [seriesKey_toList, seriesKey_toList, Numeral.append_separator_inj (hcolon _) (hcolon _),
    List.cons_inj_right, String.toList_inj, Numeral.intRepr_inj, labelText_inj] at hlist
  exact hlist

/-- **The key of a live series is its identity.** -/
theorem seriesKey_eq_iff (type type' : ℤ) (device device' : Option DeviceID) :
    seriesKey type device = seriesKey type' device' ↔
      type = type' ∧ device.bind DeviceID.device = device'.bind DeviceID.device := by
  refine ⟨seriesKey_injective, fun ⟨htype, hdevice⟩ => ?_⟩
  rw [← String.toList_inj, seriesKey_toList, seriesKey_toList, htype, labelText_inj.mpr hdevice]

end Volta
