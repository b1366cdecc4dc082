/-
Metrics and the devices they belong to (`metric.h`, `types/metric.proto`).

A `double` is a rational: the modules over this one only copy values.  Fields
of protobuf messages have their wire types; `MetricType` is an open proto3
enumeration, so every `int32` is a value of it.
-/
import Mathlib.Data.Rat.Init

namespace Volta

abbrev Double := ℚ

structure GpuID where
  pciDomain : UInt32 := 0
  pciBus : UInt32 := 0
  pciDevice : UInt32 := 0
  pciFunction : UInt32 := 0
  deriving DecidableEq

structure CpuID where
  socketIndex : UInt32 := 0
  coreIndex : UInt32 := 0
  deriving DecidableEq

structure NetInterfaceID where
  ifindex : UInt32 := 0
  deriving DecidableEq

structure DiskID where
  major : UInt32 := 0
  minor : UInt32 := 0
  deriving DecidableEq

/-- The alternatives of `DeviceId`, and of the oneof of message `DeviceID`. -/
inductive DeviceId where
  | gpu (id : GpuID)
  | cpu (id : CpuID)
  | network (id : NetInterfaceID)
  | disk (id : DiskID)
  deriving DecidableEq

abbrev MetricType := Int32

def metricTypeUnspecified : MetricType := 0

structure Metric where
  type : MetricType := metricTypeUnspecified
  devId : Option DeviceId := none
  value : Double := 0
  timestamp : Int64 := 0
  deriving DecidableEq

/-- Message `DeviceID`: the oneof may be unset. -/
structure DeviceID where
  device : Option DeviceId := none
  deriving DecidableEq

structure BatchHeader where
  metricType : MetricType := metricTypeUnspecified
  deviceId : Option DeviceID := none
  deriving DecidableEq

/-- The `id` is a counter that starts at 0; it is taken not to reach 2^64. -/
structure MetricBatch where
  id : ℕ := 0
  header : Option BatchHeader := none
  timestampsNs : List UInt64 := []
  values : List Double := []
  deriving DecidableEq

structure BatchAck where
  batchId : ℕ := 0
  samplesReceived : ℕ := 0
  error : Option String := none
  deriving DecidableEq

end Volta
