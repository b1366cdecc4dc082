/-
The agent's buffer of all series (`MetricsBuffer` in `buffer.h` and
`buffer.cc`).

The map from keys to series and the list of keys in order of first appearance
are kept together, so that a key is listed exactly when it has a series; no
operation removes a series.

* `mem_getAllKeys_iff` — a listed key has a buffer, and only a listed key;
* `getBuffer_addSample` — a sample reaches the series of its key alone.
-/
import Volta.SeriesBuffer
import Mathlib.Data.List.Nodup
import Mathlib.Logic.Function.Basic

namespace Volta

structure BufferKey where
  metricType : Int32 := 0
  pciDomain : UInt16 := 0
  pciBus : UInt8 := 0
  pciDevice : UInt8 := 0
  pciFunction : UInt8 := 0
  socketIndex : UInt8 := 0
  coreIndex : UInt16 := 0
  ifindex : UInt32 := 0
  diskMajor : UInt32 := 0
  diskMinor : UInt32 := 0
  deriving DecidableEq

/-- The casts keep the low bits of the wire fields. -/
def makeBufferKey (metric : Metric) : BufferKey :=
  let key : BufferKey := { metricType := metric.type }
  match metric.devId with
  | none => key
  | some (.gpu id) =>
      { key with
        pciDomain := id.pciDomain.toUInt16
        pciBus := id.pciBus.toUInt8
        pciDevice := id.pciDevice.toUInt8
        pciFunction := id.pciFunction.toUInt8 }
  | some (.cpu id) =>
      { key with
        socketIndex := id.socketIndex.toUInt8
        coreIndex := id.coreIndex.toUInt16 }
  | some (.network id) => { key with ifindex := id.ifindex }
  | some (.disk id) => { key with diskMajor := id.major, diskMinor := id.minor }

structure MetricsBuffer where
  capacityPerSeries : ℕ
  series : BufferKey → Option SeriesBuffer
  keys : List BufferKey
  keys_nodup : keys.Nodup
  mem_keys : ∀ key, key ∈ keys ↔ (series key).isSome

namespace MetricsBuffer

/-- The constructor: `capacity` is the buffered window divided by the
collection interval. -/
def ofCapacity (capacity : ℕ) : MetricsBuffer where
  capacityPerSeries := capacity
  series _ := none
  keys := []
  keys_nodup := List.nodup_nil
  mem_keys key := by simp

def getBuffer (m : MetricsBuffer) (key : BufferKey) : Option SeriesBuffer := m.series key

def getAllKeys (m : MetricsBuffer) : List BufferKey := m.keys

/-- Store a changed series under a key that has one: an operation through the
`shared_ptr` that `GetBuffer` returned. -/
def modify (m : MetricsBuffer) (key : BufferKey) (f : SeriesBuffer → SeriesBuffer) :
    MetricsBuffer where
  capacityPerSeries := m.capacityPerSeries
  series := Function.update m.series key ((m.series key).map f)
  keys := m.keys
  keys_nodup := m.keys_nodup
  mem_keys key' := by
    rw [m.mem_keys key']
    by_cases h : key' = key
    · subst h
      simp
    · rw [Function.update_of_ne h]

/-- A first sample makes the series and lists its key. -/
def addSample (m : MetricsBuffer) (key : BufferKey) (sample : Sample) : MetricsBuffer :=
  if h : key ∈ m.keys then m.modify key fun b => b.push sample
  else
    { capacityPerSeries := m.capacityPerSeries
      series := Function.update m.series key
        (some ((SeriesBuffer.ofCapacity m.capacityPerSeries).push sample))
      keys := m.keys ++ [key]
      keys_nodup := by
        rw [List.nodup_append]
        refine ⟨m.keys_nodup, List.nodup_singleton key, fun a ha b hb => ?_⟩
        rw [List.mem_singleton.mp hb]
        exact fun heq => h (heq ▸ ha)
      mem_keys := fun key' => by
        by_cases hk : key' = key
        · subst hk
          simp
        · rw [Function.update_of_ne hk, ← m.mem_keys key']
          simp [hk] }

def addMetric (m : MetricsBuffer) (metric : Metric) : MetricsBuffer :=
  if metric.type = metricTypeUnspecified then m
  else
    m.addSample (makeBufferKey metric)
      { timestampNs := metric.timestamp, value := metric.value }

def addMetrics (m : MetricsBuffer) (metrics : List Metric) : MetricsBuffer :=
  metrics.foldl addMetric m

theorem mem_getAllKeys_iff (m : MetricsBuffer) (key : BufferKey) :
    key ∈ m.getAllKeys ↔ ∃ b, m.getBuffer key = some b := by
  rw [getAllKeys, m.mem_keys key, Option.isSome_iff_exists]
  rfl

@[simp] theorem getAllKeys_modify (m : MetricsBuffer) (key : BufferKey)
    (f : SeriesBuffer → SeriesBuffer) : (m.modify key f).getAllKeys = m.getAllKeys := rfl

@[simp] theorem capacityPerSeries_modify (m : MetricsBuffer) (key : BufferKey)
    (f : SeriesBuffer → SeriesBuffer) :
    (m.modify key f).capacityPerSeries = m.capacityPerSeries := rfl

theorem getBuffer_modify (m : MetricsBuffer) (key key' : BufferKey)
    (f : SeriesBuffer → SeriesBuffer) :
    (m.modify key f).getBuffer key'
      = if key' = key then (m.getBuffer key).map f else m.getBuffer key' := by
  by_cases h : key' = key
  · subst h
    simp [getBuffer, modify]
  · simp [getBuffer, modify, h]

@[simp] theorem capacityPerSeries_addSample (m : MetricsBuffer) (key : BufferKey) (x : Sample) :
    (m.addSample key x).capacityPerSeries = m.capacityPerSeries := by
  rw [addSample]
  split <;> rfl

/-- The series a sample for `key` is pushed to: its own, or a new one. -/
def seriesFor (m : MetricsBuffer) (key : BufferKey) : SeriesBuffer :=
  (m.getBuffer key).getD (SeriesBuffer.ofCapacity m.capacityPerSeries)

theorem getBuffer_addSample (m : MetricsBuffer) (key key' : BufferKey) (x : Sample) :
    (m.addSample key x).getBuffer key'
      = if key' = key then some ((m.seriesFor key).push x) else m.getBuffer key' := by
  rw [addSample]
  split
  · rename_i h
    obtain ⟨b, hb⟩ := (m.mem_getAllKeys_iff key).mp h
    rw [getBuffer_modify, seriesFor, hb]
    rfl
  · rename_i h
    have hnone : m.getBuffer key = none := by
      rw [← Option.not_isSome_iff_eq_none]
      exact fun hsome => h ((m.mem_keys key).mpr hsome)
    rw [seriesFor, hnone]
    by_cases hk : key' = key
    · subst hk
      simp [getBuffer]
    · simp [getBuffer, hk]

theorem seriesFor_addSample (m : MetricsBuffer) (key key' : BufferKey) (x : Sample) :
    (m.addSample key x).seriesFor key'
      = if key' = key then (m.seriesFor key).push x else m.seriesFor key' := by
  rw [seriesFor, getBuffer_addSample, capacityPerSeries_addSample]
  split
  · rfl
  · rfl

theorem seriesFor_modify (m : MetricsBuffer) {key : BufferKey} (hkey : key ∈ m.getAllKeys)
    (key' : BufferKey) (f : SeriesBuffer → SeriesBuffer) :
    (m.modify key f).seriesFor key'
      = if key' = key then f (m.seriesFor key) else m.seriesFor key' := by
  obtain ⟨b, hb⟩ := (m.mem_getAllKeys_iff key).mp hkey
  rw [seriesFor, getBuffer_modify, capacityPerSeries_modify]
  split
  · rw [seriesFor, hb]
    rfl
  · rfl

theorem seriesFor_of_mem (m : MetricsBuffer) {key : BufferKey} (hkey : key ∈ m.getAllKeys) :
    m.getBuffer key = some (m.seriesFor key) := by
  obtain ⟨b, hb⟩ := (m.mem_getAllKeys_iff key).mp hkey
  rw [seriesFor, hb]
  rfl

theorem mem_getAllKeys_addSample (m : MetricsBuffer) (key : BufferKey) (x : Sample)
    {key' : BufferKey} (h : key' ∈ m.getAllKeys) : key' ∈ (m.addSample key x).getAllKeys := by
  obtain ⟨b, hb⟩ := (m.mem_getAllKeys_iff key').mp h
  rw [mem_getAllKeys_iff, getBuffer_addSample]
  split
  · exact ⟨_, rfl⟩
  · exact ⟨b, hb⟩

end MetricsBuffer
end Volta
