/-
Which metrics share a series.

`MakeBufferKey` keeps the low bits of the device's fields and gives an absent
device the key of a device whose kept bits are all zero.

* `makeBufferKey_eq_iff` — the key forgets nothing else;
* `Collide` — two metrics of one type and different devices with one key;
* `makeBufferKey_separates` — the key tells two metrics apart, and the series
  of a run keep their sources apart, exactly when nothing collides.
-/
import Volta.SeriesContents

namespace Volta

/-- All bits of the fields that reach the key are zero. -/
def KeptBitsZero : Option DeviceId → Prop
  | none => True
  | some (.gpu id) =>
      id.pciDomain % 65536 = 0 ∧ id.pciBus % 256 = 0 ∧ id.pciDevice % 256 = 0 ∧
        id.pciFunction % 256 = 0
  | some (.cpu id) => id.socketIndex % 256 = 0 ∧ id.coreIndex % 65536 = 0
  | some (.network id) => id.ifindex = 0
  | some (.disk id) => id.major = 0 ∧ id.minor = 0

/-- The bits that reach the key are the same. -/
def SameKeptBits : Option DeviceId → Option DeviceId → Prop
  | some (.gpu a), some (.gpu b) =>
      a.pciDomain % 65536 = b.pciDomain % 65536 ∧ a.pciBus % 256 = b.pciBus % 256 ∧
        a.pciDevice % 256 = b.pciDevice % 256 ∧ a.pciFunction % 256 = b.pciFunction % 256
  | some (.cpu a), some (.cpu b) =>
      a.socketIndex % 256 = b.socketIndex % 256 ∧ a.coreIndex % 65536 = b.coreIndex % 65536
  | some (.network a), some (.network b) => a.ifindex = b.ifindex
  | some (.disk a), some (.disk b) => a.major = b.major ∧ a.minor = b.minor
  -- an absent device, or devices of two kinds, which fill different fields
  | a, b => KeptBitsZero a ∧ KeptBitsZero b

/-- An absent field is 0 in the key. -/
theorem toUInt16_eq_zero_iff (x : UInt32) : x.toUInt16 = 0 ↔ x % 65536 = 0 :=
  UInt32.toUInt16_eq x 0

theorem toUInt8_eq_zero_iff (x : UInt32) : x.toUInt8 = 0 ↔ x % 256 = 0 :=
  UInt32.toUInt8_eq x 0

theorem zero_eq_toUInt16_iff (x : UInt32) : 0 = x.toUInt16 ↔ x % 65536 = 0 :=
  eq_comm.trans (toUInt16_eq_zero_iff x)

theorem zero_eq_toUInt8_iff (x : UInt32) : 0 = x.toUInt8 ↔ x % 256 = 0 :=
  eq_comm.trans (toUInt8_eq_zero_iff x)

theorem makeBufferKey_eq_iff (a b : Metric) :
    makeBufferKey a = makeBufferKey b ↔ a.type = b.type ∧ SameKeptBits a.devId b.devId := by
  obtain ⟨ta, da, va, sa⟩ := a
  obtain ⟨tb, db, vb, sb⟩ := b
  rcases da with _ | (a | a | a | a) <;> rcases db with _ | (b | b | b | b) <;>
    simp only [makeBufferKey, SameKeptBits, KeptBitsZero, BufferKey.mk.injEq,
      toUInt16_eq_zero_iff, toUInt8_eq_zero_iff, zero_eq_toUInt16_iff, zero_eq_toUInt8_iff,
      UInt32.toUInt16_eq, UInt32.toUInt8_eq, true_and, and_true] <;>
    grind

instance : DecidableRel SameKeptBits := fun a b =>
  decidable_of_iff (makeBufferKey { devId := a } = makeBufferKey { devId := b })
    ((makeBufferKey_eq_iff _ _).trans (and_iff_right rfl))

/-- One type, two devices (or one and none), and nothing in the key to tell
them apart. -/
def Collide (a b : Metric) : Prop :=
  a.type = b.type ∧ a.devId ≠ b.devId ∧ SameKeptBits a.devId b.devId

instance : DecidableRel Collide := fun _ _ => inferInstanceAs (Decidable (_ ∧ _))

theorem sameKeptBits_self (d : Option DeviceId) : SameKeptBits d d := by
  rcases d with _ | (d | d | d | d) <;> simp [SameKeptBits, KeptBitsZero]

theorem makeBufferKey_eq_of_same {a b : Metric} (htype : a.type = b.type)
    (hdev : a.devId = b.devId) : makeBufferKey a = makeBufferKey b := by
  rw [makeBufferKey_eq_iff, hdev]
  exact ⟨htype, sameKeptBits_self b.devId⟩

theorem makeBufferKey_separates_iff (a b : Metric) :
    (makeBufferKey a = makeBufferKey b ↔ a.type = b.type ∧ a.devId = b.devId) ↔
      ¬ Collide a b := by
  constructor
  · rintro h ⟨htype, hne, hbits⟩
    exact hne (h.mp ((makeBufferKey_eq_iff a b).mpr ⟨htype, hbits⟩)).2
  · intro h
    refine ⟨fun hkey => ?_, fun hsame => makeBufferKey_eq_of_same hsame.1 hsame.2⟩
    obtain ⟨htype, hbits⟩ := (makeBufferKey_eq_iff a b).mp hkey
    by_contra hno
    exact h ⟨htype, fun hdev => hno ⟨htype, hdev⟩, hbits⟩

/-- What a metric measures: its type, of one device or of the system. -/
def Metric.source (metric : Metric) : MetricType × Option DeviceId := (metric.type, metric.devId)

theorem Metric.source_eq_iff {a b : Metric} :
    a.source = b.source ↔ a.type = b.type ∧ a.devId = b.devId := Prod.mk.injEq _ _ _ _ ▸ Iff.rfl

namespace MetricsBuffer

/-- All that was ever pushed to `b` are the samples of the metrics of one
source; a series without slots holds nothing. -/
def HoldsOnly (b : SeriesBuffer) (source : MetricType × Option DeviceId) (ms : List Metric) :
    Prop :=
  b.samples = [] ∨
    SeriesBuffer.Keeps b ((Grouping.group Metric.source source ms).map Metric.toSample)

/-- The series a metric goes to holds no other source. -/
def KeepsApart (m : MetricsBuffer) (ms : List Metric) : Prop :=
  ∀ a ∈ ms, ∀ b, m.getBuffer (makeBufferKey a) = some b → HoldsOnly b a.source ms

/-- Every series, the ones to come included, has the capacity of the buffer. -/
def Uniform (capacity : ℕ) (m : MetricsBuffer) : Prop :=
  m.capacityPerSeries = capacity ∧ ∀ key, (m.seriesFor key).capacity = capacity

theorem Uniform.addMetric {capacity : ℕ} {m : MetricsBuffer} (h : Uniform capacity m)
    (metric : Metric) : Uniform capacity (m.addMetric metric) := by
  rw [MetricsBuffer.addMetric]
  split
  · exact h
  · refine ⟨by rw [capacityPerSeries_addSample, h.1], fun key => ?_⟩
    rw [seriesFor_addSample]
    split
    · rw [SeriesBuffer.push_capacity, h.2]
    · exact h.2 key

theorem uniform_addMetricsCalls (capacity : ℕ) (calls : List (List Metric)) :
    Uniform capacity (addMetricsCalls capacity calls) := by
  rw [addMetricsCalls_eq, addMetrics]
  exact List.foldlRecOn (motive := Uniform capacity) _ _ ⟨rfl, fun _ => rfl⟩
    fun m hm metric _ => hm.addMetric metric

theorem samples_eq_nil_of_getBuffer {calls : List (List Metric)} {key : BufferKey}
    {b : SeriesBuffer} (hb : (addMetricsCalls 0 calls).getBuffer key = some b) :
    b.samples = [] := by
  have hcap := (uniform_addMetricsCalls 0 calls).2 key
  rw [seriesFor, hb] at hcap
  exact List.eq_nil_of_length_eq_zero (b.samples_length.trans hcap)

/-- The metrics of a source are some of those of its key. -/
theorem group_source_eq (a : Metric) (ms : List Metric) :
    Grouping.group Metric.source a.source ms
      = (Grouping.group makeBufferKey (makeBufferKey a) ms).filter fun x =>
          x.source = a.source := by
  rw [Grouping.group, Grouping.group, List.filter_filter]
  refine List.filter_congr fun x _ => ?_
  by_cases h : x.source = a.source
  · obtain ⟨htype, hdev⟩ := Metric.source_eq_iff.mp h
    rw [decide_eq_true h, decide_eq_true (makeBufferKey_eq_of_same htype hdev)]
    rfl
  · rw [decide_eq_false h]
    rfl

theorem Contains.keepsApart_iff {capacity : ℕ} {m : MetricsBuffer} {ms : List Metric}
    (h : Contains capacity m ms) : KeepsApart m ms ↔ ∀ a ∈ ms, ∀ b ∈ ms, ¬ Collide a b := by
  constructor
  · rintro hapart a ha b hb ⟨htype, hne, hbits⟩
    have hkey : makeBufferKey b = makeBufferKey a :=
      ((makeBufferKey_eq_iff a b).mpr ⟨htype, hbits⟩).symm
    have hlisted : makeBufferKey a ∈ m.getAllKeys := by
      rw [h.keys_eq, Grouping.mem_keys]
      exact ⟨a, ha, rfl⟩
    obtain ⟨buf, hbuf⟩ := (m.mem_getAllKeys_iff _).mp hlisted
    have hkeeps := (h.represents_of_getBuffer hbuf).keeps
    rcases hapart a ha buf hbuf with hnil | hsrc
    · -- a series with a sample has slots
      have hpos := hkeeps.capacity_pos
      rw [← buf.samples_length, hnil] at hpos
      exact absurd hpos (Nat.lt_irrefl 0)
    · -- the counts of the key and of the source agree, so no metric is in one only
      have hlen := hkeeps.head_eq.symm.trans hsrc.head_eq
      rw [samplesOf, List.length_map, List.length_map, group_source_eq] at hlen
      have hall := List.length_filter_eq_length_iff.mp hlen.symm
      have hb' := hall b (Grouping.mem_group.mpr ⟨hb, hkey⟩)
      exact hne (Metric.source_eq_iff.mp (of_decide_eq_true hb')).2.symm
  · intro hno a ha buf hbuf
    right
    have hgroup : Grouping.group Metric.source a.source ms
        = Grouping.group makeBufferKey (makeBufferKey a) ms := by
      refine List.filter_congr fun x hx => decide_eq_decide.mpr ?_
      rw [Metric.source_eq_iff]
      exact ((makeBufferKey_separates_iff x a).mpr (hno x hx a ha)).symm
    rw [hgroup]
    exact (h.represents_of_getBuffer hbuf).keeps

/-- **When sources share a series.**  The key tells two metrics apart unless
they collide, and the series of a run each hold one source exactly when no two
metrics of the run collide (or nothing is held at all). -/
theorem makeBufferKey_separates (capacity : ℕ) (calls : List (List Metric)) :
    (∀ a b : Metric, (makeBufferKey a = makeBufferKey b ↔ a.type = b.type ∧ a.devId = b.devId) ↔
      ¬ Collide a b) ∧
    (KeepsApart (addMetricsCalls capacity calls) (specified calls.flatten) ↔
      capacity = 0 ∨ ∀ a ∈ specified calls.flatten, ∀ b ∈ specified calls.flatten,
        ¬ Collide a b) := by
  refine ⟨makeBufferKey_separates_iff, ?_⟩
  rcases Nat.eq_zero_or_pos capacity with rfl | hpos
  · exact ⟨fun _ => .inl rfl, fun _ _ _ b hb => .inl (samples_eq_nil_of_getBuffer hb)⟩
  · rw [(contains_addMetricsCalls hpos calls).keepsApart_iff]
    exact ⟨.inr, fun h => h.resolve_left hpos.ne'⟩

/-- The utilisation of the whole processor has the key of its first core, and
a GPU in PCI domain 65536 the key of the one in domain 0. -/
theorem makeBufferKey_collision :
    let cpu : Metric := { type := 103, devId := none, value := 12, timestamp := 1 }
    let core : Metric := { type := 103, devId := some (.cpu ⟨0, 0⟩), value := 80, timestamp := 1 }
    let gpu : Metric := { type := 200, devId := some (.gpu ⟨0, 1, 0, 0⟩), value := 30 }
    let vmd : Metric := { type := 200, devId := some (.gpu ⟨65536, 1, 0, 0⟩), value := 90 }
    (makeBufferKey cpu = makeBufferKey core ∧ cpu.devId ≠ core.devId) ∧
    (makeBufferKey gpu = makeBufferKey vmd ∧ gpu.devId ≠ vmd.devId) ∧
    ¬ KeepsApart (addMetricsCalls 4 [[cpu, core]]) (specified [[cpu, core]].flatten) := by
  intro cpu core gpu vmd
  refine ⟨by decide, by decide, fun h => ?_⟩
  have hno := (contains_addMetricsCalls (by decide : 0 < 4) [[cpu, core]]).keepsApart_iff.mp h
  exact hno cpu (by decide) core (by decide) (by decide)

end MetricsBuffer
end Volta
