/-
What the header of a batch says (`EnqueueMetrics` in
`stream_metrics_reactor.cc`).

The key of a series is made by the variant of the device, the header is made
back from it by the range of the metric type.

* `Metric.FitsKey` — the variant is that of the range, and the key is wide
  enough for the fields;
* `makeHeader_makeBufferKey` — then the header has the type and the device;
* `headers_undo_keys` — so have all batches of a run, and they carry the
  samples of their snapshots.
-/
import Volta.MetricsStream
import Volta.MetricType
import Volta.SeriesContents

namespace Volta

/-- The device is of the variant that belongs to the range of the type, and its
fields have the widths of the key.  The RAM types have no device. -/
def Metric.FitsKey (metric : Metric) : Prop :=
  match metric.devId with
  | none => 300 ≤ metric.type ∧ metric.type < 400
  | some (.cpu id) =>
      (100 ≤ metric.type ∧ metric.type < 200) ∧ id.socketIndex < 256 ∧ id.coreIndex < 65536
  | some (.gpu id) =>
      (200 ≤ metric.type ∧ metric.type < 300) ∧ id.pciDomain < 65536 ∧ id.pciBus < 256 ∧
        id.pciDevice < 256 ∧ id.pciFunction < 256
  | some (.disk _) => 400 ≤ metric.type ∧ metric.type < 500
  | some (.network _) => 500 ≤ metric.type ∧ metric.type < 600

theorem toUInt32_toUInt8 {x : UInt32} (h : x < 256) : x.toUInt8.toUInt32 = x := by
  rw [UInt32.lt_iff_toNat_lt] at h
  refine UInt32.toNat_inj.mp ?_
  show x.toNat % 256 = x.toNat
  exact Nat.mod_eq_of_lt h

theorem toUInt32_toUInt16 {x : UInt32} (h : x < 65536) : x.toUInt16.toUInt32 = x := by
  rw [UInt32.lt_iff_toNat_lt] at h
  refine UInt32.toNat_inj.mp ?_
  show x.toNat % 65536 = x.toNat
  exact Nat.mod_eq_of_lt h

namespace MetricsStream

/-! ### The header, range by range -/

theorem makeHeader_cpu (key : BufferKey) (h : 100 ≤ key.metricType ∧ key.metricType < 200) :
    makeHeader key
      = { metricType := key.metricType
          deviceId := some
            { device := some (.cpu ⟨key.socketIndex.toUInt32, key.coreIndex.toUInt32⟩) } } := by
  rw [makeHeader, if_pos h]

theorem makeHeader_gpu (key : BufferKey) (h : 200 ≤ key.metricType ∧ key.metricType < 300) :
    makeHeader key
      = { metricType := key.metricType
          deviceId := some
            { device := some (.gpu ⟨key.pciDomain.toUInt32, key.pciBus.toUInt32,
                key.pciDevice.toUInt32, key.pciFunction.toUInt32⟩) } } := by
  have hcpu : ¬ (100 ≤ key.metricType ∧ key.metricType < 200) := by grind
  rw [makeHeader, if_neg hcpu, if_pos h]

theorem makeHeader_ram (key : BufferKey) (h : 300 ≤ key.metricType ∧ key.metricType < 400) :
    makeHeader key = { metricType := key.metricType, deviceId := some { device := none } } := by
  have hcpu : ¬ (100 ≤ key.metricType ∧ key.metricType < 200) := by grind
  have hgpu : ¬ (200 ≤ key.metricType ∧ key.metricType < 300) := by grind
  have hdisk : ¬ (400 ≤ key.metricType ∧ key.metricType < 500) := by grind
  have hnetwork : ¬ (500 ≤ key.metricType ∧ key.metricType < 600) := by grind
  rw [makeHeader, if_neg hcpu, if_neg hgpu, if_neg hdisk, if_neg hnetwork]

theorem makeHeader_disk (key : BufferKey) (h : 400 ≤ key.metricType ∧ key.metricType < 500) :
    makeHeader key
      = { metricType := key.metricType
          deviceId := some { device := some (.disk ⟨key.diskMajor, key.diskMinor⟩) } } := by
  have hcpu : ¬ (100 ≤ key.metricType ∧ key.metricType < 200) := by grind
  have hgpu : ¬ (200 ≤ key.metricType ∧ key.metricType < 300) := by grind
  rw [makeHeader, if_neg hcpu, if_neg hgpu, if_pos h]

theorem makeHeader_network (key : BufferKey) (h : 500 ≤ key.metricType ∧ key.metricType < 600) :
    makeHeader key
      = { metricType := key.metricType
          deviceId := some { device := some (.network ⟨key.ifindex⟩) } } := by
  have hcpu : ¬ (100 ≤ key.metricType ∧ key.metricType < 200) := by grind
  have hgpu : ¬ (200 ≤ key.metricType ∧ key.metricType < 300) := by grind
  have hdisk : ¬ (400 ≤ key.metricType ∧ key.metricType < 500) := by grind
  rw [makeHeader, if_neg hcpu, if_neg hgpu, if_neg hdisk, if_pos h]

/-- The two codecs name the same variants and fields. -/
theorem makeHeader_makeBufferKey {metric : Metric} (h : metric.FitsKey) :
    makeHeader (makeBufferKey metric)
      = { metricType := metric.type, deviceId := some { device := metric.devId } } := by
  obtain ⟨type, devId, value, timestamp⟩ := metric
  rcases devId with _ | (id | id | id | id)
  · exact makeHeader_ram _ h
  · obtain ⟨hrange, hdomain, hbus, hdevice, hfunction⟩ := h
    rw [makeHeader_gpu (makeBufferKey ⟨type, some (.gpu id), value, timestamp⟩) hrange]
    simp only [makeBufferKey, toUInt32_toUInt16 hdomain, toUInt32_toUInt8 hbus,
      toUInt32_toUInt8 hdevice, toUInt32_toUInt8 hfunction]
  · obtain ⟨hrange, hsocket, hcore⟩ := h
    rw [makeHeader_cpu (makeBufferKey ⟨type, some (.cpu id), value, timestamp⟩) hrange]
    simp only [makeBufferKey, toUInt32_toUInt8 hsocket, toUInt32_toUInt16 hcore]
  · exact makeHeader_network _ h
  · exact makeHeader_disk _ h

end MetricsStream

/-- The device is of the variant that belongs to the range of the type, or there
is none. -/
def Metric.OfRange (metric : Metric) : Prop :=
  match metric.devId with
  | none => True
  | some (.cpu _) => 100 ≤ metric.type ∧ metric.type < 200
  | some (.gpu _) => 200 ≤ metric.type ∧ metric.type < 300
  | some (.disk _) => 400 ≤ metric.type ∧ metric.type < 500
  | some (.network _) => 500 ≤ metric.type ∧ metric.type < 600

/-- The key of the metrics that a header describes. -/
def BatchHeader.key (header : BatchHeader) : BufferKey :=
  makeBufferKey
    { type := header.metricType, devId := header.deviceId.bind DeviceID.device }

namespace MetricsStream

/-- The header loses nothing of the key, wide fields or not. -/
theorem key_makeHeader {metric : Metric} (h : metric.OfRange) :
    (makeHeader (makeBufferKey metric)).key = makeBufferKey metric := by
  obtain ⟨type, devId, value, timestamp⟩ := metric
  rcases devId with _ | (id | id | id | id)
  · -- without a device the fields are zero, whatever the range
    generalize hkey : makeBufferKey ⟨type, none, value, timestamp⟩ = key
    by_cases hcpu : 100 ≤ key.metricType ∧ key.metricType < 200
    · rw [makeHeader_cpu key hcpu, ← hkey]
      rfl
    by_cases hgpu : 200 ≤ key.metricType ∧ key.metricType < 300
    · rw [makeHeader_gpu key hgpu, ← hkey]
      rfl
    by_cases hdisk : 400 ≤ key.metricType ∧ key.metricType < 500
    · rw [makeHeader_disk key hdisk, ← hkey]
      rfl
    by_cases hnetwork : 500 ≤ key.metricType ∧ key.metricType < 600
    · rw [makeHeader_network key hnetwork, ← hkey]
      rfl
    rw [makeHeader, if_neg hcpu, if_neg hgpu, if_neg hdisk, if_neg hnetwork, ← hkey]
    rfl
  · rw [makeHeader_gpu (makeBufferKey ⟨type, some (.gpu id), value, timestamp⟩) h]
    simp only [BatchHeader.key, makeBufferKey, Option.bind_some, UInt8.toUInt8_toUInt32,
      UInt16.toUInt16_toUInt32]
  · rw [makeHeader_cpu (makeBufferKey ⟨type, some (.cpu id), value, timestamp⟩) h]
    simp only [BatchHeader.key, makeBufferKey, Option.bind_some, UInt8.toUInt8_toUInt32,
      UInt16.toUInt16_toUInt32]
  · rw [makeHeader_network (makeBufferKey ⟨type, some (.network id), value, timestamp⟩) h]
    rfl
  · rw [makeHeader_disk (makeBufferKey ⟨type, some (.disk id), value, timestamp⟩) h]
    rfl

end MetricsStream

/-- The samples of a batch, read off its two parallel lists. -/
def MetricBatch.samples (batch : MetricBatch) : List Sample :=
  List.zipWith (fun timestampNs value => { timestampNs := timestampNs.toInt64, value := value })
    batch.timestampsNs batch.values

namespace MetricsStream

/-- The batch tells whose samples it carries, and carries those of the
snapshot. -/
structure Describes (key : BufferKey) (snapshot : SeriesBuffer.Snapshot) (batch : MetricBatch) :
    Prop where
  header : ∀ metric : Metric, metric.FitsKey → makeBufferKey metric = key →
    batch.header = some
      { metricType := metric.type, deviceId := some { device := metric.devId } }
  lengths : batch.timestampsNs.length = batch.values.length
  samples : batch.samples = snapshot.samples

theorem describes_makeBatch (key : BufferKey) (snapshot : SeriesBuffer.Snapshot) (id : ℕ) :
    Describes key snapshot (makeBatch key snapshot id) where
  header metric hfits hkey := by
    rw [← hkey, ← makeHeader_makeBufferKey hfits]
    rfl
  lengths := by rw [makeBatch, List.length_map, List.length_map]
  samples := by
    rw [MetricBatch.samples, makeBatch, List.zipWith_map, List.zipWith_self]
    refine (List.map_congr_left fun sample _ => ?_).trans (List.map_id _)
    obtain ⟨timestampNs, value⟩ := sample
    simp

/-! ### The batches of a run -/

/-- What the poll thread has in its hands was made by `EnqueueMetrics`. -/
def PollPc.Built (taken : List Entry) : PollPc → Prop
  | .addPending key snapshot batch _ => ∃ id, batch = makeBatch key snapshot id
  | .pushBatch batch _ => ∃ e ∈ taken, batch = e.batch
  | _ => True

/-- Every batch on the write queue was made for an entry. -/
structure Built (s : State) : Prop where
  inHand : s.poll.Built s.taken
  enqueued : ∀ batch ∈ s.writer.enqueued, ∃ e ∈ s.taken, batch = e.batch

theorem writer_write_enqueued (w : Writer MetricBatch) : w.write.enqueued = w.enqueued := by
  rw [Writer.write]
  split <;> rfl

namespace Built

variable {s t : State}

theorem advance (h : Built s) {pc : PollPc} (hpc : pc.Built s.taken) :
    Built { s with poll := pc } := ⟨hpc, h.enqueued⟩

/-- What is not the poll thread's leaves its hands and the queue alone. -/
theorem frame (h : Built s) (hpoll : t.poll = s.poll) (htaken : t.taken = s.taken)
    (hqu : t.writer.enqueued = s.writer.enqueued) : Built t where
  inHand := by
    rw [hpoll, htaken]
    exact h.inHand
  enqueued := by
    rw [hqu, htaken]
    exact h.enqueued

theorem startWrite (h : Built s) : Built (MetricsStream.startWrite s) :=
  h.frame rfl rfl (writer_write_enqueued s.writer)

theorem addPending (h : Built s) {key : BufferKey} {snapshot : SeriesBuffer.Snapshot}
    {batch : MetricBatch} {keys : List BufferKey}
    (hpc : s.poll = .addPending key snapshot batch keys) :
    Built
      { s with
        pendingSnapshots := emplace s.pendingSnapshots ⟨batch.id, key, snapshot⟩
        taken := s.taken ++ [⟨batch.id, key, snapshot⟩]
        poll := .pushBatch batch keys } := by
  obtain ⟨id, hbatch⟩ : ∃ id, batch = makeBatch key snapshot id := by
    have hin := h.inHand
    rwa [hpc] at hin
  refine ⟨⟨⟨batch.id, key, snapshot⟩, List.mem_concat_self, ?_⟩, fun b hb => ?_⟩
  · rw [Entry.batch, hbatch]
    rfl
  · obtain ⟨e, he, hbe⟩ := h.enqueued b hb
    exact ⟨e, List.mem_append_left _ he, hbe⟩

theorem pushBatch (h : Built s) {batch : MetricBatch} {keys : List BufferKey}
    (hpc : s.poll = .pushBatch batch keys) :
    Built { s with writer := s.writer.push batch, passPushed := true, poll := .nextKey keys } := by
  have hbatch : ∃ e ∈ s.taken, batch = e.batch := by
    have hin := h.inHand
    rwa [hpc] at hin
  exact ⟨trivial, List.forall_mem_append.mpr
    ⟨h.enqueued, List.forall_mem_singleton.mpr hbatch⟩⟩

theorem pollStep (h : Built s) (ht : MetricsStream.pollStep s = some t) : Built t := by
  rw [MetricsStream.pollStep] at ht
  split at ht
  case h_1 =>
    split at ht
    · exact absurd ht (by simp)
    · split at ht
      · rw [← Option.some_inj.mp ht]
        exact h.advance trivial
      · rw [← Option.some_inj.mp ht]
        exact h
  case h_2 =>
    split at ht
    · rw [← Option.some_inj.mp ht]
      exact h.advance trivial
    · exact absurd ht (by simp)
  case h_3 =>
    rw [← Option.some_inj.mp ht]
    exact h.advance trivial
  case h_4 =>
    split at ht
    · split at ht
      · rw [← Option.some_inj.mp ht]
        exact ⟨trivial, h.enqueued⟩
      · rw [← Option.some_inj.mp ht]
        exact h.advance trivial
    · exact absurd ht (by simp)
  case h_5 =>
    obtain ⟨snapshot, -, rfl⟩ := Option.map_eq_some_iff.mp ht
    refine h.advance ?_
    split <;> trivial
  case h_6 =>
    rw [← Option.some_inj.mp ht]
    exact ⟨⟨_, rfl⟩, h.enqueued⟩
  case h_7 hpc =>
    split at ht
    · exact absurd ht (by simp)
    · rw [← Option.some_inj.mp ht]
      exact h.addPending hpc
  case h_8 hpc =>
    rw [← Option.some_inj.mp ht]
    exact h.pushBatch hpc
  case h_9 =>
    split at ht
    · exact absurd ht (by simp)
    · split at ht
      · rw [← Option.some_inj.mp ht]
        exact ⟨trivial, h.enqueued⟩
      · rw [← Option.some_inj.mp ht]
        exact h.advance trivial
  case h_10 =>
    rw [← Option.some_inj.mp ht]
    exact ⟨trivial, h.startWrite.enqueued⟩
  case h_11 => exact absurd ht (by simp)

theorem step (h : Built s) {a : Action} (ht : MetricsStream.step s a = some t) : Built t := by
  cases a with
  | poll => exact h.pollStep ht
  | stopPoll =>
    simp only [MetricsStream.step] at ht
    split at ht
    · rw [← Option.some_inj.mp ht]
      exact h.advance trivial
    · exact absurd ht (by simp)
  | addMetrics metrics =>
    simp only [MetricsStream.step, Option.ite_none_right_eq_some, Option.some_inj] at ht
    rw [← ht.2]
    exact h.frame rfl rfl rfl
  | addMetric =>
    simp only [MetricsStream.step] at ht
    split at ht
    · exact absurd ht (by simp)
    · rename_i metric metrics _
      rw [← Option.some_inj.mp ht]
      obtain ⟨hpoll, htaken, hwriter⟩ := addMetric_frame s metric
      exact h.frame hpoll htaken (congrArg Writer.enqueued hwriter)
  | read =>
    obtain ⟨hpoll, htaken, hwriter⟩ := readStep_frame ht
    exact h.frame hpoll htaken (congrArg Writer.enqueued hwriter)
  | readFails =>
    simp only [MetricsStream.step] at ht
    split at ht
    · rw [← Option.some_inj.mp ht]
      exact h.frame rfl rfl rfl
    · exact absurd ht (by simp)
  | writeCompletes ok =>
    simp only [MetricsStream.step, Option.ite_none_left_eq_some, Option.some_inj] at ht
    rw [← ht.2]
    exact h.frame rfl rfl rfl
  | onWriteDonePop =>
    simp only [MetricsStream.step] at ht
    split at ht
    · exact absurd ht (by simp)
    · rw [← Option.some_inj.mp ht]
      exact h.frame rfl rfl rfl
  | onWriteDoneWrite =>
    simp only [MetricsStream.step] at ht
    split at ht
    · exact absurd ht (by simp)
    · rw [← Option.some_inj.mp ht]
      exact h.startWrite.frame rfl rfl rfl
  | server =>
    obtain ⟨hpoll, htaken, hwriter, -⟩ := serverStep_frame ht
    exact h.frame hpoll htaken (congrArg Writer.enqueued hwriter)
  | serverFails =>
    simp only [MetricsStream.step] at ht
    split at ht
    · rw [← Option.some_inj.mp ht]
      exact h.frame rfl rfl rfl
    · rw [← Option.some_inj.mp ht]
      exact h.frame rfl rfl rfl
    · exact absurd ht (by simp)
    · exact absurd ht (by simp)

end Built

theorem built_init (C : ℕ) : Built (init C) where
  inHand := trivial
  enqueued _ h := absurd h List.not_mem_nil

theorem built_of_exec {C : ℕ} {as : List Action} {s : State}
    (hs : Run.exec step (init C) as = some s) : Built s :=
  Run.exec_invariant (fun h ht => h.step ht) (built_init C) hs

theorem type_ne_of_fitsKey {metric : Metric} (h : metric.FitsKey) :
    metric.type ≠ metricTypeUnspecified := by
  obtain ⟨type, devId, value, timestamp⟩ := metric
  rintro rfl
  rcases devId with _ | (id | id | id | id)
  · exact absurd h.1 (show ¬ (300 : MetricType) ≤ 0 by decide)
  · exact absurd h.1.1 (show ¬ (200 : MetricType) ≤ 0 by decide)
  · exact absurd h.1.1 (show ¬ (100 : MetricType) ≤ 0 by decide)
  · exact absurd h.1 (show ¬ (500 : MetricType) ≤ 0 by decide)
  · exact absurd h.1 (show ¬ (400 : MetricType) ≤ 0 by decide)

/-- **Batch headers undo the key encoding.**  A metric that fits goes to the
series of its key, and every batch that `EnqueueMetrics` makes of that series
names the metric's type and device; all batches, in hand or on the queue, carry
the samples of their snapshots. -/
theorem headers_undo_keys {C : ℕ} {as : List Action} {s : State}
    (hs : Run.exec step (init C) as = some s) :
    (∀ metric metrics t, s.adding = metric :: metrics → metric.FitsKey →
      step s .addMetric = some t →
      t.buffer.getBuffer (makeBufferKey metric)
        = some ((s.buffer.seriesFor (makeBufferKey metric)).push metric.toSample)) ∧
    (∀ key snapshot batch keys, s.poll = .addPending key snapshot batch keys →
      Describes key snapshot batch) ∧
    ∀ batch ∈ s.writer.enqueued, ∃ e ∈ s.taken, e.id = batch.id ∧
      Describes e.key e.snapshot batch := by
  have h : Built s := built_of_exec hs
  refine ⟨fun metric metrics t hadding hfits ht => ?_, fun key snapshot batch keys hpc => ?_,
    fun batch hbatch => ?_⟩
  · simp only [step, hadding, Option.some_inj] at ht
    rw [← ht]
    show (addMetric s metric).buffer.getBuffer _ = _
    rw [addMetric_buffer, MetricsBuffer.addMetric, if_neg (type_ne_of_fitsKey hfits),
      MetricsBuffer.getBuffer_addSample, if_pos rfl]
    rfl
  · have hin := h.inHand
    rw [hpc] at hin
    obtain ⟨id, rfl⟩ := hin
    exact describes_makeBatch key snapshot id
  · obtain ⟨e, he, rfl⟩ := h.enqueued batch hbatch
    exact ⟨e, he, rfl, describes_makeBatch e.key e.snapshot e.id⟩

/-- A core's utilisation, a GPU's power and the RAM in use, each in a batch of
its own. -/
def threeSeries : List Action :=
  [.addMetrics
    [{ type := 103, devId := some (.cpu ⟨1, 300⟩), value := 12, timestamp := 5 },
      { type := 200, devId := some (.gpu ⟨0, 1, 2, 3⟩), value := 70, timestamp := 5 },
      { type := 303, devId := none, value := 2048, timestamp := 5 }],
    .addMetric, .addMetric, .addMetric] ++ List.replicate 18 .poll

theorem headers_undo_keys_three :
    ∃ s, Run.exec step (init 4) threeSeries = some s ∧ s.writer.enqueued.length = 3 ∧
      ∀ batch ∈ s.writer.enqueued, batch.timestampsNs.length = batch.values.length := by
  have hrun : (Run.exec step (init 4) threeSeries).map (fun s => s.writer.enqueued.length)
      = some 3 := rfl
  obtain ⟨s, hs, hlen⟩ := Option.map_eq_some_iff.mp hrun
  refine ⟨s, hs, hlen, fun batch hbatch => ?_⟩
  obtain ⟨e, -, -, h⟩ := (headers_undo_keys hs).2.2 batch hbatch
  exact h.lengths

/-- The headers of these batches, and their samples. -/
example : (Run.exec step (init 4) threeSeries).map (fun s => s.writer.enqueued.map fun b =>
      (b.header.map BatchHeader.deviceId, b.samples)) =
    some [(some (some { device := some (.cpu ⟨1, 300⟩) }), [⟨5, 12⟩]),
      (some (some { device := some (.gpu ⟨0, 1, 2, 3⟩) }), [⟨5, 70⟩]),
      (some (some { device := none }), [⟨5, 2048⟩])] := by
  rfl

end MetricsStream
end Volta
