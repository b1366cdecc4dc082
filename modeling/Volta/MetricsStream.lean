/-
One `StreamMetrics` stream, from the collector to the server's event bus
(`stream_metrics_reactor.cc`, `buffer.cc`, `server.go`).

The parties are the collector thread in `AddMetrics`, the reactor's poll
thread, gRPC's calls of `OnReadDone` and `OnWriteDone`, and the server's
`StreamMetrics` handler.  A step is one locked section, or one action of gRPC.

* `mutex_` of the buffer is held while `adding` is not empty, `snapshot_mu_`
  while the reader is between its look-up and its erase; the other locked
  sections are single steps.
* gRPC delivers `toServer` and `toAgent` first in, first out.  The stream may
  break at any moment: `readFails`, a write that completes with `false` and
  `serverFails` can each happen at any time, in any order.
* The fields after `unknownAck` are history that no step of the code reads.
* `exec_addMetrics` — the steps of one `AddMetrics` call add up to the call.
-/
import Volta.Run
import Volta.Writer
import Volta.MetricsBuffer

namespace Volta

namespace MetricsStream

/-- An entry of `pending_snapshots_`. -/
structure Entry where
  id : ℕ
  key : BufferKey
  snapshot : SeriesBuffer.Snapshot
  deriving DecidableEq

/-- The header undoes `makeBufferKey`, by the range of the metric type. -/
def makeHeader (key : BufferKey) : BatchHeader :=
  let device : Option DeviceId :=
    if 100 ≤ key.metricType ∧ key.metricType < 200 then
      some (.cpu
        { socketIndex := key.socketIndex.toUInt32, coreIndex := key.coreIndex.toUInt32 })
    else if 200 ≤ key.metricType ∧ key.metricType < 300 then
      some (.gpu
        { pciDomain := key.pciDomain.toUInt32
          pciBus := key.pciBus.toUInt32
          pciDevice := key.pciDevice.toUInt32
          pciFunction := key.pciFunction.toUInt32 })
    else if 400 ≤ key.metricType ∧ key.metricType < 500 then
      some (.disk { major := key.diskMajor, minor := key.diskMinor })
    else if 500 ≤ key.metricType ∧ key.metricType < 600 then
      some (.network { ifindex := key.ifindex })
    else none
  { metricType := key.metricType, deviceId := some { device := device } }

def makeBatch (key : BufferKey) (snapshot : SeriesBuffer.Snapshot) (id : ℕ) : MetricBatch where
  id := id
  header := some (makeHeader key)
  timestampsNs := snapshot.samples.map fun sample => sample.timestampNs.toUInt64
  values := snapshot.samples.map fun sample => sample.value

/-- Where the poll thread is.  From `nextKey` to `pushBatch` it is in
`EnqueueMetrics`; `keys` are the keys its loop has not come to yet. -/
inductive PollPc where
  | top
  | enqueueMetrics
  | nextKey (keys : List BufferKey)
  | getSnapshot (key : BufferKey) (keys : List BufferKey)
  | buildBatch (key : BufferKey) (snapshot : SeriesBuffer.Snapshot) (keys : List BufferKey)
  | addPending (key : BufferKey) (snapshot : SeriesBuffer.Snapshot) (batch : MetricBatch)
      (keys : List BufferKey)
  | pushBatch (batch : MetricBatch) (keys : List BufferKey)
  | recheck
  | write
  | stopped

/-- Where `OnReadDone` is; in `acking` and `erasing` it holds `snapshot_mu_`. -/
inductive ReadPc where
  | reading
  | acking (entry : Entry)
  | erasing (id : ℕ)
  | closed

def ReadPc.holdsLock : ReadPc → Bool
  | .acking _ | .erasing _ => true
  | .reading | .closed => false

/-- Where the server's handler is in its loop. -/
inductive HandlerPc where
  | recv
  | publish (batch : MetricBatch)
  | sendAck (batch : MetricBatch)
  | returned

structure State where
  buffer : MetricsBuffer
  /-- What the `AddMetrics` call that holds `mutex_` has still to add. -/
  adding : List Metric := []
  poll : PollPc := .top
  reader : ReadPc := .reading
  pendingSnapshots : List Entry := []
  batchIdCounter : ℕ := 0
  writer : Writer MetricBatch := {}
  /-- `OnWriteDone(true)` calls that wait for `write_mu_`. -/
  completed : ℕ := 0
  /-- `OnWriteDone(true)` calls between their pop and their `Write()`. -/
  rewriting : ℕ := 0
  toServer : List MetricBatch := []
  toAgent : List BatchAck := []
  handler : HandlerPc := .recv
  /-- The batches given to `bus.Publish`, in order. -/
  published : List MetricBatch := []
  /-- A null `GetBuffer` result was dereferenced. -/
  nullDeref : Bool := false
  /-- The branch "Received ACK for unknown batch_id" was taken. -/
  unknownAck : Bool := false
  /-- All samples pushed to the series of a key. -/
  pushed : BufferKey → List Sample := fun _ => []
  /-- The indices of samples that `Push` passed over on a full ring. -/
  overflowed : BufferKey → List ℕ := fun _ => []
  /-- All entries ever put in `pending_snapshots_`. -/
  taken : List Entry := []
  /-- The batch IDs whose acks `OnReadDone` has processed. -/
  acked : List ℕ := []
  /-- The poll thread has pushed a batch and not yet come to its `Write()` or
  to the decision against it. -/
  passPushed : Bool := false

def init (capacity : ℕ) : State := { buffer := MetricsBuffer.ofCapacity capacity }

/-- `AddSample`: a push on a full ring passes over the sample at `tail`. -/
def addSample (s : State) (key : BufferKey) (sample : Sample) : State :=
  let b := s.buffer.seriesFor key
  { s with
    buffer := s.buffer.addSample key sample
    pushed := Function.update s.pushed key (s.pushed key ++ [sample])
    overflowed :=
      if sizeSub b.head b.tail ≥ b.capacity then
        Function.update s.overflowed key (s.overflowed key ++ [b.tail])
      else s.overflowed }

/-- `AddMetric`. -/
def addMetric (s : State) (metric : Metric) : State :=
  if metric.type = metricTypeUnspecified then s
  else
    addSample s (makeBufferKey metric)
      { timestampNs := metric.timestamp, value := metric.value }

/-- `Write()` under `write_mu_`: a started message goes on the wire. -/
def startWrite (s : State) : State :=
  { s with
    writer := s.writer.write
    toServer := s.toServer ++ s.writer.toStart.toList }

/-- `emplace` leaves an entry with the same ID alone. -/
def emplace (pending : List Entry) (entry : Entry) : List Entry :=
  if pending.any (fun e => e.id == entry.id) then pending else pending ++ [entry]

/-- One step of the poll thread. -/
def pollStep (s : State) : Option State :=
  match s.poll with
  | .top =>
      if s.reader.holdsLock then none
      else if s.pendingSnapshots.isEmpty then some { s with poll := .enqueueMetrics }
      else some s  -- sleep, and look again
  | .enqueueMetrics =>
      if s.adding.isEmpty then some { s with poll := .nextKey s.buffer.getAllKeys } else none
  -- the loop of `EnqueueMetrics` over the keys
  | .nextKey [] => some { s with poll := .recheck }
  | .nextKey (key :: keys) =>
      if s.adding.isEmpty then
        match s.buffer.getBuffer key with
        | none => some { s with nullDeref := true, poll := .stopped }
        | some _ => some { s with poll := .getSnapshot key keys }
      else none
  | .getSnapshot key keys =>
      -- no result: the exception of `reserve` ends the thread
      ((s.buffer.getBuffer key).bind SeriesBuffer.getSnapshot).map fun snapshot =>
        { s with
          poll := if snapshot.samples.isEmpty then .nextKey keys
            else .buildBatch key snapshot keys }
  | .buildBatch key snapshot keys =>
      some
        { s with
          batchIdCounter := s.batchIdCounter + 1
          poll := .addPending key snapshot (makeBatch key snapshot s.batchIdCounter) keys }
  | .addPending key snapshot batch keys =>
      -- pending before it is queued, so no ack can come first
      if s.reader.holdsLock then none
      else some
        { s with
          pendingSnapshots := emplace s.pendingSnapshots ⟨batch.id, key, snapshot⟩
          taken := s.taken ++ [⟨batch.id, key, snapshot⟩]
          poll := .pushBatch batch keys }
  | .pushBatch batch keys =>
      some { s with writer := s.writer.push batch, passPushed := true, poll := .nextKey keys }
  | .recheck =>
      if s.reader.holdsLock then none
      else if s.pendingSnapshots.isEmpty then some { s with poll := .top, passPushed := false }
      else some { s with poll := .write }
  | .write => some { startWrite s with poll := .top, passPushed := false }
  | .stopped => none

/-- One step of `OnReadDone(true)`. -/
def readStep (s : State) : Option State :=
  match s.reader, s.toAgent with
  | .reading, ack :: acks =>
      if s.adding.isEmpty then
        match s.pendingSnapshots.find? fun e => e.id == ack.batchId with
        -- the branch only prints
        | none => some { s with toAgent := acks, unknownAck := true }
        | some entry =>
            match s.buffer.getBuffer entry.key with
            | none => some { s with toAgent := acks, nullDeref := true, reader := .closed }
            | some _ => some { s with toAgent := acks, reader := .acking entry }
      else none
  | .reading, [] => none
  | .acking entry, _ =>
      some
        { s with
          buffer := s.buffer.modify entry.key fun b => b.ackSnapshot entry.snapshot
          reader := .erasing entry.id }
  | .erasing id, _ =>
      some
        { s with
          pendingSnapshots := s.pendingSnapshots.eraseP fun e => e.id == id
          acked := s.acked ++ [id]
          reader := .reading }
  | .closed, _ => none

/-- One step of the server's handler. -/
def serverStep (s : State) : Option State :=
  match s.handler, s.toServer with
  | .recv, batch :: batches => some { s with toServer := batches, handler := .publish batch }
  | .recv, [] => none
  | .publish batch, _ =>
      some { s with published := s.published ++ [batch], handler := .sendAck batch }
  | .sendAck batch, _ =>
      some
        { s with
          toAgent := s.toAgent ++
            [{ batchId := batch.id, samplesReceived := batch.values.length }]
          handler := .recv }
  | .returned, _ => none

inductive Action where
  | addMetrics (metrics : List Metric)
  | addMetric
  | poll
  | stopPoll
  | read
  | readFails
  | writeCompletes (ok : Bool)
  | onWriteDonePop
  | onWriteDoneWrite
  | server
  | serverFails

def step (s : State) : Action → Option State
  | .addMetrics metrics => if s.adding.isEmpty then some { s with adding := metrics } else none
  | .addMetric =>
      match s.adding with
      | [] => none
      | metric :: metrics => some { addMetric s metric with adding := metrics }
  | .poll => pollStep s
  | .stopPoll =>
      match s.poll with
      | .top => some { s with poll := .stopped }
      | _ => none
  | .read => readStep s
  | .readFails =>
      match s.reader with
      | .reading => some { s with reader := .closed }
      | _ => none
  | .writeCompletes ok =>
      if s.writer.outstanding.isEmpty then none
      else some
        { s with
          writer := s.writer.complete
          completed := if ok then s.completed + 1 else s.completed }
  | .onWriteDonePop =>
      match s.completed with
      | 0 => none
      | n + 1 => some
          { s with completed := n, writer := s.writer.pop, rewriting := s.rewriting + 1 }
  | .onWriteDoneWrite =>
      match s.rewriting with
      | 0 => none
      | n + 1 => some { startWrite s with rewriting := n }
  | .server => serverStep s
  | .serverFails =>
      -- `Recv` or `Send` returns an error
      match s.handler with
      | .recv | .sendAck _ => some { s with handler := .returned }
      | .publish _ | .returned => none

/-! ### What the threads leave alone -/

theorem addMetric_frame (s : State) (metric : Metric) :
    (addMetric s metric).poll = s.poll ∧ (addMetric s metric).taken = s.taken ∧
      (addMetric s metric).writer = s.writer := by
  rw [addMetric]
  split
  · exact ⟨rfl, rfl, rfl⟩
  · exact ⟨rfl, rfl, rfl⟩

theorem readStep_frame {s t : State} (ht : readStep s = some t) :
    t.poll = s.poll ∧ t.taken = s.taken ∧ t.writer = s.writer := by
  rw [readStep] at ht
  split at ht
  · split at ht
    · split at ht
      · rw [← Option.some_inj.mp ht]
        exact ⟨rfl, rfl, rfl⟩
      · split at ht
        · rw [← Option.some_inj.mp ht]
          exact ⟨rfl, rfl, rfl⟩
        · rw [← Option.some_inj.mp ht]
          exact ⟨rfl, rfl, rfl⟩
    · exact absurd ht (by simp)
  · exact absurd ht (by simp)
  · rw [← Option.some_inj.mp ht]
    exact ⟨rfl, rfl, rfl⟩
  · rw [← Option.some_inj.mp ht]
    exact ⟨rfl, rfl, rfl⟩
  · exact absurd ht (by simp)

theorem serverStep_frame {s t : State} (ht : serverStep s = some t) :
    t.poll = s.poll ∧ t.taken = s.taken ∧ t.writer = s.writer ∧ t.buffer = s.buffer := by
  rw [serverStep] at ht
  split at ht
  · rw [← Option.some_inj.mp ht]
    exact ⟨rfl, rfl, rfl, rfl⟩
  · exact absurd ht (by simp)
  · rw [← Option.some_inj.mp ht]
    exact ⟨rfl, rfl, rfl, rfl⟩
  · rw [← Option.some_inj.mp ht]
    exact ⟨rfl, rfl, rfl, rfl⟩
  · exact absurd ht (by simp)

/-- The poll thread's step, by the fields that it writes. -/
theorem pollStep_eq {s t : State} (h : pollStep s = some t) :
    t = { s with
          poll := t.poll
          pendingSnapshots := t.pendingSnapshots
          batchIdCounter := t.batchIdCounter
          writer := t.writer
          toServer := t.toServer
          nullDeref := t.nullDeref
          taken := t.taken
          passPushed := t.passPushed } := by
  rw [pollStep] at h
  split at h
  case h_1 | h_9 =>
    split at h
    · exact absurd h (by simp)
    · split at h <;> cases h <;> rfl
  case h_4 =>
    split at h
    · split at h <;> cases h <;> rfl
    · exact absurd h (by simp)
  case h_5 =>
    obtain ⟨snapshot, -, rfl⟩ := Option.map_eq_some_iff.mp h
    rfl
  case h_2 =>
    split at h
    · cases h
      rfl
    · exact absurd h (by simp)
  case h_7 =>
    split at h
    · exact absurd h (by simp)
    · cases h
      rfl
  case h_11 => exact absurd h (by simp)
  all_goals
    cases h
    rfl

/-- The reader's step, by the fields that it writes. -/
theorem readStep_eq {s t : State} (h : readStep s = some t) :
    t = { s with
          buffer := t.buffer
          reader := t.reader
          pendingSnapshots := t.pendingSnapshots
          toAgent := t.toAgent
          nullDeref := t.nullDeref
          unknownAck := t.unknownAck
          acked := t.acked } := by
  rw [readStep] at h
  split at h
  case h_1 =>
    split at h
    · split at h
      · cases h
        rfl
      · split at h <;> cases h <;> rfl
    · exact absurd h (by simp)
  case h_3 | h_4 =>
    cases h
    rfl
  case h_2 | h_5 => exact absurd h (by simp)

/-- The handler's step, by the fields that it writes. -/
theorem serverStep_eq {s t : State} (h : serverStep s = some t) :
    t = { s with
          handler := t.handler
          toServer := t.toServer
          toAgent := t.toAgent
          published := t.published } := by
  rw [serverStep] at h
  split at h
  case h_1 | h_3 | h_4 =>
    cases h
    rfl
  case h_2 | h_5 => exact absurd h (by simp)

/-! ### An `AddMetrics` call as a whole -/

theorem addMetric_buffer (s : State) (metric : Metric) :
    (addMetric s metric).buffer = s.buffer.addMetric metric := by
  rw [addMetric, MetricsBuffer.addMetric]
  split <;> rfl

/-- Its steps, taken one after another, do to the buffer what `AddMetrics` does. -/
theorem exec_addMetrics (metrics : List Metric) (s : State) :
    ∃ t, Run.exec step { s with adding := metrics }
        (List.replicate metrics.length .addMetric) = some t ∧
      t.adding = [] ∧ t.buffer = s.buffer.addMetrics metrics := by
  induction metrics generalizing s with
  | nil => exact ⟨{ s with adding := [] }, rfl, rfl, rfl⟩
  | cons metric metrics ih =>
    obtain ⟨t, ht, hadding, hbuf⟩ := ih (addMetric { s with adding := metric :: metrics } metric)
    refine ⟨t, Run.exec_cons_eq_some.mpr ⟨_, rfl, ht⟩, hadding, ?_⟩
    rw [hbuf, addMetric_buffer]
    rfl

/-! ### What was published, by push index -/

/-- The index of a snapshot's first sample. -/
def Entry.start (e : Entry) : ℕ := e.snapshot.end - e.snapshot.samples.length

def Entry.batch (e : Entry) : MetricBatch := makeBatch e.key e.snapshot e.id

/-- The push indices of the snapshot beside the timestamps and values that the
batch carries. -/
def samplesOf (e : Entry) (batch : MetricBatch) : List (ℕ × UInt64 × Double) :=
  (List.range' e.start e.snapshot.samples.length).zip (batch.timestampsNs.zip batch.values)

/-- The series a batch was taken from, with the snapshot. -/
def State.origin (s : State) (batch : MetricBatch) : Option Entry :=
  s.taken.find? fun e => e.id == batch.id

/-- What the server published for a key, in order of publication. -/
def State.publishedSamples (s : State) (key : BufferKey) : List (ℕ × UInt64 × Double) :=
  s.published.flatMap fun batch =>
    match s.origin batch with
    | none => []
    | some e => if e.key = key then samplesOf e batch else []

/-- `tail_` of the series of a key. -/
def State.tail (s : State) (key : BufferKey) : ℕ := (s.buffer.seriesFor key).tail

end MetricsStream
end Volta
