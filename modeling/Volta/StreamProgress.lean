/-
The `StreamMetrics` stream comes to rest: as long as no read, write or handler
fails and the poll thread is not stopped, the agent, gRPC and the server, by
themselves, bring everything that was pushed to the server and its acks back.

A batch goes through the stages of the stream one step at a time, so the work that
is left is a number: a weight for each stage, summed over what is in it.  The poll
thread starts a pass whenever nothing is pending, so the weight of a pass is not
counted before it starts.

* `State.work` — what is left to do before the stream is quiet;
* `Unbroken` — no call has failed;
* `exists_lighter` — an unbroken stream that is not quiet has a step that leaves
  less to do;
* `Visited` — after a pass, what it has not taken is no longer there to take;
* `all_delivered` — all samples reach the server, but for those that overflow;
* `in_flight_bounded` — until then no more than a batch of each series is on its
  way.
-/
import Volta.StreamDelivery
import Volta.SeriesContents

namespace Volta

namespace MetricsStream

/-! ### What is still to be pushed -/

/-- The samples that an `AddMetrics` call pushes to the series of a key. -/
def toPush (key : BufferKey) (metrics : List Metric) : List Sample :=
  Volta.samplesOf key (specified metrics)

theorem toPush_cons (key : BufferKey) (metric : Metric) (metrics : List Metric) :
    toPush key (metric :: metrics)
      = (if metric.type ≠ metricTypeUnspecified ∧ makeBufferKey metric = key then
          [metric.toSample] else []) ++ toPush key metrics := by
  rw [toPush, specified, Volta.samplesOf, Grouping.group]
  by_cases htype : metric.type = metricTypeUnspecified
  · rw [List.filter_cons_of_neg (by simpa using htype), if_neg fun h => h.1 htype]
    rfl
  · rw [List.filter_cons_of_pos (by simpa using htype)]
    by_cases hkey : makeBufferKey metric = key
    · rw [List.filter_cons_of_pos (by simpa using hkey), if_pos ⟨htype, hkey⟩]
      rfl
    · rw [List.filter_cons_of_neg (by simpa using hkey), if_neg fun h => hkey h.2]
      rfl

theorem toPush_append (key : BufferKey) (metrics metrics' : List Metric) :
    toPush key (metrics ++ metrics') = toPush key metrics ++ toPush key metrics' := by
  simp only [toPush, specified, Volta.samplesOf, Grouping.group, List.filter_append,
    List.map_append]

theorem pushed_addMetric (s : State) (metric : Metric) (key : BufferKey) :
    (addMetric s metric).pushed key
      = s.pushed key ++ if metric.type ≠ metricTypeUnspecified ∧ makeBufferKey metric = key then
          [metric.toSample] else [] := by
  rw [addMetric]
  by_cases htype : metric.type = metricTypeUnspecified
  · rw [if_pos htype, if_neg fun h => h.1 htype, List.append_nil]
  · rw [if_neg htype]
    show Function.update s.pushed (makeBufferKey metric) _ key = _
    by_cases hkey : makeBufferKey metric = key
    · rw [if_pos ⟨htype, hkey⟩, hkey, Function.update_self]
      rfl
    · rw [if_neg fun h => hkey h.2, Function.update_of_ne (Ne.symm hkey), List.append_nil]

/-- A call of `AddMetrics` brings its metrics; every other step keeps what was
pushed and what is to be pushed, one after the other. -/
theorem pushed_of_step {s t : State} {a : Action} (h : step s a = some t) :
    (∃ metrics, a = .addMetrics metrics ∧ s.adding = [] ∧ t.adding = metrics ∧
      t.pushed = s.pushed) ∨
    (∀ metrics, a ≠ .addMetrics metrics) ∧
      ∀ key, t.pushed key ++ toPush key t.adding = s.pushed key ++ toPush key s.adding := by
  cases a with
  | addMetrics metrics =>
    simp only [step] at h
    split at h
    · rename_i hadding
      cases h
      exact .inl ⟨metrics, rfl, List.isEmpty_iff.mp hadding, rfl, rfl⟩
    · exact absurd h (by simp)
  | addMetric =>
    simp only [step] at h
    split at h
    · exact absurd h (by simp)
    · rename_i metric metrics hadding
      cases h
      refine .inr ⟨by simp, fun key => ?_⟩
      rw [hadding, toPush_cons, ← List.append_assoc, ← pushed_addMetric]
  | poll =>
    rw [pollStep_eq h]
    exact .inr ⟨by simp, fun _ => rfl⟩
  | read =>
    rw [readStep_eq h]
    exact .inr ⟨by simp, fun _ => rfl⟩
  | server =>
    rw [serverStep_eq h]
    exact .inr ⟨by simp, fun _ => rfl⟩
  | _ =>
    simp only [step] at h
    split at h <;> cases h
    all_goals exact .inr ⟨by simp, fun _ => rfl⟩

/-! ### The work that is left -/

/-- A pass makes at most one batch of each of its keys. -/
def State.pollWork (s : State) : ℕ :=
  match s.poll with
  | .top => 0
  | .enqueueMetrics => 20 * s.buffer.getAllKeys.length + 4
  | .nextKey keys => 20 * keys.length + 3
  | .getSnapshot _ keys => 20 * keys.length + 22
  | .buildBatch _ _ keys => 20 * keys.length + 21
  | .addPending _ _ _ keys => 20 * keys.length + 20
  | .pushBatch _ keys => 20 * keys.length + 19
  | .recheck => 2
  | .write => 1
  | .stopped => 0

def HandlerPc.work : HandlerPc → ℕ
  | .publish _ => 9
  | .sendAck _ => 8
  | _ => 0

def ReadPc.work : ReadPc → ℕ
  | .acking _ => 6
  | .erasing _ => 5
  | _ => 0

/-- A write has two sides: what gRPC and `OnWriteDone` have still to do, and what
the server and the reader have. -/
def State.writeWork (s : State) : ℕ :=
  14 * s.writer.waiting.length + 3 * s.writer.outstanding.length + 10 * s.toServer.length

def State.work (s : State) : ℕ :=
  21 * s.adding.length + s.pollWork + s.writeWork + 2 * s.completed + s.rewriting +
    s.handler.work + 7 * s.toAgent.length + s.reader.work

/-- A failed call, or the end of the client. -/
def Action.Fails : Action → Prop
  | .stopPoll | .readFails | .writeCompletes false | .serverFails => True
  | _ => False

/-- What the agent, gRPC and the server do without the collectors. -/
def Own (a : Action) : Prop := ¬ a.Fails ∧ ∀ metrics, a ≠ .addMetrics metrics

/-- No call has failed: nobody has left, and a write that is on will complete. -/
structure Unbroken (s : State) : Prop where
  reader : s.reader ≠ .closed
  handler : s.handler ≠ .returned
  poll : s.poll ≠ .stopped
  writes : s.writer.writing = true → s.writer.outstanding.length + s.completed = 1

theorem unbroken_init (capacity : ℕ) : Unbroken (init capacity) where
  reader := nofun
  handler := nofun
  poll := nofun
  writes h := nomatch h

/-! ### `Write()` -/

theorem startWrite_work {C : ℕ} {s : State} (h : Inv C s) :
    (startWrite s).writeWork ≤ s.writeWork := by
  cases hmsg : s.writer.toStart with
  | none =>
    have hwrite : s.writer.write = s.writer := by rw [Writer.write, hmsg]
    rw [State.writeWork, State.writeWork, startWrite, hmsg, hwrite]
    dsimp only
    rw [Option.toList_none, List.append_nil]
  | some msg =>
    obtain ⟨rest, hw, hq, -, heq⟩ := h.ordered.write_of_some hmsg
    have hwaiting : s.writer.waiting.length = rest.length + 1 := by
      rw [Writer.waiting, hw, if_neg (by simp), hq, List.length_cons]
    rw [State.writeWork, State.writeWork, startWrite, hmsg, heq, hwaiting]
    simp only [Writer.waiting, if_true, hq, List.tail_cons, List.length_singleton,
      Option.toList_some, List.length_append]
    omega

theorem startWrite_writes {C : ℕ} {s : State} (h : Inv C s) (hok : Unbroken s)
    (hw : s.writer.write.writing = true) :
    s.writer.write.outstanding.length + s.completed = 1 := by
  cases hmsg : s.writer.toStart with
  | none =>
    have hwrite : s.writer.write = s.writer := by rw [Writer.write, hmsg]
    rw [hwrite] at hw ⊢
    exact hok.writes hw
  | some msg =>
    obtain ⟨rest, -, -, hc, heq⟩ := h.ordered.write_of_some hmsg
    rw [heq, hc]
    rfl

/-! ### Nothing breaks by itself -/

section Unbroken

variable {C : ℕ} {s t : State}

theorem Unbroken.pollStep (hok : Unbroken s) (h : Inv C s)
    (ht : MetricsStream.pollStep s = some t) : Unbroken t := by
  have hnull : t.nullDeref = false := (h.pollStep ht).no_nullDeref
  rw [MetricsStream.pollStep] at ht
  split at ht
  case h_1 | h_9 =>
    split at ht
    · exact absurd ht (by simp)
    · split at ht <;> cases ht
      · exact ⟨hok.reader, hok.handler, by simp, hok.writes⟩
      · first
        | exact hok
        | exact ⟨hok.reader, hok.handler, by simp, hok.writes⟩
  case h_2 =>
    split at ht
    · cases ht
      exact ⟨hok.reader, hok.handler, by simp, hok.writes⟩
    · exact absurd ht (by simp)
  case h_4 =>
    split at ht
    · split at ht <;> cases ht
      · exact absurd hnull (by simp)
      · exact ⟨hok.reader, hok.handler, by simp, hok.writes⟩
    · exact absurd ht (by simp)
  case h_5 =>
    obtain ⟨snapshot, -, rfl⟩ := Option.map_eq_some_iff.mp ht
    refine ⟨hok.reader, hok.handler, ?_, hok.writes⟩
    dsimp only
    split <;> simp
  case h_7 =>
    split at ht
    · exact absurd ht (by simp)
    · cases ht
      exact ⟨hok.reader, hok.handler, by simp, hok.writes⟩
  case h_10 =>
    cases ht
    exact ⟨hok.reader, hok.handler, by simp, fun hw => startWrite_writes h hok hw⟩
  case h_11 => exact absurd ht (by simp)
  case h_3 | h_6 | h_8 =>
    cases ht
    exact ⟨hok.reader, hok.handler, by simp, hok.writes⟩

theorem Unbroken.readStep (hok : Unbroken s) (h : Inv C s)
    (ht : MetricsStream.readStep s = some t) : Unbroken t := by
  have hnull : t.nullDeref = false := (h.readStep ht).no_nullDeref
  rw [MetricsStream.readStep] at ht
  split at ht
  case h_1 =>
    split at ht
    · split at ht
      · cases ht
        exact ⟨hok.reader, hok.handler, hok.poll, hok.writes⟩
      · split at ht <;> cases ht
        · exact absurd hnull (by simp)
        · exact ⟨by simp, hok.handler, hok.poll, hok.writes⟩
    · exact absurd ht (by simp)
  case h_2 | h_5 => exact absurd ht (by simp)
  case h_3 | h_4 =>
    cases ht
    exact ⟨by simp, hok.handler, hok.poll, hok.writes⟩

theorem Unbroken.serverStep (hok : Unbroken s) (ht : MetricsStream.serverStep s = some t) :
    Unbroken t := by
  rw [MetricsStream.serverStep] at ht
  split at ht
  case h_1 | h_3 | h_4 =>
    cases ht
    exact ⟨hok.reader, by simp, hok.poll, hok.writes⟩
  case h_2 | h_5 => exact absurd ht (by simp)

/-- Only a call that fails breaks the stream. -/
theorem Unbroken.step (hok : Unbroken s) (h : Inv C s) {a : Action} (ha : ¬ a.Fails)
    (ht : MetricsStream.step s a = some t) : Unbroken t := by
  cases a with
  | addMetrics metrics =>
    simp only [MetricsStream.step] at ht
    split at ht <;> cases ht
    exact ⟨hok.reader, hok.handler, hok.poll, hok.writes⟩
  | addMetric =>
    simp only [MetricsStream.step] at ht
    split at ht <;> cases ht
    rw [addMetric]
    split
    · exact ⟨hok.reader, hok.handler, hok.poll, hok.writes⟩
    · exact ⟨hok.reader, hok.handler, hok.poll, hok.writes⟩
  | poll => exact hok.pollStep h ht
  | read => exact hok.readStep h ht
  | server => exact hok.serverStep ht
  | writeCompletes ok =>
    cases ok with
    | false => exact absurd trivial ha
    | true =>
      simp only [MetricsStream.step] at ht
      split at ht <;> cases ht
      rename_i hout
      refine ⟨hok.reader, hok.handler, hok.poll, fun hw => ?_⟩
      have hone := hok.writes hw
      have hpos := List.length_pos_of_ne_nil (fun hnil => hout (List.isEmpty_iff.mpr hnil))
      show s.writer.outstanding.tail.length + (s.completed + 1) = 1
      rw [List.length_tail]
      omega
  | onWriteDonePop =>
    simp only [MetricsStream.step] at ht
    split at ht <;> cases ht
    exact ⟨hok.reader, hok.handler, hok.poll, by simp [Writer.pop]⟩
  | onWriteDoneWrite =>
    simp only [MetricsStream.step] at ht
    split at ht <;> cases ht
    exact ⟨hok.reader, hok.handler, hok.poll, fun hw => startWrite_writes h hok hw⟩
  | stopPoll | readFails | serverFails => exact absurd trivial ha

end Unbroken

/-! ### A step that leaves less -/

section Lighter

variable {C : ℕ} {s : State}

/-- The step is taken and leaves less to do. -/
def Lighter (s : State) (a : Action) : Prop :=
  ∃ t, step s a = some t ∧ t.work < s.work

theorem pollWork_congr {t : State} (hpoll : t.poll = s.poll)
    (hkeys : t.buffer.getAllKeys = s.buffer.getAllKeys) : t.pollWork = s.pollWork := by
  rw [State.pollWork, State.pollWork, hpoll, hkeys]

/-- A new key makes a pass that is about to start longer. -/
theorem pollWork_addMetric (s : State) (metric : Metric) :
    (addMetric s metric).pollWork ≤ s.pollWork + 20 := by
  have hkeys : (addMetric s metric).buffer.getAllKeys.length ≤ s.buffer.getAllKeys.length + 1 := by
    rw [addMetric_buffer, MetricsBuffer.addMetric]
    split
    · exact Nat.le_succ _
    · rw [MetricsBuffer.getAllKeys_addSample]
      split
      · exact Nat.le_succ _
      · rw [List.length_append, List.length_singleton]
  rw [State.pollWork, State.pollWork, (addMetric_frame s metric).1]
  split <;> omega

theorem lighter_addMetric (hadding : s.adding ≠ []) : Lighter s .addMetric := by
  obtain ⟨metric, metrics, heq⟩ := List.exists_cons_of_ne_nil hadding
  have hpoll := pollWork_addMetric s metric
  refine ⟨{ addMetric s metric with adding := metrics }, by simp only [step, heq], ?_⟩
  have hrest : ({ addMetric s metric with adding := metrics } : State).work
      = 21 * metrics.length + (addMetric s metric).pollWork + s.writeWork + 2 * s.completed
        + s.rewriting + s.handler.work + 7 * s.toAgent.length + s.reader.work := by
    rw [addMetric]
    split <;> rfl
  rw [hrest, State.work, heq, List.length_cons]
  omega

theorem lighter_read_lock (hlock : s.reader.holdsLock = true) : Lighter s .read := by
  cases hr : s.reader with
  | reading | closed => simp [hr, ReadPc.holdsLock] at hlock
  | acking entry =>
    refine ⟨{ s with
      buffer := s.buffer.modify entry.key fun b => b.ackSnapshot entry.snapshot
      reader := .erasing entry.id }, by simp only [step, readStep, hr], ?_⟩
    have hpoll : State.pollWork { s with
        buffer := s.buffer.modify entry.key fun b => b.ackSnapshot entry.snapshot
        reader := .erasing entry.id } = s.pollWork :=
      pollWork_congr rfl (MetricsBuffer.getAllKeys_modify _ _ _)
    rw [State.work, State.work, hpoll, hr]
    exact Nat.add_lt_add_left (Nat.lt_succ_self 5) _
  | erasing id =>
    refine ⟨{ s with
      pendingSnapshots := s.pendingSnapshots.eraseP fun e => e.id == id
      acked := s.acked ++ [id]
      reader := .reading }, by simp only [step, readStep, hr], ?_⟩
    rw [State.work, State.work, hr]
    exact Nat.add_lt_add_left (Nat.succ_pos 4) _

theorem lighter_read (h : Inv C s) (hadding : s.adding = []) (hr : s.reader = .reading)
    (hack : s.toAgent ≠ []) : Lighter s .read := by
  obtain ⟨ack, acks, heq⟩ := List.exists_cons_of_ne_nil hack
  obtain ⟨entry, hget, -, hfind⟩ := h.find_batchId (by rw [hr]; rfl) heq
  have hkey := h.taken_keys entry (List.mem_of_getElem? hget)
  refine ⟨{ s with toAgent := acks, reader := .acking entry }, ?_, ?_⟩
  · simp only [step, readStep, hr, heq, hadding, List.isEmpty_nil, if_true, hfind,
      s.buffer.seriesFor_of_mem hkey]
  · rw [State.work, State.work, hr, heq, List.length_cons]
    show 21 * s.adding.length + s.pollWork + s.writeWork + 2 * s.completed + s.rewriting
      + s.handler.work + 7 * acks.length + 6 < _
    omega

theorem lighter_server (hbusy : s.handler.work ≠ 0) : Lighter s .server := by
  cases hhandler : s.handler with
  | recv | returned => exact absurd (by rw [hhandler]; rfl) hbusy
  | publish batch =>
    refine ⟨{ s with published := s.published ++ [batch], handler := .sendAck batch },
      by simp only [step, serverStep, hhandler], ?_⟩
    rw [State.work, State.work, hhandler]
    show 21 * s.adding.length + s.pollWork + s.writeWork + 2 * s.completed + s.rewriting
      + 8 + 7 * s.toAgent.length + s.reader.work
      < 21 * s.adding.length + s.pollWork + s.writeWork + 2 * s.completed + s.rewriting
        + 9 + 7 * s.toAgent.length + s.reader.work
    omega
  | sendAck batch =>
    have ht : step s .server = some
        { s with
          toAgent := s.toAgent ++ [{ batchId := batch.id, samplesReceived := batch.values.length }]
          handler := .recv } := by
      simp only [step, serverStep, hhandler]
    refine ⟨_, ht, ?_⟩
    rw [State.work, State.work, hhandler, List.length_append, List.length_singleton]
    show 21 * s.adding.length + s.pollWork + s.writeWork + 2 * s.completed + s.rewriting
      + 0 + 7 * (s.toAgent.length + 1) + s.reader.work
      < 21 * s.adding.length + s.pollWork + s.writeWork + 2 * s.completed + s.rewriting
        + 8 + 7 * s.toAgent.length + s.reader.work
    omega

theorem lighter_recv (hhandler : s.handler = .recv) (hserver : s.toServer ≠ []) :
    Lighter s .server := by
  obtain ⟨batch, batches, heq⟩ := List.exists_cons_of_ne_nil hserver
  refine ⟨{ s with toServer := batches, handler := .publish batch },
    by simp only [step, serverStep, hhandler, heq], ?_⟩
  rw [State.work, State.work, hhandler, State.writeWork, State.writeWork, heq, List.length_cons]
  show 21 * s.adding.length + s.pollWork
      + (14 * s.writer.waiting.length + 3 * s.writer.outstanding.length + 10 * batches.length)
      + 2 * s.completed + s.rewriting + 9 + 7 * s.toAgent.length + s.reader.work
    < 21 * s.adding.length + s.pollWork
      + (14 * s.writer.waiting.length + 3 * s.writer.outstanding.length
        + 10 * (batches.length + 1))
      + 2 * s.completed + s.rewriting + 0 + 7 * s.toAgent.length + s.reader.work
  omega

theorem lighter_writeCompletes (hout : s.writer.outstanding ≠ []) :
    Lighter s (.writeCompletes true) := by
  have hpos := List.length_pos_of_ne_nil hout
  have ht : step s (.writeCompletes true) = some
      { s with writer := s.writer.complete, completed := s.completed + 1 } := by
    simp only [step, if_true]
    rw [if_neg fun hnil => hout (List.isEmpty_iff.mp hnil)]
  refine ⟨_, ht, ?_⟩
  rw [State.work, State.work, State.writeWork, State.writeWork]
  show 21 * s.adding.length + s.pollWork
      + (14 * s.writer.waiting.length + 3 * s.writer.outstanding.tail.length
        + 10 * s.toServer.length)
      + 2 * (s.completed + 1) + s.rewriting + s.handler.work + 7 * s.toAgent.length + s.reader.work
    < _
  rw [List.length_tail]
  omega

theorem lighter_pop (h : Inv C s) (hcompleted : s.completed ≠ 0) : Lighter s .onWriteDonePop := by
  obtain ⟨n, heq⟩ := Nat.exists_eq_succ_of_ne_zero hcompleted
  have ht : step s .onWriteDonePop = some
      { s with completed := n, writer := s.writer.pop, rewriting := s.rewriting + 1 } := by
    simp only [step, heq]
  -- the front was being written, so it was not waiting
  have hwaiting : s.writer.pop.waiting = s.writer.waiting := by
    have hw : s.writer.writing = true := by
      by_contra hw
      exact hcompleted (h.ordered.idle (by simpa using hw)).2
    simp [Writer.waiting, Writer.pop, hw]
  refine ⟨_, ht, ?_⟩
  rw [State.work, State.work, State.writeWork, State.writeWork, heq]
  show 21 * s.adding.length + s.pollWork
      + (14 * s.writer.pop.waiting.length + 3 * s.writer.outstanding.length
        + 10 * s.toServer.length)
      + 2 * n + (s.rewriting + 1) + s.handler.work + 7 * s.toAgent.length + s.reader.work < _
  rw [hwaiting]
  omega

theorem lighter_write (h : Inv C s) (hrewriting : s.rewriting ≠ 0) :
    Lighter s .onWriteDoneWrite := by
  obtain ⟨n, heq⟩ := Nat.exists_eq_succ_of_ne_zero hrewriting
  have ht : step s .onWriteDoneWrite = some { startWrite s with rewriting := n } := by
    simp only [step, heq]
  have hle := startWrite_work h
  refine ⟨_, ht, ?_⟩
  rw [State.work, State.work, heq]
  show 21 * s.adding.length + s.pollWork + (startWrite s).writeWork + 2 * s.completed + n
    + s.handler.work + 7 * s.toAgent.length + s.reader.work < _
  omega

/-- The poll thread writes to its own part of the work and to the writes. -/
theorem lighter_of_pollStep {t : State} (ht : pollStep s = some t)
    (hlt : t.pollWork + t.writeWork < s.pollWork + s.writeWork) : Lighter s .poll := by
  have hadding : t.adding = s.adding := by rw [pollStep_eq ht]
  have hcompleted : t.completed = s.completed := by rw [pollStep_eq ht]
  have hrewriting : t.rewriting = s.rewriting := by rw [pollStep_eq ht]
  have hhandler : t.handler = s.handler := by rw [pollStep_eq ht]
  have htoAgent : t.toAgent = s.toAgent := by rw [pollStep_eq ht]
  have hreader : t.reader = s.reader := by rw [pollStep_eq ht]
  refine ⟨t, ht, ?_⟩
  rw [State.work, State.work, hadding, hcompleted, hrewriting, hhandler, htoAgent, hreader]
  omega

/-- The poll thread waits for nobody but the call of `AddMetrics` and the reader. -/
theorem lighter_poll (h : Inv C s) (hok : Unbroken s) (hadding : s.adding = [])
    (hlock : s.reader.holdsLock = false) (hpoll : s.poll ≠ .top) : Lighter s .poll := by
  cases hpc : s.poll with
  | top => exact absurd hpc hpoll
  | stopped => exact absurd hpc hok.poll
  | enqueueMetrics =>
    have ht : pollStep s = some { s with poll := .nextKey s.buffer.getAllKeys } := by
      simp only [pollStep, hpc, hadding, List.isEmpty_nil, if_true]
    refine lighter_of_pollStep ht (Nat.add_lt_add_right ?_ _)
    rw [State.pollWork, State.pollWork, hpc]
    exact Nat.lt_succ_self _
  | nextKey keys =>
    cases keys with
    | nil =>
      have ht : pollStep s = some { s with poll := .recheck } := by simp only [pollStep, hpc]
      refine lighter_of_pollStep ht (Nat.add_lt_add_right ?_ _)
      rw [State.pollWork, State.pollWork, hpc]
      exact Nat.lt_succ_self _
    | cons key keys =>
      have hmem : key ∈ s.buffer.getAllKeys := by
        apply h.keysLeft_keys
        rw [hpc]
        exact List.mem_cons_self
      have ht : pollStep s = some { s with poll := .getSnapshot key keys } := by
        simp only [pollStep, hpc, hadding, List.isEmpty_nil, if_true,
          s.buffer.seriesFor_of_mem hmem]
      refine lighter_of_pollStep ht (Nat.add_lt_add_right ?_ _)
      rw [State.pollWork, State.pollWork, hpc]
      dsimp only
      rw [List.length_cons]
      omega
  | getSnapshot key keys =>
    have ht : pollStep s = some
        { s with
          poll := if ((s.pushed key).drop (s.tail key)).isEmpty then .nextKey keys
            else .buildBatch key ⟨(s.pushed key).drop (s.tail key), (s.pushed key).length⟩
              keys } := by
      rw [pollStep, hpc]
      dsimp only
      rw [h.getSnapshot_eq hpc]
      rfl
    refine lighter_of_pollStep ht (Nat.add_lt_add_right ?_ _)
    by_cases hempty : ((s.pushed key).drop (s.tail key)).isEmpty = true
    · rw [State.pollWork, State.pollWork, hpc, if_pos hempty]
      dsimp only
      omega
    · rw [State.pollWork, State.pollWork, hpc, if_neg hempty]
      exact Nat.lt_succ_self _
  | buildBatch key snapshot keys =>
    have ht : pollStep s = some
        { s with
          batchIdCounter := s.batchIdCounter + 1
          poll := .addPending key snapshot (makeBatch key snapshot s.batchIdCounter) keys } := by
      simp only [pollStep, hpc]
    refine lighter_of_pollStep ht (Nat.add_lt_add_right ?_ _)
    rw [State.pollWork, State.pollWork, hpc]
    exact Nat.lt_succ_self _
  | addPending key snapshot batch keys =>
    have ht : pollStep s = some
        { s with
          pendingSnapshots := emplace s.pendingSnapshots ⟨batch.id, key, snapshot⟩
          taken := s.taken ++ [⟨batch.id, key, snapshot⟩]
          poll := .pushBatch batch keys } := by
      rw [pollStep, hpc]
      dsimp only
      rw [hlock, if_neg (by simp)]
    refine lighter_of_pollStep ht (Nat.add_lt_add_right ?_ _)
    rw [State.pollWork, State.pollWork, hpc]
    exact Nat.lt_succ_self _
  | pushBatch batch keys =>
    have ht : pollStep s = some
        { s with writer := s.writer.push batch, passPushed := true, poll := .nextKey keys } := by
      simp only [pollStep, hpc]
    -- one batch more is waiting
    have hwaiting : (s.writer.push batch).waiting.length = s.writer.waiting.length + 1 := by
      have hbusy := h.ordered.busy
      rw [Writer.waiting, Writer.waiting, Writer.push]
      dsimp only
      split
      · rename_i hw
        obtain ⟨msg, rest, hq, -⟩ := hbusy hw
        rw [hq, List.cons_append, List.tail_cons, List.tail_cons, List.length_append,
          List.length_singleton]
      · rw [List.length_append, List.length_singleton]
    refine lighter_of_pollStep ht ?_
    rw [State.pollWork, State.pollWork, State.writeWork, State.writeWork, hpc]
    dsimp only
    rw [hwaiting]
    show 20 * keys.length + 3 + (14 * (s.writer.waiting.length + 1)
      + 3 * s.writer.outstanding.length + 10 * s.toServer.length) < _
    omega
  | recheck =>
    cases hpending : s.pendingSnapshots.isEmpty with
    | true =>
      have ht : pollStep s = some { s with poll := .top, passPushed := false } := by
        rw [pollStep, hpc]
        dsimp only
        rw [hlock, if_neg (by simp), hpending, if_pos rfl]
      refine lighter_of_pollStep ht (Nat.add_lt_add_right ?_ _)
      rw [State.pollWork, State.pollWork, hpc]
      exact Nat.succ_pos 1
    | false =>
      have ht : pollStep s = some { s with poll := .write } := by
        rw [pollStep, hpc]
        dsimp only
        rw [hlock, if_neg (by simp), hpending, if_neg (by simp)]
      refine lighter_of_pollStep ht (Nat.add_lt_add_right ?_ _)
      rw [State.pollWork, State.pollWork, hpc]
      exact Nat.lt_succ_self 1
  | write =>
    have ht : pollStep s = some { startWrite s with poll := .top, passPushed := false } := by
      simp only [pollStep, hpc]
    have hle := startWrite_work h
    refine lighter_of_pollStep ht ?_
    rw [State.pollWork, State.pollWork, hpc]
    show 0 + (startWrite s).writeWork < 1 + s.writeWork
    omega

end Lighter

/-! ### The stream at rest -/

/-- Nothing is on its way, and the poll thread is about to look for more. -/
structure Quiet (s : State) : Prop where
  adding : s.adding = []
  poll : s.poll = .top
  reader : s.reader = .reading
  pending : s.pendingSnapshots = []
  writerqu : s.writer.writerqu = []
  acked : s.acked.length = s.taken.length
  published : s.published.length = s.taken.length

section Quiet

variable {C : ℕ} {s t : State}

/-- With nothing in any stage everything taken has been published and acked. -/
theorem quiet_of_empty (h : Inv C s) (hadding : s.adding = []) (hr : s.reader = .reading)
    (hack : s.toAgent = []) (hhandler : s.handler = .recv) (hserver : s.toServer = [])
    (hwriting : s.writer.writing = false) (hrewriting : s.rewriting = 0)
    (hpoll : s.poll = .top) : Quiet s := by
  have hpass : s.passPushed = false := by
    by_contra hpass
    have hin := h.pushed_inPass (by simpa using hpass)
    rw [hpoll] at hin
    exact absurd hin (by simp [PollPc.inPass])
  have hqu : s.writer.writerqu = [] := h.awake hwriting hrewriting hpass
  have hpublished : s.published.length = s.taken.length := by
    have henq := congrArg List.length h.enqueued
    have hst := congrArg List.length h.started
    rw [h.ordered.enqueued_eq, Writer.waiting, hwriting, hqu, hpoll] at henq
    rw [hhandler, hserver] at hst
    have htaken : s.taken.length = s.writer.started.length := by
      simpa [PollPc.unpushed] using henq
    have hstarted : s.writer.started.length = s.published.length := by
      simpa [HandlerPc.received] using hst
    exact (htaken.trans hstarted).symm
  have hacked : s.acked.length = s.published.length := by
    obtain ⟨rest, hacks, howes⟩ := h.acks
    rw [hhandler] at howes
    rw [hr, hack, show rest = [] from howes] at hacks
    have hlen := congrArg List.length hacks
    simpa [ReadPc.ids] using hlen.symm
  refine ⟨hadding, hpoll, hr, ?_, hqu, hacked.trans hpublished, hpublished⟩
  rw [h.pending, hacked, hpublished, List.drop_length]

/-- An unbroken stream that is not quiet has a step that leaves less to do. -/
theorem exists_lighter (h : Inv C s) (hok : Unbroken s) (hquiet : ¬ Quiet s) :
    ∃ a, Own a ∧ Lighter s a := by
  by_cases hadding : s.adding = []
  swap
  · exact ⟨.addMetric, ⟨id, nofun⟩, lighter_addMetric hadding⟩
  cases hlock : s.reader.holdsLock with
  | true => exact ⟨.read, ⟨id, nofun⟩, lighter_read_lock hlock⟩
  | false =>
    have hr : s.reader = .reading := by
      cases hr : s.reader with
      | reading => rfl
      | closed => exact absurd hr hok.reader
      | acking | erasing => simp [hr, ReadPc.holdsLock] at hlock
    by_cases hack : s.toAgent = []
    swap
    · exact ⟨.read, ⟨id, nofun⟩, lighter_read h hadding hr hack⟩
    by_cases hbusy : s.handler.work = 0
    swap
    · exact ⟨.server, ⟨id, nofun⟩, lighter_server hbusy⟩
    have hhandler : s.handler = .recv := by
      cases hhandler : s.handler with
      | recv => rfl
      | returned => exact absurd hhandler hok.handler
      | publish | sendAck => simp [hhandler, HandlerPc.work] at hbusy
    by_cases hserver : s.toServer = []
    swap
    · exact ⟨.server, ⟨id, nofun⟩, lighter_recv hhandler hserver⟩
    by_cases hout : s.writer.outstanding = []
    swap
    · exact ⟨.writeCompletes true, ⟨id, nofun⟩, lighter_writeCompletes hout⟩
    by_cases hcompleted : s.completed = 0
    swap
    · exact ⟨.onWriteDonePop, ⟨id, nofun⟩, lighter_pop h hcompleted⟩
    by_cases hrewriting : s.rewriting = 0
    swap
    · exact ⟨.onWriteDoneWrite, ⟨id, nofun⟩, lighter_write h hrewriting⟩
    by_cases hpoll : s.poll = .top
    swap
    · exact ⟨.poll, ⟨id, nofun⟩, lighter_poll h hok hadding hlock hpoll⟩
    have hwriting : s.writer.writing = false := by
      by_contra hwriting
      have hone := hok.writes (by simpa using hwriting)
      rw [hout, hcompleted] at hone
      exact absurd hone (by simp)
    exact absurd (quiet_of_empty h hadding hr hack hhandler hserver hwriting hrewriting hpoll)
      hquiet

/-- What the stream's own steps keep, it comes to rest with. -/
theorem reaches_quiet {I : State → Prop}
    (hI : ∀ {s a t}, Inv C s → I s → Own a → step s a = some t → I t) (h : Inv C s)
    (hok : Unbroken s) (hs : I s) :
    ∃ t, Run.Reaches step Own s t ∧ (Inv C t ∧ Unbroken t ∧ I t) ∧ Quiet t := by
  refine Run.Reaches.of_measure State.work ?_ s ⟨h, hok, hs⟩
  rintro s ⟨h, hok, hs⟩ hquiet
  obtain ⟨a, ha, t, ht, hlt⟩ := exists_lighter h hok hquiet
  exact ⟨a, t, ha, ht, ⟨h.step ht, hok.step h ha.1 ht, hI h hs ha ht⟩, hlt⟩

end Quiet

/-! ### A pass -/

/-- The keys that the running pass has still to look at. -/
def PollPc.toVisit (all : List BufferKey) : PollPc → List BufferKey
  | .enqueueMetrics => all
  | .nextKey keys => keys
  | .getSnapshot key keys => key :: keys
  | .buildBatch _ _ keys | .addPending _ _ _ keys | .pushBatch _ keys => keys
  | _ => []

/-- All samples of the key are acked, or in a snapshot. -/
def Visited (s : State) (key : BufferKey) : Prop :=
  s.tail key = (s.pushed key).length ∨
    ∃ p ∈ s.snapshots, p.1 = key ∧ p.2.end = (s.pushed key).length

/-- While nothing is added, the keys that a pass has looked at stay visited. -/
structure Passed (s : State) : Prop where
  adding : s.adding = []
  visited : ∀ key ∈ s.buffer.getAllKeys,
    key ∈ s.poll.toVisit s.buffer.getAllKeys ∨ Visited s key

section Passed

variable {C : ℕ} {s t : State}

theorem Inv.tail_le (h : Inv C s) (key : BufferKey) : s.tail key ≤ (s.pushed key).length := by
  rw [← (h.keeps key).head_eq]
  exact (h.keeps key).tail_le

theorem Visited.mono {key : BufferKey} (h : Visited s key) (hinv : Inv C t)
    (hpushed : t.pushed = s.pushed) (htail : s.tail key ≤ t.tail key)
    (hsnap : s.snapshots ⊆ t.snapshots) : Visited t key := by
  rw [Visited, hpushed]
  obtain heq | ⟨p, hp, hkey, hend⟩ := h
  · refine .inl (Nat.le_antisymm ?_ (heq ▸ htail))
    rw [← hpushed]
    exact hinv.tail_le key
  · exact .inr ⟨p, hsnap hp, hkey, hend⟩

/-- The buffer stays, and of the keys that were to be visited those that are not
any more have been. -/
theorem Passed.move (hp : Passed s) (hinv : Inv C t) (hadding : t.adding = s.adding)
    (hbuf : t.buffer = s.buffer) (hpushed : t.pushed = s.pushed) (hsnap : s.snapshots ⊆ t.snapshots)
    (hvisit : ∀ key ∈ s.poll.toVisit s.buffer.getAllKeys,
      key ∈ t.poll.toVisit s.buffer.getAllKeys ∨ Visited t key) : Passed t := by
  refine ⟨hadding.trans hp.adding, fun key hkey => ?_⟩
  rw [hbuf] at hkey ⊢
  have htail : t.tail key = s.tail key := by rw [State.tail, State.tail, hbuf]
  obtain hvis | hvis := hp.visited key hkey
  · exact hvisit key hvis
  · exact .inr (hvis.mono hinv hpushed htail.ge hsnap)

theorem Passed.pollStep (hp : Passed s) (h : Inv C s) (ht : MetricsStream.pollStep s = some t) :
    Passed t := by
  have hinv := h.pollStep ht
  have hmove := hp.move hinv (by rw [pollStep_eq ht]) (pollStep_buffer ht)
    (by rw [pollStep_eq ht])
  cases hpc : s.poll with
  | top =>
    rw [MetricsStream.pollStep, hpc] at ht
    dsimp only at ht
    split at ht
    · exact absurd ht (by simp)
    · split at ht <;> cases ht
      · refine hmove ?_ fun key hkey => ?_
        · simp [State.snapshots, hpc, PollPc.hand]
        · rw [hpc] at hkey
          exact absurd hkey List.not_mem_nil
      · exact hp
  | enqueueMetrics =>
    simp only [MetricsStream.pollStep, hpc] at ht
    split at ht <;> cases ht
    refine hmove ?_ fun key hkey => ?_
    · simp [State.snapshots, hpc, PollPc.hand]
    · rw [hpc] at hkey
      exact .inl hkey
  | nextKey keys =>
    cases keys with
    | nil =>
      simp only [MetricsStream.pollStep, hpc] at ht
      cases ht
      refine hmove ?_ fun key hkey => ?_
      · simp [State.snapshots, hpc, PollPc.hand]
      · rw [hpc] at hkey
        exact absurd hkey List.not_mem_nil
    | cons key keys =>
      have hnull := hinv.no_nullDeref
      simp only [MetricsStream.pollStep, hpc] at ht
      split at ht
      · split at ht <;> cases ht
        · exact absurd hnull (by simp)
        · refine hmove ?_ fun key hkey => ?_
          · simp [State.snapshots, hpc, PollPc.hand]
          · rw [hpc] at hkey
            exact .inl hkey
      · exact absurd ht (by simp)
  | getSnapshot key keys =>
    rw [MetricsStream.pollStep, hpc] at ht
    dsimp only at ht
    rw [h.getSnapshot_eq hpc, Option.map_some, Option.some_inj] at ht
    by_cases hempty : ((s.pushed key).drop (s.tail key)).isEmpty = true
    · -- all of it is acked
      rw [if_pos hempty] at ht
      subst ht
      refine hmove ?_ fun key' hkey' => ?_
      · simp [State.snapshots, hpc, PollPc.hand]
      · rw [hpc] at hkey'
        obtain rfl | hkey' := List.mem_cons.mp hkey'
        · refine .inr (.inl (Nat.le_antisymm (h.tail_le key') ?_))
          exact List.drop_eq_nil_iff.mp (List.isEmpty_iff.mp hempty)
        · exact .inl hkey'
    · -- all of it is in the snapshot
      rw [if_neg hempty] at ht
      subst ht
      refine hmove ?_ fun key' hkey' => ?_
      · simp [State.snapshots, hpc, PollPc.hand]
      · rw [hpc] at hkey'
        obtain rfl | hkey' := List.mem_cons.mp hkey'
        · exact .inr (.inr ⟨_, List.mem_append_right _ (List.mem_singleton_self _), rfl, rfl⟩)
        · exact .inl hkey'
  | buildBatch key snapshot keys =>
    simp only [MetricsStream.pollStep, hpc] at ht
    cases ht
    refine hmove ?_ fun key hkey => ?_
    · simp [State.snapshots, hpc, PollPc.hand]
    · rw [hpc] at hkey
      exact .inl hkey
  | addPending key snapshot batch keys =>
    rw [MetricsStream.pollStep, hpc] at ht
    dsimp only at ht
    split at ht <;> cases ht
    refine hmove ?_ fun key hkey => ?_
    · simp [State.snapshots, hpc, PollPc.hand]
    · rw [hpc] at hkey
      exact .inl hkey
  | pushBatch batch keys =>
    simp only [MetricsStream.pollStep, hpc] at ht
    cases ht
    refine hmove ?_ fun key hkey => ?_
    · simp [State.snapshots, hpc, PollPc.hand]
    · rw [hpc] at hkey
      exact .inl hkey
  | recheck =>
    rw [MetricsStream.pollStep, hpc] at ht
    dsimp only at ht
    split at ht
    · exact absurd ht (by simp)
    · split at ht <;> cases ht
      all_goals
        refine hmove ?_ fun key hkey => ?_
        · simp [State.snapshots, hpc, PollPc.hand]
        · rw [hpc] at hkey
          exact absurd hkey List.not_mem_nil
  | write =>
    simp only [MetricsStream.pollStep, hpc] at ht
    cases ht
    refine hmove ?_ fun key hkey => ?_
    · simp [State.snapshots, hpc, PollPc.hand, startWrite]
    · rw [hpc] at hkey
      exact absurd hkey List.not_mem_nil
  | stopped => simp [MetricsStream.pollStep, hpc] at ht

theorem Passed.step (hp : Passed s) (h : Inv C s) {a : Action} (ha : Own a)
    (ht : MetricsStream.step s a = some t) : Passed t := by
  have hinv := h.step ht
  cases a with
  | addMetrics metrics => exact absurd rfl (ha.2 metrics)
  | addMetric =>
    simp only [MetricsStream.step, hp.adding] at ht
    exact absurd ht (by simp)
  | poll => exact hp.pollStep h ht
  | read =>
    have hpoll : t.poll = s.poll := (readStep_frame ht).1
    have htaken : t.taken = s.taken := (readStep_frame ht).2.1
    have hsnap : t.snapshots = s.snapshots := by
      rw [State.snapshots, State.snapshots, hpoll, htaken]
    have hpushed : t.pushed = s.pushed := by rw [readStep_eq ht]
    have hadding : t.adding = s.adding := by rw [readStep_eq ht]
    refine ⟨hadding.trans hp.adding, fun key hkey => ?_⟩
    rw [hpoll]
    obtain hbuf | ⟨ha, -⟩ | ⟨-, entry, hr, hbuf⟩ := buffer_of_step ht
    · have htail : t.tail key = s.tail key := by rw [State.tail, State.tail, hbuf]
      rw [hbuf] at hkey ⊢
      exact (hp.visited key hkey).imp_right fun hv =>
        hv.mono hinv hpushed htail.ge (hsnap ▸ List.Subset.refl _)
    · exact absurd ha (by simp)
    · -- an ack only moves `tail` on
      have htail : s.tail key ≤ t.tail key := by
        have hle := h.tail_le_modify (h.mem_of_acking hr) s.reader key
        rwa [State.tail, State.tail, hbuf] at *
      rw [hbuf, MetricsBuffer.getAllKeys_modify] at hkey ⊢
      exact (hp.visited key hkey).imp_right fun hv =>
        hv.mono hinv hpushed htail (hsnap ▸ List.Subset.refl _)
  | server =>
    rw [serverStep_eq ht]
    exact ⟨hp.adding, hp.visited⟩
  | stopPoll | readFails | serverFails => exact absurd trivial ha.1
  | writeCompletes ok =>
    simp only [MetricsStream.step] at ht
    split at ht <;> cases ht
    exact ⟨hp.adding, hp.visited⟩
  | onWriteDonePop | onWriteDoneWrite =>
    simp only [MetricsStream.step] at ht
    split at ht <;> cases ht
    exact ⟨hp.adding, hp.visited⟩

end Passed

/-! ### Everything is delivered -/

/-- What the stream does by itself pushes what is to be pushed, and passes over
samples only by pushing. -/
structure Since (s₀ s : State) : Prop where
  pushed : ∀ key, s.pushed key ++ toPush key s.adding = s₀.pushed key ++ toPush key s₀.adding
  overflowed : s₀.adding = [] → s.adding = [] ∧ s.overflowed = s₀.overflowed

section Delivered

variable {C : ℕ} {s₀ s t : State}

theorem Since.step (hs : Since s₀ s) {a : Action} (ha : Own a)
    (ht : MetricsStream.step s a = some t) : Since s₀ t := by
  refine ⟨fun key => ?_, fun hnil => ?_⟩
  · obtain ⟨metrics, hadd, -⟩ | ⟨-, hkeep⟩ := pushed_of_step ht
    · exact absurd hadd (ha.2 metrics)
    · exact (hkeep key).trans (hs.pushed key)
  · obtain ⟨hadding, hover⟩ := hs.overflowed hnil
    rw [← hadding, ← hover]
    cases a with
    | addMetrics metrics => exact absurd rfl (ha.2 metrics)
    | addMetric =>
      simp only [MetricsStream.step, hadding] at ht
      exact absurd ht (by simp)
    | poll =>
      rw [pollStep_eq ht]
      exact ⟨rfl, rfl⟩
    | read =>
      rw [readStep_eq ht]
      exact ⟨rfl, rfl⟩
    | server =>
      rw [serverStep_eq ht]
      exact ⟨rfl, rfl⟩
    | _ =>
      simp only [MetricsStream.step] at ht
      split at ht <;> cases ht
      all_goals exact ⟨rfl, rfl⟩

/-- After a pass over a stream at rest, `tail` is at the end of every series. -/
theorem tail_eq_of_passed (h : Inv C s) (hquiet : Quiet s) (hp : Passed s) (key : BufferKey) :
    s.tail key = (s.pushed key).length := by
  by_cases hkey : key ∈ s.buffer.getAllKeys
  · have hvis := hp.visited key hkey
    rw [hquiet.poll] at hvis
    obtain heq | ⟨p, hsnap, rfl, hend⟩ := hvis.resolve_left List.not_mem_nil
    · exact heq
    · -- its snapshot has been acked
      rw [State.snapshots, hquiet.poll, show PollPc.top.hand = [] from rfl,
        List.append_nil] at hsnap
      obtain ⟨e, he, rfl⟩ := List.mem_map.mp hsnap
      have hsettled : e ∈ s.taken.take s.settled := by
        have hle : s.taken.length ≤ s.settled := by
          rw [State.settled]
          split
          · rw [hquiet.acked]
            exact Nat.le_succ _
          · exact hquiet.acked.ge
        rwa [List.take_of_length_le hle]
      exact Nat.le_antisymm (h.tail_le _) (hend ▸ h.settled_le e hsettled)
  · -- nothing was ever pushed to a series that there is not
    have hnone : s.buffer.getBuffer key = none := by
      by_contra hne
      exact hkey ((s.buffer.getBuffer_ne_none_iff key).mp hne)
    have hhead : (s.buffer.seriesFor key).head = 0 := by
      rw [MetricsBuffer.seriesFor, hnone]
      rfl
    have hle := h.tail_le key
    rw [← (h.keeps key).head_eq, hhead] at hle ⊢
    omega

end Delivered

/-- **Everything is delivered, or was passed over.**  Whatever has happened so far,
if no call has failed, the agent, gRPC and the server can by themselves come to a
state at rest in which the samples of every series are all acked: each of them has
been published, or a full ring has passed over it, and that only while metrics were
being added. -/
theorem all_delivered {C : ℕ} (hC : 1 ≤ C) {as : List Action} {s : State}
    (has : ∀ a ∈ as, ¬ a.Fails) (hs : Run.exec step (init C) as = some s) :
    ∃ t, Run.Reaches step Own s t ∧ Quiet t ∧
      (∀ key, t.pushed key = s.pushed key ++ toPush key s.adding) ∧
      (s.adding = [] → t.overflowed = s.overflowed) ∧
      ∀ key, t.tail key = (t.pushed key).length ∧ ∀ i < (t.pushed key).length,
        i ∈ t.overflowed key ∨ ∃ p ∈ t.publishedSamples key, p.1 = i := by
  have h : Inv C s := inv_of_exec hC hs
  have hok : Unbroken s := by
    have hmeets : Run.Meets step (fun _ a => ¬ a.Fails) (init C) as :=
      Run.meets_of_forall (fun a ha _ => has a ha) _
    exact (Run.exec_invariant_of_meets (I := fun s => Inv C s ∧ Unbroken s)
      (fun h ha ht => ⟨h.1.step ht, h.2.step h.1 ha ht⟩) ⟨inv_init hC, unbroken_init C⟩ hmeets hs).2
  -- come to rest once, so that the poll thread can start a pass
  obtain ⟨t, hst, ⟨ht, hokt, hsince⟩, hquiet⟩ :=
    reaches_quiet (I := Since s) (fun _ hs ha ht => hs.step ha ht) h hok
      ⟨fun _ => rfl, fun hnil => ⟨hnil, rfl⟩⟩
  have hlock : t.reader.holdsLock = false := by
    rw [hquiet.reader]
    rfl
  have hstart : step t .poll = some { t with poll := .enqueueMetrics } := by
    rw [step, pollStep, hquiet.poll]
    dsimp only
    rw [hlock, if_neg (by simp), hquiet.pending]
    rfl
  have hown : Own .poll := ⟨id, by simp⟩
  -- and again, after the pass
  obtain ⟨u, htu, ⟨hu, -, hsinceu, hpassed⟩, hquietu⟩ :=
    reaches_quiet (I := fun u => Since s u ∧ Passed u)
      (fun h hs ha ht => ⟨hs.1.step ha ht, hs.2.step h ha ht⟩) (ht.step hstart)
      (hokt.step ht hown.1 hstart)
      ⟨hsince.step hown hstart, hquiet.adding, fun key hkey => .inl hkey⟩
  refine ⟨u, hst.trans ((Run.Reaches.single hown hstart).trans htu), hquietu, fun key => ?_,
    fun hnil => (hsinceu.overflowed hnil).2, fun key => ?_⟩
  · have hpushed := hsinceu.pushed key
    rw [hquietu.adding] at hpushed
    exact (List.append_nil _).symm.trans hpushed
  · have htail := tail_eq_of_passed hu hquietu hpassed key
    refine ⟨htail, fun i hi => ?_⟩
    obtain hover | ⟨e, he, rfl, hstart, hend⟩ := hu.gone key i (htail ▸ hi)
    · exact .inl hover
    · exact .inr (hu.exists_published he hstart hend)

theorem all_delivered_overrun :
    ∃ s, Run.exec step (init 1) overrun = some s ∧ ∃ t, Run.Reaches step Own s t ∧ Quiet t ∧
      ∀ key, t.tail key = (t.pushed key).length := by
  have hrun : (Run.exec step (init 1) overrun).isSome = true := rfl
  obtain ⟨s, hs⟩ := Option.isSome_iff_exists.mp hrun
  have has : ∀ a ∈ overrun, ¬ a.Fails := by
    intro a ha
    simp only [overrun, List.mem_append, List.mem_cons, List.mem_replicate, List.not_mem_nil,
      or_false] at ha
    obtain ((rfl | rfl | rfl) | ⟨-, rfl⟩) | rfl | rfl := ha <;> exact id
  obtain ⟨t, ht, hquiet, -, -, hkeys⟩ := all_delivered (le_refl 1) has hs
  exact ⟨s, hs, t, ht, hquiet, fun key => (hkeys key).1⟩

/-! ### How much is on its way -/

/-- Each series has at most one snapshot pending, of one to `C` samples. -/
structure Bounded (C : ℕ) (s : State) : Prop where
  nodup : (s.pendingSnapshots.map Entry.key).Nodup
  hand : ∀ p ∈ s.poll.hand, 0 < p.2.samples.length ∧ p.2.samples.length ≤ C
  pending : ∀ e ∈ s.pendingSnapshots, 0 < e.snapshot.samples.length ∧ e.snapshot.samples.length ≤ C

theorem bounded_init (C : ℕ) : Bounded C (init C) where
  nodup := List.nodup_nil
  hand _ h := absurd h List.not_mem_nil
  pending _ h := absurd h List.not_mem_nil

section Bounded

variable {C : ℕ} {s t : State}

/-- Where the poll thread holds no snapshot and nothing becomes pending. -/
theorem Bounded.free (hb : Bounded C s) (hpending : t.pendingSnapshots = s.pendingSnapshots)
    (hhand : t.poll.hand = []) : Bounded C t := by
  refine ⟨hpending ▸ hb.nodup, fun p hp => ?_, hpending ▸ hb.pending⟩
  rw [hhand] at hp
  exact absurd hp List.not_mem_nil

theorem Bounded.pollStep (hb : Bounded C s) (h : Inv C s)
    (ht : MetricsStream.pollStep s = some t) : Bounded C t := by
  cases hpc : s.poll with
  | getSnapshot key keys =>
    rw [MetricsStream.pollStep, hpc] at ht
    dsimp only at ht
    rw [h.getSnapshot_eq hpc, Option.map_some, Option.some_inj] at ht
    subst ht
    refine ⟨hb.nodup, fun p hp => ?_, hb.pending⟩
    have hlen : ((s.pushed key).drop (s.tail key)).length ≤ C := by
      have hle := (h.keeps key).head_le
      rw [(h.keeps key).head_eq, h.series_capacity key] at hle
      rw [List.length_drop, State.tail]
      omega
    dsimp only at hp
    split at hp
    · exact absurd hp List.not_mem_nil
    · rename_i hempty
      rw [List.mem_singleton.mp hp]
      exact ⟨List.length_pos_of_ne_nil fun hnil => hempty (List.isEmpty_iff.mpr hnil), hlen⟩
  | addPending key snapshot batch keys =>
    have hid : batch.id = s.taken.length := by
      rw [h.numbered key snapshot batch keys hpc]
      rfl
    rw [MetricsStream.pollStep, hpc] at ht
    dsimp only at ht
    split at ht <;> cases ht
    -- the key is still to be visited, so nothing of it is pending
    have hfresh : key ∉ s.pendingSnapshots.map Entry.key := by
      intro hmem
      obtain ⟨e, he, heq⟩ := List.mem_map.mp hmem
      have hleft := h.keysLeft_fresh e he
      rw [hpc] at hleft
      exact hleft (heq ▸ List.mem_cons_self)
    have hsnap : 0 < snapshot.samples.length ∧ snapshot.samples.length ≤ C :=
      hb.hand (key, snapshot) (by rw [hpc]; exact List.mem_singleton_self _)
    rw [h.emplace_eq hid]
    refine ⟨?_, fun p hp => absurd hp List.not_mem_nil, ?_⟩
    · rw [List.map_append, List.map_singleton]
      exact hb.nodup.append (List.nodup_singleton _) (by simpa using hfresh)
    · exact List.forall_mem_append.mpr ⟨hb.pending, List.forall_mem_singleton.mpr hsnap⟩
  | buildBatch key snapshot keys =>
    simp only [MetricsStream.pollStep, hpc] at ht
    cases ht
    have hhand := hb.hand
    rw [hpc] at hhand
    exact ⟨hb.nodup, hhand, hb.pending⟩
  | top =>
    rw [MetricsStream.pollStep, hpc] at ht
    dsimp only at ht
    split at ht
    · exact absurd ht (by simp)
    · split at ht <;> cases ht
      · exact hb.free rfl rfl
      · exact hb
  | recheck =>
    rw [MetricsStream.pollStep, hpc] at ht
    dsimp only at ht
    split at ht
    · exact absurd ht (by simp)
    · split at ht <;> cases ht
      · exact hb.free rfl rfl
      · exact hb.free rfl rfl
  | enqueueMetrics =>
    simp only [MetricsStream.pollStep, hpc] at ht
    split at ht <;> cases ht
    exact hb.free rfl rfl
  | nextKey keys =>
    cases keys with
    | nil =>
      simp only [MetricsStream.pollStep, hpc] at ht
      cases ht
      exact hb.free rfl rfl
    | cons key keys =>
      simp only [MetricsStream.pollStep, hpc] at ht
      split at ht
      · split at ht <;> cases ht
        · exact hb.free rfl rfl
        · exact hb.free rfl rfl
      · exact absurd ht (by simp)
  | pushBatch batch keys =>
    simp only [MetricsStream.pollStep, hpc] at ht
    cases ht
    exact hb.free rfl rfl
  | write =>
    simp only [MetricsStream.pollStep, hpc] at ht
    cases ht
    exact hb.free rfl rfl
  | stopped => simp [MetricsStream.pollStep, hpc] at ht

theorem pending_of_readStep (ht : MetricsStream.readStep s = some t) :
    t.pendingSnapshots.Sublist s.pendingSnapshots := by
  rw [MetricsStream.readStep] at ht
  split at ht
  case h_1 =>
    split at ht
    · split at ht
      · cases ht
        exact List.Sublist.refl _
      · split at ht <;> cases ht
        · exact List.Sublist.refl _
        · exact List.Sublist.refl _
    · exact absurd ht (by simp)
  case h_3 =>
    cases ht
    exact List.Sublist.refl _
  case h_4 =>
    cases ht
    exact List.eraseP_sublist
  case h_2 | h_5 => exact absurd ht (by simp)

theorem Bounded.step (hb : Bounded C s) (h : Inv C s) {a : Action}
    (ht : MetricsStream.step s a = some t) : Bounded C t := by
  cases a with
  | poll => exact hb.pollStep h ht
  | read =>
    have hpoll : t.poll = s.poll := (readStep_frame ht).1
    have hsub : t.pendingSnapshots.Sublist s.pendingSnapshots := pending_of_readStep ht
    refine ⟨hb.nodup.sublist (hsub.map Entry.key), hpoll ▸ hb.hand, fun e he => ?_⟩
    exact hb.pending e (hsub.subset he)
  | server =>
    rw [serverStep_eq ht]
    exact ⟨hb.nodup, hb.hand, hb.pending⟩
  | addMetric =>
    simp only [MetricsStream.step] at ht
    split at ht <;> cases ht
    rw [addMetric]
    split
    · exact ⟨hb.nodup, hb.hand, hb.pending⟩
    · exact ⟨hb.nodup, hb.hand, hb.pending⟩
  | stopPoll =>
    simp only [MetricsStream.step] at ht
    split at ht <;> cases ht
    exact hb.free rfl rfl
  | _ =>
    simp only [MetricsStream.step] at ht
    split at ht <;> cases ht
    all_goals exact ⟨hb.nodup, hb.hand, hb.pending⟩

end Bounded

/-- The batch that the handler has taken and not acked. -/
def HandlerPc.held : HandlerPc → List MetricBatch
  | .publish batch => [batch]
  | .sendAck batch => [batch]
  | _ => []

/-- How many batches are queued, with gRPC, with the server, or acked and not erased. -/
def State.inFlight (s : State) : ℕ :=
  s.poll.unpushed.length + s.writer.waiting.length + s.toServer.length + s.handler.held.length
    + s.toAgent.length + s.reader.ids.length

/-- They are the pending ones, but for those that a handler has left unacked. -/
theorem Inv.inFlight_le {C : ℕ} {s : State} (h : Inv C s) :
    s.inFlight ≤ s.pendingSnapshots.length ∧
      (s.handler ≠ .returned → s.inFlight = s.pendingSnapshots.length) := by
  have henq := congrArg List.length h.enqueued
  have hst := congrArg List.length h.started
  obtain ⟨rest, hacks, howes⟩ := h.acks
  have hacks := congrArg List.length hacks
  rw [h.ordered.enqueued_eq] at henq
  simp only [List.length_append, List.length_map] at henq hst hacks
  have hrest : s.handler.held.length ≤ s.handler.received.length + rest.length ∧
      (s.handler ≠ .returned →
        s.handler.held.length = s.handler.received.length + rest.length) := by
    cases hpc : s.handler with
    | returned => exact ⟨Nat.zero_le _, fun hne => absurd rfl hne⟩
    | recv | publish batch | sendAck batch =>
      rw [hpc] at howes
      obtain rfl : rest = _ := howes
      exact ⟨le_refl _, fun _ => rfl⟩
  rw [h.pending, List.length_drop, State.inFlight]
  refine ⟨?_, fun hne => ?_⟩
  · have := hrest.1
    omega
  · have := hrest.2 hne
    omega

/-- **What is on its way is bounded.**  However slow the server is and whatever
fails, at most one batch of each series is pending, of at least one sample and at
most the capacity of a series; no more batches are queued, with gRPC, with the server
or acked and not erased, and no fewer while the handler has not returned. -/
theorem in_flight_bounded {C : ℕ} (hC : 1 ≤ C) {as : List Action} {s : State}
    (hs : Run.exec step (init C) as = some s) :
    (s.pendingSnapshots.map Entry.key).Nodup ∧
      (∀ e ∈ s.pendingSnapshots, e.key ∈ s.buffer.getAllKeys ∧
        0 < e.snapshot.samples.length ∧ e.snapshot.samples.length ≤ C) ∧
      s.inFlight ≤ s.pendingSnapshots.length ∧
      (s.handler ≠ .returned → s.inFlight = s.pendingSnapshots.length) ∧
      s.pendingSnapshots.length ≤ s.buffer.getAllKeys.length := by
  obtain ⟨h, hb⟩ := Run.exec_invariant (I := fun s => Inv C s ∧ Bounded C s)
    (fun h ht => ⟨h.1.step ht, h.2.step h.1 ht⟩) ⟨inv_init hC, bounded_init C⟩ hs
  have hkeys : ∀ e ∈ s.pendingSnapshots, e.key ∈ s.buffer.getAllKeys := by
    intro e he
    rw [h.pending] at he
    exact h.taken_keys e (List.mem_of_mem_drop he)
  refine ⟨hb.nodup, fun e he => ⟨hkeys e he, hb.pending e he⟩, h.inFlight_le.1,
    h.inFlight_le.2, ?_⟩
  have hsub : s.pendingSnapshots.map Entry.key ⊆ s.buffer.getAllKeys := by
    intro key hkey
    obtain ⟨e, he, rfl⟩ := List.mem_map.mp hkey
    exact hkeys e he
  have hle := List.Nodup.length_le_of_subset hb.nodup hsub
  rwa [List.length_map] at hle

theorem in_flight_bounded_overrun :
    ∃ s, Run.exec step (init 1) overrun = some s ∧ s.pendingSnapshots.length = 1 ∧
      s.inFlight ≤ 1 ∧ 1 ≤ s.buffer.getAllKeys.length := by
  have hrun : (Run.exec step (init 1) overrun).map (fun s => s.pendingSnapshots.length) = some 1 :=
    rfl
  obtain ⟨s, hs, hlen⟩ := Option.map_eq_some_iff.mp hrun
  obtain ⟨-, -, hle, -, hkeys⟩ := in_flight_bounded (le_refl 1) hs
  exact ⟨s, hs, hlen, hlen ▸ hle, hlen ▸ hkeys⟩

end MetricsStream
end Volta
