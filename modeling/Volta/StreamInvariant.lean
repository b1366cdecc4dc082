/-
The invariant of a `StreamMetrics` stream.

Batches move through the stages of the stream in one order, so each stage is a
segment of the list `taken` of all snapshots put in `pending_snapshots_`: what
is published is a prefix of what was started, that is a prefix of what was
enqueued, and the acks processed, in hand and on their way are a prefix of
what was published.  Hence the ack that arrives next is for the oldest entry
of `pending_snapshots_`.

The samples follow: snapshots of one series start where the previous one of
that series ended or later, because a key is only visited again when nothing
is pending; and `tail` moves over a sample only in `Push` on a full ring or to
the end of a snapshot that the server has published.

* `Inv C s` — the invariant, for capacity `C`;
* `Inv.step` — one step keeps it, part by part;
* `inv_of_exec` — it holds in every reachable state.
-/
import Volta.MetricsStream

namespace Volta

namespace MetricsStream

/-! ### What the stages hold -/

/-- The snapshot the poll thread has taken and not yet made pending. -/
def PollPc.hand : PollPc → List (BufferKey × SeriesBuffer.Snapshot)
  | .buildBatch key snapshot _ => [(key, snapshot)]
  | .addPending key snapshot _ _ => [(key, snapshot)]
  | _ => []

/-- The keys that the running `EnqueueMetrics` has not made a batch for. -/
def PollPc.keysLeft : PollPc → List BufferKey
  | .nextKey keys => keys
  | .getSnapshot key keys => key :: keys
  | .buildBatch key _ keys => key :: keys
  | .addPending key _ _ keys => key :: keys
  | .pushBatch _ keys => keys
  | _ => []

/-- The batch that is pending and not yet on the write queue. -/
def PollPc.unpushed : PollPc → List MetricBatch
  | .pushBatch batch _ => [batch]
  | _ => []

/-- The batch of an `addPending` has its number already. -/
def PollPc.counted : PollPc → ℕ
  | .addPending _ _ _ _ => 1
  | _ => 0

/-- The poll thread has neither a snapshot nor a batch in its hands. -/
structure PollPc.Free (pc : PollPc) : Prop where
  hand_eq : pc.hand = []
  unpushed_eq : pc.unpushed = []
  counted_eq : pc.counted = 0

/-- The poll thread is between the start of a pass and the `Write()` at its
end. -/
def PollPc.inPass : PollPc → Bool
  | .top => false
  | .enqueueMetrics => false
  | .stopped => false
  | _ => true

def ReadPc.ids : ReadPc → List ℕ
  | .acking entry => [entry.id]
  | .erasing id => [id]
  | _ => []

def HandlerPc.received : HandlerPc → List MetricBatch
  | .publish batch => [batch]
  | _ => []

/-- The IDs of the published batches that the handler has not acked; after
`Send` has failed the ack is never sent. -/
def HandlerPc.Owes : HandlerPc → List ℕ → Prop
  | .sendAck batch, rest => rest = [batch.id]
  | .returned, _ => True
  | _, rest => rest = []

/-- All snapshots taken so far, by key. -/
def State.snapshots (s : State) : List (BufferKey × SeriesBuffer.Snapshot) :=
  s.taken.map (fun e => (e.key, e.snapshot)) ++ s.poll.hand

/-- The number of entries whose `AckSnapshot` has run. -/
def State.settled (s : State) : ℕ :=
  match s.reader with
  | .erasing _ => s.acked.length + 1
  | _ => s.acked.length

/-- `snap` is what `GetSnapshot` copied out of the series of `xs` when its
`tail` was the snapshot's start. -/
structure FromSeries (xs : List Sample) (tail : ℕ) (snap : SeriesBuffer.Snapshot) : Prop where
  length_le : snap.samples.length ≤ snap.end
  end_le : snap.end ≤ xs.length
  samples_eq : snap.samples = (xs.take snap.end).drop (snap.end - snap.samples.length)
  start_le : snap.end - snap.samples.length ≤ tail

theorem FromSeries.mono {xs xs' : List Sample} {tail tail' : ℕ} {snap : SeriesBuffer.Snapshot}
    (h : FromSeries xs tail snap) (hxs : xs <+: xs') (htail : tail ≤ tail') :
    FromSeries xs' tail' snap where
  length_le := h.length_le
  end_le := h.end_le.trans hxs.length_le
  samples_eq := by
    obtain ⟨ys, rfl⟩ := hxs
    rw [List.take_append_of_le_length h.end_le]
    exact h.samples_eq
  start_le := h.start_le.trans htail

/-! ### The invariant -/

structure Inv (C : ℕ) (s : State) : Prop where
  -- the stages, in order
  ordered : s.writer.Ordered s.completed
  taken_ids : s.taken.map Entry.id = List.range s.taken.length
  counter : s.batchIdCounter = s.taken.length + s.poll.counted
  numbered : ∀ key snapshot batch keys, s.poll = .addPending key snapshot batch keys →
    batch = makeBatch key snapshot s.taken.length
  enqueued : s.taken.map Entry.batch = s.writer.enqueued ++ s.poll.unpushed
  started : s.writer.started = s.published ++ s.handler.received ++ s.toServer
  acks : ∃ rest, s.published.map MetricBatch.id
    = s.acked ++ s.reader.ids ++ s.toAgent.map BatchAck.batchId ++ rest ∧ s.handler.Owes rest
  pending : s.pendingSnapshots = s.taken.drop s.acked.length
  acking : ∀ entry, s.reader = .acking entry → s.taken[s.acked.length]? = some entry
  -- the samples
  capacity_pos : 0 < C
  capacity_eq : s.buffer.capacityPerSeries = C
  series_capacity : ∀ key, (s.buffer.seriesFor key).capacity = C
  keeps : ∀ key, (s.buffer.seriesFor key).Keeps (s.pushed key)
  from_series : ∀ p ∈ s.snapshots, FromSeries (s.pushed p.1) (s.tail p.1) p.2
  increasing : s.snapshots.Pairwise fun p q =>
    p.1 = q.1 → p.2.end ≤ q.2.end - q.2.samples.length
  settled_le : ∀ e ∈ s.taken.take s.settled, e.snapshot.end ≤ s.tail e.key
  taken_keys : ∀ e ∈ s.taken, e.key ∈ s.buffer.getAllKeys
  keysLeft_nodup : s.poll.keysLeft.Nodup
  keysLeft_keys : ∀ key ∈ s.poll.keysLeft, key ∈ s.buffer.getAllKeys
  keysLeft_fresh : ∀ e ∈ s.pendingSnapshots, e.key ∉ s.poll.keysLeft
  pass_starts : s.poll = .enqueueMetrics → s.pendingSnapshots = []
  gone : ∀ key i, i < s.tail key → i ∈ s.overflowed key ∨
    ∃ e ∈ s.taken.take s.published.length, e.key = key ∧ e.start ≤ i ∧ i < e.snapshot.end
  -- what never happens
  no_nullDeref : s.nullDeref = false
  no_unknownAck : s.unknownAck = false
  -- no wakeup is lost
  awake : s.writer.writing = false → s.rewriting = 0 → s.passPushed = false →
    s.writer.writerqu = []
  pushed_inPass : s.passPushed = true → s.poll.inPass = true

theorem inv_init {C : ℕ} (hC : 0 < C) : Inv C (init C) where
  ordered := Writer.ordered_init
  taken_ids := rfl
  counter := rfl
  numbered _ _ _ _ h := nomatch h
  enqueued := rfl
  started := rfl
  acks := ⟨[], rfl, rfl⟩
  pending := rfl
  acking _ h := nomatch h
  capacity_pos := hC
  capacity_eq := rfl
  series_capacity _ := rfl
  keeps _ := SeriesBuffer.keeps_ofCapacity hC
  from_series _ h := nomatch h
  increasing := List.Pairwise.nil
  settled_le _ h := nomatch h
  taken_keys _ h := nomatch h
  keysLeft_nodup := List.nodup_nil
  keysLeft_keys _ h := nomatch h
  keysLeft_fresh _ h := nomatch h
  pass_starts h := nomatch h
  gone _ _ h := nomatch h
  no_nullDeref := rfl
  no_unknownAck := rfl
  awake _ _ _ := rfl
  pushed_inPass h := nomatch h

/-! ### Segments of an initial range -/

theorem eq_range_of_prefix {l : List ℕ} {n : ℕ} (h : l <+: List.range n) :
    l = List.range l.length ∧ l.length ≤ n := by
  have hle : l.length ≤ n := by
    have hle := h.length_le
    rwa [List.length_range] at hle
  refine ⟨?_, hle⟩
  have htake : l = (List.range n).take l.length := List.prefix_iff_eq_take.mp h
  rwa [List.take_range, min_eq_left hle] at htake

theorem eq_length_of_append_cons {l : List ℕ} {a n : ℕ} (l' : List ℕ)
    (h : l ++ a :: l' = List.range n) : a = l.length ∧ l.length < n := by
  have hlen : l.length < n := by
    have hlen := congrArg List.length h
    simp only [List.length_append, List.length_cons, List.length_range] at hlen
    omega
  have hget := congrArg (fun xs => xs[l.length]?) h
  simp only [List.getElem?_append_right (Nat.le_refl _), Nat.sub_self, List.getElem?_cons_zero,
    List.getElem?_range hlen, Option.some_inj] at hget
  exact ⟨hget, hlen⟩

namespace Inv

variable {C : ℕ} {s : State}

/-! ### The stages are segments of `taken` -/

theorem getElem_id (h : Inv C s) {i : ℕ} (hi : i < s.taken.length) : s.taken[i].id = i := by
  have hget := congrArg (fun xs => xs[i]?) h.taken_ids
  simpa [hi] using hget

theorem published_prefix (h : Inv C s) : s.published <+: s.taken.map Entry.batch := by
  rw [h.enqueued, h.ordered.enqueued_eq, h.started]
  simp only [List.append_assoc]
  exact List.prefix_append _ _

theorem published_le (h : Inv C s) : s.published.length ≤ s.taken.length := by
  have hle := h.published_prefix.length_le
  rwa [List.length_map] at hle

theorem published_eq (h : Inv C s) :
    s.published = (s.taken.take s.published.length).map Entry.batch := by
  rw [List.map_take]
  exact List.prefix_iff_eq_take.mp h.published_prefix

theorem published_ids (h : Inv C s) :
    s.published.map MetricBatch.id = List.range s.published.length := by
  have hids : (s.taken.take s.published.length).map Entry.id
      = List.range s.published.length := by
    rw [List.map_take, h.taken_ids, List.take_range, min_eq_left h.published_le]
  calc s.published.map MetricBatch.id
      = ((s.taken.take s.published.length).map Entry.batch).map MetricBatch.id := by
        rw [← h.published_eq]
    _ = (s.taken.take s.published.length).map Entry.id := by
        rw [List.map_map]
        rfl
    _ = List.range s.published.length := hids

theorem acked_eq (h : Inv C s) :
    s.acked = List.range s.acked.length ∧ s.acked.length ≤ s.published.length := by
  obtain ⟨rest, hacks, -⟩ := h.acks
  rw [h.published_ids] at hacks
  refine eq_range_of_prefix ?_
  rw [hacks]
  simp only [List.append_assoc]
  exact List.prefix_append _ _

/-- The ack in the reader's hands is for the entry after those already
processed, and the server has published its batch. -/
theorem ids_eq (h : Inv C s) {id : ℕ} (hid : s.reader.ids = [id]) :
    id = s.acked.length ∧ s.acked.length < s.published.length := by
  obtain ⟨rest, hacks, -⟩ := h.acks
  rw [h.published_ids, hid] at hacks
  refine eq_length_of_append_cons (s.toAgent.map BatchAck.batchId ++ rest) ?_
  rw [hacks]
  simp

/-- So is the next ack to arrive. -/
theorem batchId_eq (h : Inv C s) {ack : BatchAck} {rest : List BatchAck}
    (hr : s.reader.ids = []) (hack : s.toAgent = ack :: rest) :
    ack.batchId = s.acked.length ∧ s.acked.length < s.published.length := by
  obtain ⟨rest', hacks, -⟩ := h.acks
  rw [h.published_ids, hr, hack] at hacks
  refine eq_length_of_append_cons (rest.map BatchAck.batchId ++ rest') ?_
  rw [hacks]
  simp

/-- While an ack is missing, its entry is the oldest pending one. -/
theorem pending_cons (h : Inv C s) (hlt : s.acked.length < s.taken.length) :
    s.pendingSnapshots = s.taken[s.acked.length] :: s.taken.drop (s.acked.length + 1) := by
  rw [h.pending]
  exact List.drop_eq_getElem_cons hlt

/-! ### The collector -/

theorem addMetrics (h : Inv C s) (metrics : List Metric) :
    Inv C { s with adding := metrics } :=
  { h with }

/-- `Push` passes over the sample at `tail` exactly when the ring is full. -/
theorem full_iff (h : Inv C s) (key : BufferKey) :
    sizeSub (s.buffer.seriesFor key).head (s.buffer.seriesFor key).tail
      ≥ (s.buffer.seriesFor key).capacity ↔ (s.pushed key).length = s.tail key + C := by
  have hk := h.keeps key
  have htl := hk.tail_le
  have hhl := hk.head_le
  have hcap := h.series_capacity key
  rw [sizeSub_of_le htl, ← hk.head_eq, State.tail]
  omega

theorem tail_addSample (h : Inv C s) (key key' : BufferKey) (x : Sample) :
    (MetricsStream.addSample s key x).tail key'
      = if key' = key ∧ (s.pushed key).length = s.tail key + C then s.tail key' + 1
        else s.tail key' := by
  simp only [State.tail, MetricsStream.addSample, MetricsBuffer.seriesFor_addSample]
  by_cases hkey : key' = key
  · subst hkey
    have hk := h.keeps key'
    rw [if_pos rfl, hk.push_tail x, hk.head_eq, h.series_capacity key']
    simp
  · simp [hkey]

theorem tail_le_addSample (h : Inv C s) (key key' : BufferKey) (x : Sample) :
    s.tail key' ≤ (MetricsStream.addSample s key x).tail key' := by
  rw [h.tail_addSample]
  split
  · exact Nat.le_succ _
  · exact Nat.le_refl _

theorem pushed_prefix_addSample (key key' : BufferKey) (x : Sample) :
    s.pushed key' <+: (MetricsStream.addSample s key x).pushed key' := by
  by_cases hkey : key' = key
  · subst hkey
    simp [MetricsStream.addSample]
  · simp [MetricsStream.addSample, hkey]

theorem mem_overflowed_addSample (key key' : BufferKey) (x : Sample) {i : ℕ}
    (hi : i ∈ s.overflowed key') : i ∈ (MetricsStream.addSample s key x).overflowed key' := by
  simp only [MetricsStream.addSample]
  split
  · by_cases hkey : key' = key
    · subst hkey
      simp [hi]
    · simpa [hkey] using hi
  · exact hi

theorem addSample (h : Inv C s) (key : BufferKey) (x : Sample) :
    Inv C (MetricsStream.addSample s key x) :=
  { h with
    capacity_eq := by
      simpa [MetricsStream.addSample] using h.capacity_eq
    series_capacity := fun key' => by
      simp only [MetricsStream.addSample, MetricsBuffer.seriesFor_addSample]
      split
      · rw [SeriesBuffer.push_capacity]
        exact h.series_capacity key
      · exact h.series_capacity key'
    keeps := fun key' => by
      simp only [MetricsStream.addSample, MetricsBuffer.seriesFor_addSample]
      by_cases hkey : key' = key
      · subst hkey
        simpa using (h.keeps key').push x
      · simpa [hkey] using h.keeps key'
    from_series := fun p hp =>
      (h.from_series p hp).mono (pushed_prefix_addSample key p.1 x)
        (h.tail_le_addSample key p.1 x)
    settled_le := fun e he => (h.settled_le e he).trans (h.tail_le_addSample key e.key x)
    taken_keys := fun e he => s.buffer.mem_getAllKeys_addSample key x (h.taken_keys e he)
    keysLeft_keys := fun key' hkey' =>
      s.buffer.mem_getAllKeys_addSample key x (h.keysLeft_keys key' hkey')
    gone := fun key' i hi => by
      rcases Nat.lt_or_ge i (s.tail key') with hlt | hge
      · exact (h.gone key' i hlt).imp_left (mem_overflowed_addSample key key' x)
      · -- the sample at `tail` itself: a full ring passes over it
        rw [h.tail_addSample] at hi
        split at hi
        · rename_i hfull
          obtain ⟨rfl, hfull⟩ := hfull
          have hi' : i = s.tail key' := by omega
          left
          simp [MetricsStream.addSample, (h.full_iff key').mpr hfull, hi', State.tail]
        · omega }

theorem addMetric (h : Inv C s) (metric : Metric) : Inv C (MetricsStream.addMetric s metric) := by
  rw [MetricsStream.addMetric]
  split
  · exact h
  · exact h.addSample _ _

/-! ### The write queue -/

theorem writeCompletes (h : Inv C s) (hout : s.writer.outstanding ≠ []) (ok : Bool) :
    Inv C
      { s with
        writer := s.writer.complete
        completed := if ok then s.completed + 1 else s.completed } :=
  { h with
    ordered := h.ordered.complete hout ok }

theorem onWriteDonePop (h : Inv C s) {n : ℕ} (hn : s.completed = n + 1) :
    Inv C { s with completed := n, writer := s.writer.pop, rewriting := s.rewriting + 1 } :=
  { h with
    ordered := by
      have hord := h.ordered
      rw [hn] at hord
      exact hord.pop
    -- the `Write()` of this call is still to come
    awake := fun _ hre => absurd hre (Nat.succ_ne_zero s.rewriting) }

theorem startWrite (h : Inv C s) : Inv C (MetricsStream.startWrite s) :=
  { h with
    ordered := h.ordered.write
    enqueued := by
      have henq := h.enqueued
      simp only [MetricsStream.startWrite, Writer.write]
      split <;> exact henq
    started := by
      have hst := h.started
      simp only [MetricsStream.startWrite, Writer.write]
      cases s.writer.toStart with
      | none => simpa using hst
      | some msg => simp [hst]
    awake := fun hw _ _ => s.writer.writerqu_eq_nil_of_write hw }

theorem onWriteDoneWrite (h : Inv C s) (n : ℕ) :
    Inv C { MetricsStream.startWrite s with rewriting := n } :=
  { h.startWrite with
    awake := fun hw _ _ => s.writer.writerqu_eq_nil_of_write hw }

/-- With nothing pending, everything enqueued has been started: every entry
has been acked, and only a published batch is. -/
theorem waiting_eq_nil (h : Inv C s) (hp : s.pendingSnapshots = []) : s.writer.waiting = [] := by
  have hlen : s.taken.length ≤ s.acked.length := by
    rw [h.pending] at hp
    exact List.drop_eq_nil_iff.mp hp
  have henq := congrArg List.length h.enqueued
  have hst := congrArg List.length h.started
  rw [h.ordered.enqueued_eq] at henq
  simp only [List.length_map, List.length_append] at henq hst
  have hacked := h.acked_eq.2
  -- acked ≤ published ≤ started ≤ enqueued ≤ taken ≤ acked
  exact List.eq_nil_of_length_eq_zero (by omega)

/-! ### The poll thread -/

theorem at_poll (h : Inv C s) {pc : PollPc} (hpc : s.poll = pc) : Inv C { s with poll := pc } := by
  subst hpc
  exact h

/-- The poll thread goes on with nothing in its hands and no new keys. -/
theorem move (h : Inv C s) {pc : PollPc} (hold : s.poll.Free) (hpc : pc.Free)
    (hkeys : pc.keysLeft.Sublist s.poll.keysLeft)
    (hstart : pc = .enqueueMetrics → s.pendingSnapshots = [])
    (hpass : s.passPushed = true → pc.inPass = true) : Inv C { s with poll := pc } :=
  { h with
    counter := by
      have hc := h.counter
      rwa [hold.counted_eq, ← hpc.counted_eq] at hc
    numbered := fun key snapshot batch keys heq => by
      have hc := hpc.counted_eq
      rw [show pc = .addPending key snapshot batch keys from heq] at hc
      exact absurd hc Nat.one_ne_zero
    enqueued := by
      have henq := h.enqueued
      rwa [hold.unpushed_eq, ← hpc.unpushed_eq] at henq
    from_series := by
      have hfs := h.from_series
      rwa [State.snapshots, hold.hand_eq, ← hpc.hand_eq] at hfs
    increasing := by
      have hinc := h.increasing
      rwa [State.snapshots, hold.hand_eq, ← hpc.hand_eq] at hinc
    keysLeft_nodup := hkeys.nodup h.keysLeft_nodup
    keysLeft_keys := fun key hkey => h.keysLeft_keys key (hkeys.subset hkey)
    keysLeft_fresh := fun e he hkey => h.keysLeft_fresh e he (hkeys.subset hkey)
    pass_starts := hstart
    pushed_inPass := hpass }

/-- It does so within a pass. -/
theorem advance (h : Inv C s) {pc : PollPc} (hold : s.poll.Free) (hpc : pc.Free)
    (hkeys : pc.keysLeft.Sublist s.poll.keysLeft) (hin : pc.inPass = true) :
    Inv C { s with poll := pc } := by
  refine h.move hold hpc hkeys (fun heq => ?_) fun _ => hin
  rw [heq] at hin
  exact absurd hin (by simp [PollPc.inPass])

/-- A pass ends when its last `Write()` has left nothing to start. -/
theorem endPass (h : Inv C s) (hold : s.poll.Free)
    (hq : s.writer.writing = false → s.writer.writerqu = []) :
    Inv C { s with poll := .top, passPushed := false } :=
  have hfree : PollPc.recheck.Free := ⟨rfl, rfl, rfl⟩
  { h.advance hold hfree (List.nil_sublist _) rfl with
    numbered := nofun
    pass_starts := nofun
    awake := fun hw _ _ => hq hw
    pushed_inPass := nofun }

theorem getAllKeys (h : Inv C s) (hpc : s.poll = .enqueueMetrics) :
    Inv C { s with poll := .nextKey s.buffer.getAllKeys } :=
  { h.at_poll hpc with
    numbered := nofun
    keysLeft_nodup := s.buffer.keys_nodup
    keysLeft_keys := fun _ hkey => hkey
    keysLeft_fresh := fun e he => by
      rw [show s.pendingSnapshots = [] from h.pass_starts hpc] at he
      exact absurd he List.not_mem_nil
    pass_starts := nofun
    pushed_inPass := fun _ => rfl }

theorem getSnapshot_eq (h : Inv C s) {key : BufferKey} {keys : List BufferKey}
    (hpc : s.poll = .getSnapshot key keys) :
    (s.buffer.getBuffer key).bind SeriesBuffer.getSnapshot
      = some ⟨(s.pushed key).drop (s.tail key), (s.pushed key).length⟩ := by
  have hmem : key ∈ s.buffer.getAllKeys := by
    apply h.keysLeft_keys
    rw [hpc]
    exact List.mem_cons_self
  rw [s.buffer.seriesFor_of_mem hmem, Option.bind_some, (h.keeps key).getSnapshot_eq, State.tail]

/-- Nothing older of this series is unacknowledged when its snapshot is taken. -/
theorem end_le_tail (h : Inv C s) {key : BufferKey} {keys : List BufferKey}
    (hpc : s.poll = .getSnapshot key keys) {e : Entry} (he : e ∈ s.taken) (hkey : e.key = key) :
    e.snapshot.end ≤ s.tail key := by
  rw [← List.take_append_drop s.acked.length s.taken, List.mem_append] at he
  rcases he with he | he
  · rw [← hkey]
    refine h.settled_le e (List.take_subset_take_left _ ?_ he)
    rw [State.settled]
    split <;> omega
  · -- still pending, so not a key that is left
    rw [← h.pending] at he
    have hfresh := h.keysLeft_fresh e he
    rw [hpc] at hfresh
    exact absurd (hkey ▸ List.mem_cons_self) hfresh

theorem getSnapshot (h : Inv C s) {key : BufferKey} {keys : List BufferKey}
    (hpc : s.poll = .getSnapshot key keys) :
    Inv C { s with
      poll := .buildBatch key ⟨(s.pushed key).drop (s.tail key), (s.pushed key).length⟩ keys } := by
  have hk := h.keeps key
  have htail : s.tail key ≤ (s.pushed key).length := by
    rw [← hk.head_eq]
    exact hk.tail_le
  have hsnaps : s.snapshots = s.taken.map fun e => (e.key, e.snapshot) := by
    simp [State.snapshots, hpc, PollPc.hand]
  refine
    { h.at_poll hpc with
      numbered := nofun
      from_series := fun p hp => ?_
      increasing := ?_
      pass_starts := nofun
      pushed_inPass := fun _ => rfl }
  · rcases List.mem_append.mp hp with hp | hp
    · exact h.from_series p (List.mem_append_left _ hp)
    · rw [List.mem_singleton.mp hp]
      refine ⟨?_, Nat.le_refl _, ?_, ?_⟩
      · simp
      · simp only [List.take_length, List.length_drop, Nat.sub_sub_self htail]
      · simp only [List.length_drop]
        exact le_of_eq (Nat.sub_sub_self htail)
  · have hinc := h.increasing
    rw [hsnaps] at hinc
    -- the new snapshot starts at `tail`, where every older one of its series has ended
    refine List.pairwise_append.mpr ⟨hinc, List.pairwise_singleton _ _, fun p hp q hq heq => ?_⟩
    obtain ⟨e, he, rfl⟩ := List.mem_map.mp hp
    rw [List.mem_singleton.mp hq] at heq ⊢
    have hend := h.end_le_tail hpc he heq
    simp only [List.length_drop]
    rwa [Nat.sub_sub_self htail]

theorem buildBatch (h : Inv C s) {key : BufferKey} {snapshot : SeriesBuffer.Snapshot}
    {keys : List BufferKey} (hpc : s.poll = .buildBatch key snapshot keys) :
    Inv C
      { s with
        batchIdCounter := s.batchIdCounter + 1
        poll := .addPending key snapshot (makeBatch key snapshot s.batchIdCounter) keys } := by
  have h' := h.at_poll hpc
  have hc : s.batchIdCounter = s.taken.length := h'.counter
  exact
    { h' with
      counter := congrArg Nat.succ hc
      numbered := fun key' snapshot' batch' keys' heq => by
        cases heq
        rw [hc]
      pass_starts := nofun
      pushed_inPass := fun _ => rfl }

theorem emplace_eq (h : Inv C s) {entry : Entry} (hid : entry.id = s.taken.length) :
    emplace s.pendingSnapshots entry = s.pendingSnapshots ++ [entry] := by
  refine if_neg ?_
  rw [List.any_eq_true]
  rintro ⟨e, he, heq⟩
  rw [h.pending] at he
  obtain ⟨i, hi, rfl⟩ := List.mem_iff_getElem.mp (List.mem_of_mem_drop he)
  rw [beq_iff_eq, h.getElem_id hi, hid] at heq
  omega

theorem addPending (h : Inv C s) {key : BufferKey} {snapshot : SeriesBuffer.Snapshot}
    {batch : MetricBatch} {keys : List BufferKey}
    (hpc : s.poll = .addPending key snapshot batch keys) :
    Inv C
      { s with
        pendingSnapshots := emplace s.pendingSnapshots ⟨batch.id, key, snapshot⟩
        taken := s.taken ++ [⟨batch.id, key, snapshot⟩]
        poll := .pushBatch batch keys } := by
  have hbatch : batch = makeBatch key snapshot s.taken.length := h.numbered _ _ _ _ hpc
  have hid : batch.id = s.taken.length := by rw [hbatch]; rfl
  have h' := h.at_poll hpc
  have hkl : (key :: keys).Nodup := h'.keysLeft_nodup
  have hkm : ∀ k ∈ key :: keys, k ∈ s.buffer.getAllKeys := h'.keysLeft_keys
  have hkf : ∀ e ∈ s.pendingSnapshots, e.key ∉ key :: keys := h'.keysLeft_fresh
  have hacked : s.acked.length ≤ s.taken.length := h.acked_eq.2.trans h.published_le
  -- the snapshot in hand becomes the last of `taken`
  have hsnaps : (s.taken ++ [(⟨batch.id, key, snapshot⟩ : Entry)]).map
        (fun e => (e.key, e.snapshot)) ++ (PollPc.pushBatch batch keys).hand
      = s.taken.map (fun e => (e.key, e.snapshot)) ++ [(key, snapshot)] := by
    simp [PollPc.hand]
  have htake : ∀ n, n ≤ s.taken.length →
      (s.taken ++ [(⟨batch.id, key, snapshot⟩ : Entry)]).take n = s.taken.take n :=
    fun n hn => List.take_append_of_le_length hn
  have hsettled : s.settled ≤ s.taken.length := by
    rw [State.settled]
    split
    · rename_i id hr
      have hids : s.reader.ids = [id] := by rw [hr]; rfl
      exact (h.ids_eq hids).2.trans_le h.published_le
    · exact hacked
  refine
    { h with
      taken_ids := ?_
      counter := ?_
      numbered := nofun
      enqueued := ?_
      pending := ?_
      acking := ?_
      from_series := ?_
      increasing := ?_
      settled_le := ?_
      taken_keys := ?_
      keysLeft_nodup := hkl.of_cons
      keysLeft_keys := fun key' hkey' => hkm key' (List.mem_cons_of_mem _ hkey')
      keysLeft_fresh := ?_
      pass_starts := nofun
      gone := ?_
      pushed_inPass := fun _ => rfl }
  · simp only [List.map_append, List.map_singleton, List.length_append, List.length_singleton,
      List.range_succ, h.taken_ids, hid]
  · rw [show s.batchIdCounter = s.taken.length + 1 from h'.counter]
    simp [PollPc.counted]
  · have henq : s.taken.map Entry.batch = s.writer.enqueued ++ [] := h'.enqueued
    simp only [List.map_append, List.map_singleton, henq, PollPc.unpushed, List.append_nil]
    rw [hbatch]
    rfl
  · rw [h.emplace_eq hid, h.pending]
    exact (List.drop_append_of_le_length hacked).symm
  · intro entry hr
    exact List.getElem?_append_left (List.getElem?_eq_some_iff.mp (h.acking entry hr)).1 ▸
      h.acking entry hr
  · intro p hp
    refine h'.from_series p ?_
    show p ∈ s.taken.map (fun e => (e.key, e.snapshot)) ++ [(key, snapshot)]
    rw [← hsnaps]
    exact hp
  · rw [State.snapshots]
    dsimp only
    rw [hsnaps]
    exact h'.increasing
  · intro e he
    exact h.settled_le e (htake _ hsettled ▸ he)
  · have hkey := hkm key List.mem_cons_self
    exact List.forall_mem_append.mpr ⟨h.taken_keys, List.forall_mem_singleton.mpr hkey⟩
  · rw [h.emplace_eq hid]
    refine List.forall_mem_append.mpr ⟨fun e he => ?_, List.forall_mem_singleton.mpr ?_⟩
    · exact fun hmem => hkf e he (List.mem_cons_of_mem _ hmem)
    · exact (List.nodup_cons.mp hkl).1
  · intro key' i hi
    rw [htake _ h.published_le]
    exact h.gone key' i hi

theorem pushBatch (h : Inv C s) {batch : MetricBatch} {keys : List BufferKey}
    (hpc : s.poll = .pushBatch batch keys) :
    Inv C
      { s with writer := s.writer.push batch, passPushed := true, poll := .nextKey keys } :=
  have henq : s.taken.map Entry.batch = s.writer.enqueued ++ [batch] := (h.at_poll hpc).enqueued
  { h.at_poll hpc with
    ordered := h.ordered.push batch
    numbered := nofun
    enqueued := by
      rw [henq]
      simp [Writer.push, PollPc.unpushed]
    pass_starts := nofun
    awake := nofun
    pushed_inPass := fun _ => rfl }

/-- Every step of the poll thread keeps the invariant. -/
theorem pollStep (h : Inv C s) {t : State} (ht : MetricsStream.pollStep s = some t) : Inv C t := by
  rw [MetricsStream.pollStep] at ht
  split at ht
  case h_1 hpc =>
    split at ht
    · exact absurd ht (by simp)
    · split at ht
      · rename_i hempty
        rw [Option.some_inj] at ht
        subst ht
        have hp : s.pendingSnapshots = [] := List.isEmpty_iff.mp hempty
        have hpass : s.passPushed = true → PollPc.enqueueMetrics.inPass = true := fun hpush => by
          have hin := h.pushed_inPass hpush
          rwa [hpc] at hin
        exact h.move (hpc ▸ ⟨rfl, rfl, rfl⟩) ⟨rfl, rfl, rfl⟩ (List.nil_sublist _) (fun _ => hp)
          hpass
      · rw [Option.some_inj] at ht
        exact ht ▸ h
  case h_2 hpc =>
    split at ht
    · rw [Option.some_inj] at ht
      exact ht ▸ h.getAllKeys hpc
    · exact absurd ht (by simp)
  case h_3 hpc =>
    rw [Option.some_inj] at ht
    exact ht ▸ h.advance (hpc ▸ ⟨rfl, rfl, rfl⟩) ⟨rfl, rfl, rfl⟩ (List.nil_sublist _) rfl
  case h_4 key keys hpc =>
    split at ht
    · have hmem : key ∈ s.buffer.getAllKeys := by
        apply h.keysLeft_keys
        rw [hpc]
        exact List.mem_cons_self
      rw [s.buffer.seriesFor_of_mem hmem, Option.some_inj] at ht
      refine ht ▸ h.advance (hpc ▸ ⟨rfl, rfl, rfl⟩) ⟨rfl, rfl, rfl⟩ ?_ rfl
      rw [hpc]
      exact List.Sublist.refl _
    · exact absurd ht (by simp)
  case h_5 key keys hpc =>
    rw [h.getSnapshot_eq hpc, Option.map_some, Option.some_inj] at ht
    subst ht
    split
    · refine h.advance (hpc ▸ ⟨rfl, rfl, rfl⟩) ⟨rfl, rfl, rfl⟩ ?_ rfl
      rw [hpc]
      exact List.sublist_cons_self key keys
    · exact h.getSnapshot hpc
  case h_6 key snapshot keys hpc =>
    rw [Option.some_inj] at ht
    exact ht ▸ h.buildBatch hpc
  case h_7 key snapshot batch keys hpc =>
    split at ht
    · exact absurd ht (by simp)
    · rw [Option.some_inj] at ht
      exact ht ▸ h.addPending hpc
  case h_8 batch keys hpc =>
    rw [Option.some_inj] at ht
    exact ht ▸ h.pushBatch hpc
  case h_9 hpc =>
    split at ht
    · exact absurd ht (by simp)
    · split at ht
      · rename_i hempty
        rw [Option.some_inj] at ht
        have hwait := h.waiting_eq_nil (List.isEmpty_iff.mp hempty)
        refine ht ▸ h.endPass (hpc ▸ ⟨rfl, rfl, rfl⟩) (fun hw => ?_)
        rwa [Writer.waiting, if_neg (by simp [hw])] at hwait
      · rw [Option.some_inj] at ht
        exact ht ▸ h.advance (hpc ▸ ⟨rfl, rfl, rfl⟩) ⟨rfl, rfl, rfl⟩ (List.nil_sublist _) rfl
  case h_10 hpc =>
    rw [Option.some_inj] at ht
    refine ht ▸ h.startWrite.endPass ?_ s.writer.writerqu_eq_nil_of_write
    exact (show (MetricsStream.startWrite s).poll = .write from hpc) ▸ ⟨rfl, rfl, rfl⟩
  case h_11 hpc => exact absurd ht (by simp)

/-! ### The acks -/

theorem getElem_of_acking (h : Inv C s) {entry : Entry} (hr : s.reader = .acking entry) :
    ∃ hlt : s.acked.length < s.taken.length, s.taken[s.acked.length] = entry :=
  List.getElem?_eq_some_iff.mp (h.acking entry hr)

theorem mem_of_acking (h : Inv C s) {entry : Entry} (hr : s.reader = .acking entry) :
    entry ∈ s.taken :=
  List.mem_of_getElem? (h.acking entry hr)

/-- The next ack finds the oldest entry of `pending_snapshots_`. -/
theorem find_batchId (h : Inv C s) {ack : BatchAck} {acks : List BatchAck}
    (hr : s.reader.ids = []) (hack : s.toAgent = ack :: acks) :
    ∃ entry, s.taken[s.acked.length]? = some entry ∧ entry.id = ack.batchId ∧
      s.pendingSnapshots.find? (fun e => e.id == ack.batchId) = some entry := by
  -- its ID is the number of acks so far, which is where `taken` starts to be pending
  obtain ⟨hid, hlt⟩ := h.batchId_eq hr hack
  have htaken : s.acked.length < s.taken.length := hlt.trans_le h.published_le
  have hentry : s.taken[s.acked.length].id = ack.batchId := (h.getElem_id htaken).trans hid.symm
  refine ⟨s.taken[s.acked.length], List.getElem?_eq_getElem htaken, hentry, ?_⟩
  rw [h.pending_cons htaken]
  exact List.find?_cons_of_pos (by simp [hentry])

theorem at_reader (h : Inv C s) {pc : ReadPc} (hr : s.reader = pc) :
    Inv C { s with reader := pc } := by
  subst hr
  exact h

theorem arrive (h : Inv C s) {ack : BatchAck} {acks : List BatchAck} {entry : Entry}
    (hr : s.reader = .reading) (hack : s.toAgent = ack :: acks)
    (hentry : s.taken[s.acked.length]? = some entry) (hid : entry.id = ack.batchId) :
    Inv C { s with toAgent := acks, reader := .acking entry } :=
  { h.at_reader hr with
    acks := by
      obtain ⟨rest, hacks, howes⟩ := h.acks
      refine ⟨rest, ?_, howes⟩
      rw [hacks, hr, hack]
      simp [ReadPc.ids, hid]
    acking := fun entry' heq => by
      cases heq
      exact hentry }

theorem tail_modify (h : Inv C s) {entry : Entry} (hmem : entry ∈ s.taken) (r : ReadPc)
    (key : BufferKey) :
    State.tail
        { s with
          buffer := s.buffer.modify entry.key fun b => b.ackSnapshot entry.snapshot
          reader := r } key
      = if key = entry.key then max (s.tail key) entry.snapshot.end else s.tail key := by
  simp only [State.tail, s.buffer.seriesFor_modify (h.taken_keys entry hmem)]
  by_cases hkey : key = entry.key
  · rw [if_pos hkey, if_pos hkey, SeriesBuffer.ackSnapshot_tail, hkey]
  · rw [if_neg hkey, if_neg hkey]

theorem tail_le_modify (h : Inv C s) {entry : Entry} (hmem : entry ∈ s.taken) (r : ReadPc)
    (key : BufferKey) :
    s.tail key ≤ State.tail
        { s with
          buffer := s.buffer.modify entry.key fun b => b.ackSnapshot entry.snapshot
          reader := r } key := by
  rw [h.tail_modify hmem]
  split
  · exact Nat.le_max_left _ _
  · exact Nat.le_refl _

/-- `AckSnapshot` moves `tail` over samples of a batch that has been published. -/
theorem ackSnapshot (h : Inv C s) {entry : Entry} (hr : s.reader = .acking entry) :
    Inv C
      { s with
        buffer := s.buffer.modify entry.key fun b => b.ackSnapshot entry.snapshot
        reader := .erasing entry.id } := by
  have hmem := h.mem_of_acking hr
  have hkey := h.taken_keys entry hmem
  have hfrom : FromSeries (s.pushed entry.key) (s.tail entry.key) entry.snapshot :=
    h.from_series (entry.key, entry.snapshot)
      (List.mem_append_left _ (List.mem_map_of_mem hmem))
  obtain ⟨hlt, hget⟩ := h.getElem_of_acking hr
  have hids : s.reader.ids = [entry.id] := by rw [hr]; rfl
  have hpub := (h.ids_eq hids).2
  have hpubmem : entry ∈ s.taken.take s.published.length := by
    rw [← hget]
    exact List.mem_take_iff_getElem.mpr ⟨s.acked.length, lt_min hpub hlt, rfl⟩
  refine
    { h.at_reader hr with
      acking := nofun
      capacity_eq := ?_
      series_capacity := fun key => ?_
      keeps := fun key => ?_
      from_series := fun p hp =>
        (h.from_series p hp).mono (List.prefix_refl _) (h.tail_le_modify hmem _ p.1)
      settled_le := fun e he => ?_
      taken_keys := fun e he => ?_
      keysLeft_keys := fun key hkey => ?_
      gone := fun key i hi => ?_ }
  · rw [MetricsBuffer.capacityPerSeries_modify]
    exact h.capacity_eq
  · rw [s.buffer.seriesFor_modify hkey]
    split
    · rw [SeriesBuffer.ackSnapshot_capacity]
      exact h.series_capacity entry.key
    · exact h.series_capacity key
  · rw [s.buffer.seriesFor_modify hkey]
    split
    · rename_i heq
      rw [heq]
      exact (h.keeps entry.key).ackSnapshot hfrom.end_le
    · exact h.keeps key
  · -- the entries settled before, or the one acknowledged now
    simp only [State.settled, List.take_succ_eq_append_getElem hlt, hget, List.mem_append,
      List.mem_singleton] at he
    rcases he with he | rfl
    · have hold := h.settled_le e
      rw [State.settled, hr] at hold
      exact (hold he).trans (h.tail_le_modify hmem _ e.key)
    · rw [h.tail_modify hmem, if_pos rfl]
      exact Nat.le_max_right _ _
  · rw [MetricsBuffer.getAllKeys_modify]
    exact h.taken_keys e he
  · rw [MetricsBuffer.getAllKeys_modify]
    exact h.keysLeft_keys key hkey
  · rcases Nat.lt_or_ge i (s.tail key) with hold | hge
    · exact h.gone key i hold
    · rw [h.tail_modify hmem] at hi
      split at hi
      · rename_i heq
        subst heq
        right
        have hi' : i < entry.snapshot.end := by omega
        exact ⟨entry, hpubmem, rfl, hfrom.start_le.trans hge, hi'⟩
      · omega

/-- The entry that an ack removes is the oldest one. -/
theorem eraseP_eq (h : Inv C s) {id : ℕ} (hr : s.reader = .erasing id) :
    s.pendingSnapshots.eraseP (fun e => e.id == id) = s.taken.drop (s.acked.length + 1) := by
  have hids : s.reader.ids = [id] := by rw [hr]; rfl
  obtain ⟨hid, hlt⟩ := h.ids_eq hids
  have htaken : s.acked.length < s.taken.length := hlt.trans_le h.published_le
  rw [h.pending_cons htaken]
  exact List.eraseP_cons_of_pos (by simp [h.getElem_id htaken, hid])

theorem erase (h : Inv C s) {id : ℕ} (hr : s.reader = .erasing id) :
    Inv C
      { s with
        pendingSnapshots := s.pendingSnapshots.eraseP fun e => e.id == id
        acked := s.acked ++ [id]
        reader := .reading } :=
  { h with
    acks := by
      obtain ⟨rest, hacks, howes⟩ := h.acks
      refine ⟨rest, ?_, howes⟩
      rw [hacks, hr]
      simp [ReadPc.ids]
    pending := by
      rw [h.eraseP_eq hr, List.length_append, List.length_singleton]
    acking := nofun
    settled_le := fun e he => by
      have hle := h.settled_le e
      rw [State.settled, hr] at hle
      simp only [State.settled, List.length_append, List.length_singleton] at he
      exact hle he
    keysLeft_fresh := fun e he => h.keysLeft_fresh e (List.mem_of_mem_eraseP he)
    pass_starts := fun hpc => by
      rw [show s.pendingSnapshots = [] from h.pass_starts hpc]
      rfl }

/-- A read that fails ends the reading; its acks are never seen. -/
theorem readFails (h : Inv C s) (hr : s.reader = .reading) :
    Inv C { s with reader := .closed } :=
  { h.at_reader hr with
    acking := nofun }

theorem readStep (h : Inv C s) {t : State} (ht : MetricsStream.readStep s = some t) : Inv C t := by
  rw [MetricsStream.readStep] at ht
  split at ht
  case h_1 ack acks hr hack =>
    obtain ⟨entry, hget, hid, hfind⟩ := h.find_batchId (by rw [hr]; rfl) hack
    split at ht
    · rw [hfind] at ht
      have hkey := h.taken_keys entry (List.mem_of_getElem? hget)
      simp only [s.buffer.seriesFor_of_mem hkey, Option.some_inj] at ht
      exact ht ▸ h.arrive hr hack hget hid
    · exact absurd ht (by simp)
  case h_2 => exact absurd ht (by simp)
  case h_3 entry hr =>
    rw [Option.some_inj] at ht
    exact ht ▸ h.ackSnapshot hr
  case h_4 id hr =>
    rw [Option.some_inj] at ht
    exact ht ▸ h.erase hr
  case h_5 => exact absurd ht (by simp)

/-! ### The server -/

theorem at_handler (h : Inv C s) {pc : HandlerPc} (hpc : s.handler = pc) :
    Inv C { s with handler := pc } := by
  subst hpc
  exact h

theorem recv (h : Inv C s) {batch : MetricBatch} {batches : List MetricBatch}
    (hpc : s.handler = .recv) (hin : s.toServer = batch :: batches) :
    Inv C { s with toServer := batches, handler := .publish batch } :=
  { h.at_handler hpc with
    started := by
      rw [h.started, hpc, hin]
      simp [HandlerPc.received] }

theorem publish (h : Inv C s) {batch : MetricBatch} (hpc : s.handler = .publish batch) :
    Inv C { s with published := s.published ++ [batch], handler := .sendAck batch } :=
  { h with
    started := by
      rw [h.started, hpc]
      simp [HandlerPc.received]
    acks := by
      obtain ⟨rest, hacks, howes⟩ := h.acks
      rw [hpc] at howes
      obtain rfl : rest = [] := howes
      refine ⟨[batch.id], ?_, rfl⟩
      rw [List.map_append, hacks]
      simp
    gone := fun key i hi => by
      refine (h.gone key i hi).imp_right ?_
      rintro ⟨e, he, hspan⟩
      refine ⟨e, List.take_subset_take_left _ ?_ he, hspan⟩
      simp }

theorem sendAck (h : Inv C s) {batch : MetricBatch} (hpc : s.handler = .sendAck batch) :
    Inv C
      { s with
        toAgent := s.toAgent ++ [{ batchId := batch.id, samplesReceived := batch.values.length }]
        handler := .recv } :=
  { h.at_handler hpc with
    acks := by
      obtain ⟨rest, hacks, howes⟩ := h.acks
      rw [hpc] at howes
      obtain rfl : rest = [batch.id] := howes
      refine ⟨[], ?_, rfl⟩
      rw [hacks]
      simp }

/-- Once the handler has returned, no more acks are owed. -/
theorem serverFails (h : Inv C s) (hpc : s.handler.received = []) :
    Inv C { s with handler := .returned } :=
  { h with
    started := by
      have hst := h.started
      rwa [hpc] at hst
    acks := by
      obtain ⟨rest, hacks, -⟩ := h.acks
      exact ⟨rest, hacks, trivial⟩ }

theorem serverStep (h : Inv C s) {t : State} (ht : MetricsStream.serverStep s = some t) :
    Inv C t := by
  rw [MetricsStream.serverStep] at ht
  split at ht
  case h_1 batch batches hpc hin =>
    rw [Option.some_inj] at ht
    exact ht ▸ h.recv hpc hin
  case h_2 => exact absurd ht (by simp)
  case h_3 batch hpc =>
    rw [Option.some_inj] at ht
    exact ht ▸ h.publish hpc
  case h_4 batch hpc =>
    rw [Option.some_inj] at ht
    exact ht ▸ h.sendAck hpc
  case h_5 => exact absurd ht (by simp)

/-! ### Every step, every run -/

theorem step (h : Inv C s) {a : Action} {t : State} (ht : MetricsStream.step s a = some t) :
    Inv C t := by
  cases a with
  | addMetrics metrics =>
    simp only [MetricsStream.step] at ht
    split at ht
    · rw [Option.some_inj] at ht
      exact ht ▸ h.addMetrics metrics
    · exact absurd ht (by simp)
  | addMetric =>
    simp only [MetricsStream.step] at ht
    split at ht
    · exact absurd ht (by simp)
    · rename_i metric metrics _
      rw [Option.some_inj] at ht
      exact ht ▸ (h.addMetric metric).addMetrics metrics
  | poll => exact h.pollStep ht
  | stopPoll =>
    simp only [MetricsStream.step] at ht
    split at ht
    · rename_i hpc
      rw [Option.some_inj] at ht
      refine ht ▸ h.move (hpc ▸ ⟨rfl, rfl, rfl⟩) ⟨rfl, rfl, rfl⟩ (List.nil_sublist _)
        (fun heq => ?_) fun hpush => ?_
      · exact absurd heq (by simp)
      · have hin := h.pushed_inPass hpush
        rwa [hpc] at hin
    · exact absurd ht (by simp)
  | read => exact h.readStep ht
  | readFails =>
    simp only [MetricsStream.step] at ht
    split at ht
    · rename_i hr
      rw [Option.some_inj] at ht
      exact ht ▸ h.readFails hr
    · exact absurd ht (by simp)
  | writeCompletes ok =>
    simp only [MetricsStream.step] at ht
    split at ht
    · exact absurd ht (by simp)
    · rename_i hout
      rw [Option.some_inj] at ht
      exact ht ▸ h.writeCompletes (fun hnil => hout (by rw [hnil]; rfl)) ok
  | onWriteDonePop =>
    simp only [MetricsStream.step] at ht
    split at ht
    · exact absurd ht (by simp)
    · rename_i n hn
      rw [Option.some_inj] at ht
      exact ht ▸ h.onWriteDonePop hn
  | onWriteDoneWrite =>
    simp only [MetricsStream.step] at ht
    split at ht
    · exact absurd ht (by simp)
    · rename_i n hn
      rw [Option.some_inj] at ht
      exact ht ▸ h.onWriteDoneWrite n
  | server => exact h.serverStep ht
  | serverFails =>
    simp only [MetricsStream.step] at ht
    split at ht
    · rename_i hpc
      rw [Option.some_inj] at ht
      exact ht ▸ h.serverFails (by rw [hpc]; rfl)
    · rename_i hpc
      rw [Option.some_inj] at ht
      exact ht ▸ h.serverFails (by rw [hpc]; rfl)
    · exact absurd ht (by simp)
    · exact absurd ht (by simp)

end Inv

/-- The invariant holds in every state that a stream reaches. -/
theorem inv_of_exec {C : ℕ} (hC : 0 < C) {as : List Action} {s : State}
    (hs : Run.exec step (init C) as = some s) : Inv C s :=
  Run.exec_invariant (fun h ht => h.step ht) (inv_init hC) hs

end MetricsStream
end Volta
