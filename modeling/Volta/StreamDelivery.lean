/-
What one `StreamMetrics` stream guarantees, in every run.

* `published_in_order_once` — the samples published for a series have strictly
  increasing push indices and carry their own timestamps and values, and a
  sample leaves the ring unsent only where `Push` passes over it;
* `ack_finds_snapshot` — a batch whose ack has not been processed has exactly
  one pending snapshot, its own, and no ack is for an unknown batch;
* `writers_lose_no_wakeup` — both write queues of the agent write one message
  at a time, in order, and stop only when they are empty.
-/
import Volta.StreamInvariant
import Volta.ConnectReactor

namespace Volta

namespace MetricsStream

/-! ### The samples of a published batch -/

theorem map_fst_samplesOf (e : Entry) :
    (samplesOf e e.batch).map Prod.fst = List.range' e.start e.snapshot.samples.length := by
  refine List.map_fst_zip ?_
  simp [Entry.batch, makeBatch]

theorem mem_samplesOf {xs : List Sample} {tail : ℕ} {e : Entry}
    (h : FromSeries xs tail e.snapshot) {i : ℕ} {t : UInt64} {v : Double}
    (hmem : (i, t, v) ∈ samplesOf e e.batch) :
    ∃ x, xs[i]? = some x ∧ t = x.timestampNs.toUInt64 ∧ v = x.value := by
  obtain ⟨j, hj⟩ := List.mem_iff_getElem?.mp hmem
  rw [samplesOf, List.getElem?_zip_eq_some, List.getElem?_zip_eq_some] at hj
  obtain ⟨hi, ht, hv⟩ := hj
  simp only [Entry.batch, makeBatch, List.getElem?_map, Option.map_eq_some_iff] at ht hv
  obtain ⟨x, hx, rfl⟩ := ht
  obtain ⟨x', hx', rfl⟩ := hv
  obtain rfl : x = x' := Option.some_inj.mp (hx.symm.trans hx')
  obtain ⟨hlt, -⟩ := List.getElem?_eq_some_iff.mp hx
  rw [List.getElem?_range' hlt, Nat.one_mul, Option.some_inj] at hi
  obtain rfl : e.start + j = i := hi
  refine ⟨x, ?_, rfl, rfl⟩
  rw [h.samples_eq, List.getElem?_drop] at hx
  obtain ⟨hlt', hget⟩ := List.getElem?_eq_some_iff.mp hx
  rw [← hget, List.getElem_take]
  exact List.getElem?_eq_getElem _

namespace Inv

variable {C : ℕ} {s : State}

/-- A batch is published with the number of the snapshot it was made from. -/
theorem origin_batch (h : Inv C s) {e : Entry} (he : e ∈ s.taken) :
    s.origin e.batch = some e := by
  obtain ⟨i, hi, rfl⟩ := List.mem_iff_getElem.mp he
  refine List.find?_eq_some_iff_getElem.mpr ⟨?_, i, hi, rfl, fun j hj => ?_⟩
  · simp [Entry.batch, makeBatch]
  · have hne : j ≠ i := hj.ne
    simpa [Entry.batch, makeBatch, h.getElem_id hi, h.getElem_id (hj.trans hi)] using hne

theorem publishedSamples_eq (h : Inv C s) (key : BufferKey) :
    s.publishedSamples key = (s.taken.take s.published.length).flatMap fun e =>
      if e.key = key then samplesOf e e.batch else [] := by
  rw [State.publishedSamples]
  conv_lhs => rw [h.published_eq]
  rw [List.flatMap_map]
  refine List.flatMap_congr fun e he => ?_
  rw [h.origin_batch (List.mem_of_mem_take he)]

theorem fromSeries (h : Inv C s) {e : Entry} (he : e ∈ s.taken) :
    FromSeries (s.pushed e.key) (s.tail e.key) e.snapshot :=
  h.from_series (e.key, e.snapshot) (List.mem_append_left _ (List.mem_map_of_mem he))

theorem publishedSamples_increasing (h : Inv C s) (key : BufferKey) :
    ((s.publishedSamples key).map Prod.fst).Pairwise (· < ·) := by
  have hidx : ∀ e ∈ s.taken.take s.published.length,
      ∀ i ∈ (if e.key = key then samplesOf e e.batch else []).map Prod.fst,
        e.key = key ∧ e.start ≤ i ∧ i < e.snapshot.end := by
    intro e he i hi
    have hlen := (h.fromSeries (List.mem_of_mem_take he)).length_le
    split at hi
    · rename_i hkey
      rw [map_fst_samplesOf, List.mem_range'_1, Entry.start] at hi
      exact ⟨hkey, hi.1, by omega⟩
    · exact absurd hi List.not_mem_nil
  rw [h.publishedSamples_eq, List.map_flatMap, List.pairwise_flatMap]
  constructor
  · intro e _
    split
    · rw [map_fst_samplesOf]
      exact List.pairwise_lt_range'
    · exact List.Pairwise.nil
  · -- two snapshots of one series do not overlap, and come in order
    have hinc : s.taken.Pairwise fun e f => e.key = f.key → e.snapshot.end ≤ f.start :=
      List.pairwise_map.mp (List.pairwise_append.mp h.increasing).1
    have hinc' := hinc.sublist (List.take_sublist s.published.length s.taken)
    refine hinc'.imp_of_mem fun {e f} he hf hef i hi j hj => ?_
    obtain ⟨hekey, -, hlt⟩ := hidx e he i hi
    obtain ⟨hfkey, hle, -⟩ := hidx f hf j hj
    exact (hlt.trans_le (hef (hekey.trans hfkey.symm))).trans_le hle

theorem mem_publishedSamples (h : Inv C s) {key : BufferKey} {i : ℕ} {t : UInt64} {v : Double}
    (hmem : (i, t, v) ∈ s.publishedSamples key) :
    ∃ x, (s.pushed key)[i]? = some x ∧ t = x.timestampNs.toUInt64 ∧ v = x.value := by
  rw [h.publishedSamples_eq, List.mem_flatMap] at hmem
  obtain ⟨e, he, hmem⟩ := hmem
  split at hmem
  · rename_i hkey
    rw [← hkey]
    exact mem_samplesOf (h.fromSeries (List.mem_of_mem_take he)) hmem
  · exact absurd hmem List.not_mem_nil

/-- Every sample of a published snapshot has been published. -/
theorem exists_published (h : Inv C s) {e : Entry} (he : e ∈ s.taken.take s.published.length)
    {i : ℕ} (hstart : e.start ≤ i) (hend : i < e.snapshot.end) :
    ∃ p ∈ s.publishedSamples e.key, p.1 = i := by
  have hlen := (h.fromSeries (List.mem_of_mem_take he)).length_le
  have hi : i ∈ (samplesOf e e.batch).map Prod.fst := by
    rw [map_fst_samplesOf, List.mem_range'_1]
    refine ⟨hstart, ?_⟩
    rw [Entry.start]
    omega
  obtain ⟨p, hp, hpi⟩ := List.mem_map.mp hi
  refine ⟨p, ?_, hpi⟩
  rw [h.publishedSamples_eq, List.mem_flatMap]
  exact ⟨e, he, by rwa [if_pos rfl]⟩

end Inv

/-! ### What moves a `tail` -/

/-- `i` is the sample that this step's `Push` on a full ring passes over. -/
def PassesOver (C : ℕ) (s : State) (a : Action) (key : BufferKey) (i : ℕ) : Prop :=
  a = .addMetric ∧
    (∃ metric metrics, s.adding = metric :: metrics ∧ metric.type ≠ metricTypeUnspecified ∧
      makeBufferKey metric = key) ∧
    i = s.tail key ∧ (s.pushed key).length = i + C

theorem pollStep_buffer {s t : State} (h : pollStep s = some t) : t.buffer = s.buffer := by
  rw [pollStep_eq h]

/-- Only a push and an ack change the buffer. -/
theorem buffer_of_step {s t : State} {a : Action} (h : step s a = some t) :
    t.buffer = s.buffer ∨
      (a = .addMetric ∧ ∃ metric metrics, s.adding = metric :: metrics ∧
        t.buffer = (addMetric s metric).buffer) ∨
      (a = .read ∧ ∃ entry, s.reader = .acking entry ∧
        t.buffer = s.buffer.modify entry.key fun b => b.ackSnapshot entry.snapshot) := by
  cases a with
  | addMetric =>
    simp only [step] at h
    split at h
    · exact absurd h (by simp)
    · rename_i metric metrics hadd
      cases h
      exact .inr (.inl ⟨rfl, metric, metrics, hadd, rfl⟩)
  | read =>
    simp only [step, readStep] at h
    split at h
    case h_1 =>
      left
      split at h
      · split at h
        · cases h
          rfl
        · split at h <;> cases h <;> rfl
      · exact absurd h (by simp)
    case h_3 entry hr =>
      cases h
      exact .inr (.inr ⟨rfl, entry, hr, rfl⟩)
    case h_4 =>
      cases h
      exact .inl rfl
    case h_2 | h_5 => exact absurd h (by simp)
  | poll => exact .inl (pollStep_buffer h)
  | server => exact .inl (serverStep_frame h).2.2.2
  | _ =>
    simp only [step] at h
    split at h <;> cases h
    all_goals exact .inl rfl

namespace Inv

variable {C : ℕ} {s : State}

/-- A sample leaves the ring passed over, or published. -/
theorem leaves (h : Inv C s) {a : Action} {t : State} (ht : MetricsStream.step s a = some t)
    {key : BufferKey} {i : ℕ} (hge : s.tail key ≤ i) (hlt : i < t.tail key) :
    PassesOver C s a key i ∨ ∃ p ∈ s.publishedSamples key, p.1 = i := by
  rw [State.tail] at hlt
  obtain hbuf | ⟨rfl, metric, metrics, hadd, hbuf⟩ | ⟨rfl, entry, hr, hbuf⟩ := buffer_of_step ht
  · rw [hbuf] at hlt
    exact absurd hlt (not_lt.mpr hge)
  · left
    rw [hbuf] at hlt
    rw [MetricsStream.addMetric] at hlt
    split at hlt
    · exact absurd hlt (not_lt.mpr hge)
    · rename_i htype
      have htail := h.tail_addSample (makeBufferKey metric) key
        { timestampNs := metric.timestamp, value := metric.value }
      rw [State.tail] at htail
      rw [htail] at hlt
      split at hlt
      · rename_i hfull
        obtain ⟨rfl, hfull⟩ := hfull
        have hi : i = s.tail (makeBufferKey metric) := by omega
        refine ⟨rfl, ⟨metric, metrics, hadd, htype, rfl⟩, hi, ?_⟩
        rw [hi]
        exact hfull
      · omega
  · right
    rw [hbuf] at hlt
    have htail := h.tail_modify (h.mem_of_acking hr) s.reader key
    rw [State.tail] at htail
    rw [htail] at hlt
    split at hlt
    · rename_i hkey
      subst hkey
      have hstart := (h.fromSeries (h.mem_of_acking hr)).start_le
      have hids : s.reader.ids = [entry.id] := by rw [hr]; rfl
      obtain ⟨hacked, hget⟩ := h.getElem_of_acking hr
      refine h.exists_published ?_ (hstart.trans hge) (by omega)
      rw [← hget]
      exact List.mem_take_iff_getElem.mpr
        ⟨s.acked.length, lt_min (h.ids_eq hids).2 hacked, rfl⟩
    · omega

end Inv

/-- **In order, once, and nothing lost unseen.**  In every run of a stream:
each batch is published with the snapshot it was made from; for each series the
published push indices increase strictly, each with the timestamp and value
pushed there; every index below `tail` was published or passed over by `Push`,
everything from `tail` on is what `GetSnapshot` returns; and every step that
moves `tail` over a sample either is a `Push` on a full ring that passes over
it, or finds it published. -/
theorem published_in_order_once {C : ℕ} (hC : 1 ≤ C) {as : List Action} {s : State}
    (hs : Run.exec step (init C) as = some s) (key : BufferKey) :
    (∀ batch ∈ s.published, ∃ e, s.origin batch = some e ∧
      batch = makeBatch e.key e.snapshot e.id) ∧
    ((s.publishedSamples key).map Prod.fst).Pairwise (· < ·) ∧
    (∀ i t v, (i, t, v) ∈ s.publishedSamples key →
      ∃ x, (s.pushed key)[i]? = some x ∧ t = x.timestampNs.toUInt64 ∧ v = x.value) ∧
    (∀ i < s.tail key, i ∈ s.overflowed key ∨ ∃ p ∈ s.publishedSamples key, p.1 = i) ∧
    (s.buffer.seriesFor key).getSnapshot
      = some ⟨(s.pushed key).drop (s.tail key), (s.pushed key).length⟩ ∧
    ∀ a t, step s a = some t → ∀ i, s.tail key ≤ i → i < t.tail key →
      PassesOver C s a key i ∨ ∃ p ∈ s.publishedSamples key, p.1 = i := by
  have h : Inv C s := inv_of_exec hC hs
  refine ⟨fun batch hbatch => ?_, h.publishedSamples_increasing key,
    fun i t v hmem => h.mem_publishedSamples hmem, fun i hi => ?_, (h.keeps key).getSnapshot_eq,
    fun a t ht i hge hlt => h.leaves ht hge hlt⟩
  · rw [h.published_eq] at hbatch
    obtain ⟨e, he, rfl⟩ := List.mem_map.mp hbatch
    exact ⟨e, h.origin_batch (List.mem_of_mem_take he), rfl⟩
  · refine (h.gone key i hi).imp_right ?_
    rintro ⟨e, he, rfl, hstart, hend⟩
    exact h.exists_published he hstart hend

/-- Two samples into a ring of one slot, and the batch of what is left. -/
def overrun : List Action :=
  [.addMetrics [{ type := 100, value := 1, timestamp := 1 },
      { type := 100, value := 2, timestamp := 2 }], .addMetric, .addMetric] ++
    List.replicate 10 .poll ++ [.server, .server]

theorem published_in_order_once_overrun :
    1 ≤ 1 ∧ ∃ s, Run.exec step (init 1) overrun = some s ∧ s.published.length = 1 ∧
      ((s.publishedSamples { metricType := 100 }).map Prod.fst).Pairwise (· < ·) := by
  have hrun : (Run.exec step (init 1) overrun).map (fun s => s.published.length) = some 1 := rfl
  obtain ⟨s, hs, hlen⟩ := Option.map_eq_some_iff.mp hrun
  exact ⟨le_refl 1, s, hs, hlen, (published_in_order_once (le_refl 1) hs _).2.1⟩

/-! ### Every ack finds its snapshot -/

theorem filter_eq_singleton {α β : Type*} [DecidableEq β] {f : α → β} {l : List α}
    (hl : (l.map f).Nodup) {a : α} (ha : a ∈ l) : l.filter (fun x => f x == f a) = [a] := by
  induction l with
  | nil => exact absurd ha List.not_mem_nil
  | cons b l ih =>
    rw [List.map_cons, List.nodup_cons] at hl
    obtain ⟨hb, hl⟩ := hl
    rcases List.mem_cons.mp ha with rfl | ha
    · have hnone : l.filter (fun x => f x == f a) = [] := by
        refine List.filter_eq_nil_iff.mpr fun x hx heq => hb ?_
        exact List.mem_map.mpr ⟨x, hx, beq_iff_eq.mp heq⟩
      rw [List.filter_cons_of_pos (by simp), hnone]
    · have hne : f b ≠ f a := fun heq => hb (heq ▸ List.mem_map_of_mem ha)
      rw [List.filter_cons_of_neg (by simpa using hne)]
      exact ih hl ha

namespace Inv

variable {C : ℕ} {s : State}

theorem le_id_of_mem_drop (h : Inv C s) {n : ℕ} {e : Entry} (he : e ∈ s.taken.drop n) :
    n ≤ e.id := by
  obtain ⟨i, hi, rfl⟩ := List.mem_iff_getElem.mp he
  rw [List.length_drop] at hi
  rw [List.getElem_drop, h.getElem_id (by omega)]
  exact Nat.le_add_right n i

theorem pending_ids_nodup (h : Inv C s) : (s.pendingSnapshots.map Entry.id).Nodup := by
  rw [h.pending, List.map_drop, h.taken_ids]
  exact List.nodup_range.sublist (List.drop_sublist _ _)

/-- What is not acked is still pending. -/
theorem mem_pending (h : Inv C s) {e : Entry} (he : e ∈ s.taken) (hid : e.id ∉ s.acked) :
    e ∈ s.pendingSnapshots := by
  rw [h.pending]
  rw [← List.take_append_drop s.acked.length s.taken, List.mem_append] at he
  refine he.resolve_left fun htake => hid ?_
  obtain ⟨i, hi, rfl⟩ := List.mem_take_iff_getElem.mp htake
  have hi' := Nat.lt_min.mp hi
  rw [h.getElem_id hi'.2, h.acked_eq.1]
  exact List.mem_range.mpr hi'.1

theorem mem_taken_of_enqueued (h : Inv C s) {batch : MetricBatch}
    (hb : batch ∈ s.writer.enqueued) : ∃ e ∈ s.taken, e.batch = batch := by
  refine List.mem_map.mp ?_
  rw [h.enqueued]
  exact List.mem_append_left _ hb

end Inv

/-- **Every ack finds its snapshot.**  In every run: a batch that was put on
the write queue and whose ack has not been processed has exactly one pending
entry, the one it was made from; no ack was for an unknown batch and no null
`GetBuffer` was dereferenced; the next ack to arrive finds an entry of its ID,
and the entry that an ack removes is that one, and the only one removed. -/
theorem ack_finds_snapshot {C : ℕ} (hC : 1 ≤ C) {as : List Action} {s : State}
    (hs : Run.exec step (init C) as = some s) :
    (∀ batch ∈ s.writer.enqueued, batch.id ∉ s.acked →
      ∃ e, s.origin batch = some e ∧ batch = makeBatch e.key e.snapshot e.id ∧
        s.pendingSnapshots.filter (fun f => f.id == batch.id) = [e]) ∧
    s.unknownAck = false ∧ s.nullDeref = false ∧
    (∀ ack acks t, s.reader = .reading → s.toAgent = ack :: acks → step s .read = some t →
      ∃ e ∈ s.pendingSnapshots, e.id = ack.batchId ∧ t.reader = .acking e) ∧
    ∀ id t, s.reader = .erasing id → step s .read = some t →
      ∃ e, e.id = id ∧ s.pendingSnapshots = e :: t.pendingSnapshots ∧
        ∀ f ∈ t.pendingSnapshots, f.id ≠ id := by
  have h : Inv C s := inv_of_exec hC hs
  refine ⟨fun batch hbatch hacked => ?_, h.no_unknownAck, h.no_nullDeref,
    fun ack acks t hr hack ht => ?_, fun id t hr ht => ?_⟩
  · obtain ⟨e, he, rfl⟩ := h.mem_taken_of_enqueued hbatch
    exact ⟨e, h.origin_batch he, rfl,
      filter_eq_singleton h.pending_ids_nodup (h.mem_pending he hacked)⟩
  · obtain ⟨e, hget, hid, hfind⟩ := h.find_batchId (by rw [hr]; rfl) hack
    have hkey := h.taken_keys e (List.mem_of_getElem? hget)
    refine ⟨e, List.mem_of_find?_eq_some hfind, hid, ?_⟩
    simp only [step, readStep, hr, hack] at ht
    split at ht
    · simp only [hfind, s.buffer.seriesFor_of_mem hkey, Option.some_inj] at ht
      rw [← ht]
    · exact absurd ht (by simp)
  · have hids : s.reader.ids = [id] := by rw [hr]; rfl
    obtain ⟨hid, hlt⟩ := h.ids_eq hids
    have htaken := hlt.trans_le h.published_le
    have hpending : t.pendingSnapshots = s.taken.drop (s.acked.length + 1) := by
      rw [← h.eraseP_eq hr]
      simp only [step, readStep, hr, Option.some_inj] at ht
      rw [← ht]
    refine ⟨s.taken[s.acked.length], (h.getElem_id htaken).trans hid.symm, ?_, fun f hf => ?_⟩
    · rw [hpending]
      exact h.pending_cons htaken
    · rw [hpending] at hf
      have hle := h.le_id_of_mem_drop hf
      omega

/-- The server acks the batch and the agent begins to read, and goes on. -/
theorem ack_finds_snapshot_overrun :
    1 ≤ 1 ∧ ∃ s t u v, Run.exec step (init 1) (overrun ++ [.server]) = some s ∧
      step s .read = some t ∧ step t .read = some u ∧ step u .read = some v ∧
      (∃ e ∈ s.pendingSnapshots, t.reader = .acking e) ∧
      (∃ e, u.pendingSnapshots = e :: v.pendingSnapshots) ∧
      v.acked = [0] ∧ v.unknownAck = false := by
  have hrun : (Run.exec step (init 1) (overrun ++ [.server])).bind (fun s =>
      (step s .read).bind fun t => (step t .read).bind fun u => (step u .read).map fun v =>
        (s.reader, s.toAgent, u.reader, v.acked))
      = some (.reading, [{ batchId := 0, samplesReceived := 1 }], .erasing 0, [0]) := rfl
  obtain ⟨s, hs, hrun⟩ := Option.bind_eq_some_iff.mp hrun
  obtain ⟨t, ht, hrun⟩ := Option.bind_eq_some_iff.mp hrun
  obtain ⟨u, hu, hrun⟩ := Option.bind_eq_some_iff.mp hrun
  obtain ⟨v, hv, heq⟩ := Option.map_eq_some_iff.mp hrun
  simp only [Prod.mk.injEq] at heq
  obtain ⟨hreader, hack, herasing, hacked⟩ := heq
  have hexec : Run.exec step (init 1) (overrun ++ [.server] ++ [.read, .read]) = some u :=
    Run.exec_append_eq_some.mpr ⟨s, hs, Run.exec_cons_eq_some.mpr ⟨t, ht,
      Run.exec_cons_eq_some.mpr ⟨u, hu, rfl⟩⟩⟩
  have hlast : Run.exec step (init 1) (overrun ++ [.server] ++ [.read, .read] ++ [.read])
      = some v :=
    Run.exec_append_eq_some.mpr ⟨u, hexec, Run.exec_cons_eq_some.mpr ⟨v, hv, rfl⟩⟩
  obtain ⟨e, he, -, hacking⟩ :=
    (ack_finds_snapshot (le_refl 1) hs).2.2.2.1 _ _ t hreader hack ht
  obtain ⟨f, -, hpending, -⟩ := (ack_finds_snapshot (le_refl 1) hexec).2.2.2.2 0 v herasing hv
  exact ⟨le_refl 1, s, t, u, v, hs, ht, hu, hv, ⟨e, he, hacking⟩, ⟨f, hpending⟩, hacked,
    (ack_finds_snapshot (le_refl 1) hlast).2.1⟩

/-! ### The write queues -/

/-- The two batches of one pass, the first just popped. -/
def betweenPopAndWrite : List Action :=
  [.addMetrics [{ type := 100, value := 1, timestamp := 1 },
      { type := 200, value := 2, timestamp := 2 }], .addMetric, .addMetric] ++
    List.replicate 15 .poll ++ [.writeCompletes true, .onWriteDonePop]

/-- While `OnWriteDone` has popped and not yet called `Write()`, nothing is
being written although a batch is queued and the poll thread is in no pass. -/
theorem not_always_writing :
    ¬ ∀ (C : ℕ) (as : List Action) (s : State), 1 ≤ C → Run.exec step (init C) as = some s →
      s.passPushed = false → s.writer.writing = false → s.writer.writerqu = [] := by
  intro hall
  have hrun : (Run.exec step (init 1) betweenPopAndWrite).map
      (fun s => (s.passPushed, s.writer.writing, s.writer.writerqu.length))
        = some (false, false, 1) := rfl
  obtain ⟨s, hs, heq⟩ := Option.map_eq_some_iff.mp hrun
  simp only [Prod.mk.injEq] at heq
  obtain ⟨hpass, hwriting, hlen⟩ := heq
  rw [hall 1 _ s (le_refl 1) hs hpass hwriting] at hlen
  exact absurd hlen (by simp)

/-- **No wakeup is lost.**  In every run of either reactor one message is
written at a time, the front of the queue, which stays until its write has
completed; messages are started in the order of the queue, each once; and
whenever no `Write()` is still to come, of a pass of the poll thread or of an
`OnWriteDone`, a message is being written or the queue is empty. -/
theorem writers_lose_no_wakeup :
    (∀ as r, Run.exec ConnectReactor.step ConnectReactor.init as = some r →
      r.writer.Sound r.completed ∧ (r.writer.writing = false → r.writer.writerqu = [])) ∧
    ∀ C as s, 1 ≤ C → Run.exec step (init C) as = some s →
      s.writer.Sound s.completed ∧
        (s.passPushed = false → s.rewriting = 0 → s.writer.writing = false →
          s.writer.writerqu = []) := by
  constructor
  · intro as r hr
    have h := ConnectReactor.inv_of_exec hr
    exact ⟨h.1.sound, h.2⟩
  · intro C as s hC hs
    have h : Inv C s := inv_of_exec hC hs
    exact ⟨h.ordered.sound, fun hpass hre hw => h.awake hw hre hpass⟩

theorem writers_lose_no_wakeup_overrun :
    (Run.exec ConnectReactor.step ConnectReactor.init [.writeCompletes true]).isSome ∧
      ∃ s, Run.exec step (init 1) overrun = some s ∧ s.writer.Sound s.completed := by
  have hrun : (Run.exec step (init 1) overrun).map (fun s => s.published.length) = some 1 := rfl
  obtain ⟨s, hs, -⟩ := Option.map_eq_some_iff.mp hrun
  exact ⟨rfl, s, hs, (writers_lose_no_wakeup.2 1 _ s (le_refl 1) hs).1⟩

end MetricsStream
end Volta
