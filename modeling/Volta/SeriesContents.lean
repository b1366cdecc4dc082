/-
What the agent's buffer holds after any sequence of `AddMetrics` calls.

The calls as a whole are one list of metrics; a series holds the samples of the
metrics of its key, the keys are listed as they first appear.

* `Contains` — the buffer to which a list of metrics has been added, every
  series being the log of the samples of its key;
* `Contains.latestSamples` — one entry per key, the last of its samples;
* `addMetricsCalls_contents` — the readers of the buffer after any calls, and
  that only the concatenation of the calls matters.
-/
import Volta.Grouping
import Volta.MetricsBuffer
import Mathlib.Data.List.DropRight

namespace Volta

def Metric.toSample (metric : Metric) : Sample :=
  { timestampNs := metric.timestamp, value := metric.value }

/-- The metrics that `AddMetric` does not ignore. -/
def specified (metrics : List Metric) : List Metric :=
  metrics.filter fun metric => metric.type ≠ metricTypeUnspecified

/-- The samples of the metrics of one key, in order. -/
def samplesOf (key : BufferKey) (metrics : List Metric) : List Sample :=
  (Grouping.group makeBufferKey key metrics).map Metric.toSample

theorem samplesOf_concat (key : BufferKey) (metrics : List Metric) (metric : Metric) :
    samplesOf key (metrics ++ [metric])
      = if makeBufferKey metric = key then samplesOf key metrics ++ [metric.toSample]
        else samplesOf key metrics := by
  rw [samplesOf, Grouping.group_concat]
  split
  · rw [List.map_append]
    rfl
  · rfl

theorem samplesOf_ne_nil_iff {key : BufferKey} {metrics : List Metric} :
    samplesOf key metrics ≠ [] ↔ key ∈ Grouping.keys makeBufferKey metrics := by
  rw [← Grouping.group_ne_nil_iff, samplesOf, ne_eq, List.map_eq_nil_iff]

namespace MetricsBuffer

/-- `order` is the order in which the loop visits the hash map, which the
standard leaves open. -/
def latestSamples (m : MetricsBuffer) (order : List BufferKey) : List (BufferKey × Sample) :=
  order.filterMap fun key => ((m.getBuffer key).bind SeriesBuffer.latest).map fun x => (key, x)

/-- A sequence of `AddMetrics` calls on a new buffer. -/
def addMetricsCalls (capacity : ℕ) (calls : List (List Metric)) : MetricsBuffer :=
  calls.foldl addMetrics (ofCapacity capacity)

theorem addMetricsCalls_eq (capacity : ℕ) (calls : List (List Metric)) :
    addMetricsCalls capacity calls = addMetrics (ofCapacity capacity) calls.flatten := by
  rw [addMetrics, List.foldl_flatten]
  rfl

theorem getAllKeys_addSample (m : MetricsBuffer) (key : BufferKey) (x : Sample) :
    (m.addSample key x).getAllKeys
      = if key ∈ m.getAllKeys then m.getAllKeys else m.getAllKeys ++ [key] := by
  rw [addSample]
  split
  · rename_i h
    rw [if_pos (show key ∈ m.getAllKeys from h)]
    rfl
  · rename_i h
    rw [if_neg (show key ∉ m.getAllKeys from h)]
    rfl

/-- The metrics `ms` have been added to `m`, and nothing acknowledged. -/
structure Contains (capacity : ℕ) (m : MetricsBuffer) (ms : List Metric) : Prop where
  capacity_eq : m.capacityPerSeries = capacity
  keys_eq : m.getAllKeys = Grouping.keys makeBufferKey ms
  represents : ∀ key, SeriesBuffer.Represents (m.seriesFor key)
    { capacity := capacity, xs := samplesOf key ms }

theorem getBuffer_ne_none_iff (m : MetricsBuffer) (key : BufferKey) :
    m.getBuffer key ≠ none ↔ key ∈ m.getAllKeys := by
  rw [mem_getAllKeys_iff, ← Option.ne_none_iff_exists']

theorem contains_ofCapacity {capacity : ℕ} (h : 0 < capacity) :
    Contains capacity (ofCapacity capacity) [] where
  capacity_eq := rfl
  keys_eq := rfl
  represents key := by
    refine ⟨SeriesBuffer.keeps_ofCapacity h, rfl, ?_⟩
    show 0 = max 0 (0 - capacity)
    omega

namespace Contains

variable {capacity : ℕ} {m : MetricsBuffer} {ms : List Metric}

theorem addMetric (h : Contains capacity m ms) {metric : Metric}
    (htype : metric.type ≠ metricTypeUnspecified) :
    Contains capacity (m.addMetric metric) (ms ++ [metric]) := by
  rw [MetricsBuffer.addMetric, if_neg htype]
  refine ⟨?_, ?_, fun key => ?_⟩
  · rw [capacityPerSeries_addSample, h.capacity_eq]
  · rw [getAllKeys_addSample, h.keys_eq, Grouping.keys_concat]
  · rw [seriesFor_addSample, samplesOf_concat]
    by_cases hkey : key = makeBufferKey metric
    · rw [if_pos hkey, if_pos hkey.symm, ← hkey]
      exact (h.represents key).push _
    · rw [if_neg hkey, if_neg (Ne.symm hkey)]
      exact h.represents key

theorem addMetrics (h : Contains capacity m ms) (metrics : List Metric) :
    Contains capacity (m.addMetrics metrics) (ms ++ specified metrics) := by
  induction metrics generalizing m ms with
  | nil =>
    rw [specified, List.filter_nil, List.append_nil]
    exact h
  | cons metric metrics ih =>
    show Contains capacity ((m.addMetric metric).addMetrics metrics) _
    by_cases htype : metric.type = metricTypeUnspecified
    · rw [MetricsBuffer.addMetric, if_pos htype, specified,
        List.filter_cons_of_neg (by simpa using htype)]
      exact ih h
    · rw [specified, List.filter_cons_of_pos (by simpa using htype), List.append_cons]
      exact ih (h.addMetric htype)

theorem represents_of_getBuffer (h : Contains capacity m ms) {key : BufferKey} {b : SeriesBuffer}
    (hb : m.getBuffer key = some b) :
    SeriesBuffer.Represents b { capacity := capacity, xs := samplesOf key ms } := by
  have hr := h.represents key
  rwa [seriesFor, hb] at hr

theorem getSnapshot (h : Contains capacity m ms) {key : BufferKey} {b : SeriesBuffer}
    (hb : m.getBuffer key = some b) :
    b.getSnapshot
      = some ⟨(samplesOf key ms).rtake capacity, (samplesOf key ms).length⟩ := by
  have hr := h.represents_of_getBuffer hb
  rw [hr.keeps.getSnapshot_eq, hr.tail_eq, Nat.zero_max, List.rtake]

theorem latest (h : Contains capacity m ms) {key : BufferKey} {b : SeriesBuffer}
    (hb : m.getBuffer key = some b) : b.latest = (samplesOf key ms).getLast? :=
  (h.represents_of_getBuffer hb).keeps.latest_eq

/-- A listed series is never empty, so the loop skips none. -/
theorem exists_latest (h : Contains capacity m ms) {key : BufferKey} (hkey : key ∈ m.getAllKeys) :
    ∃ x, (m.getBuffer key).bind SeriesBuffer.latest = some x ∧
      (samplesOf key ms).getLast? = some x := by
  obtain ⟨b, hb⟩ := (m.mem_getAllKeys_iff key).mp hkey
  have hne : samplesOf key ms ≠ [] := by
    rw [samplesOf_ne_nil_iff, ← h.keys_eq]
    exact hkey
  refine ⟨(samplesOf key ms).getLast hne, ?_, List.getLast?_eq_some_getLast hne⟩
  rw [hb, Option.bind_some, h.latest hb, List.getLast?_eq_some_getLast hne]

theorem latestSamples (h : Contains capacity m ms) {order : List BufferKey}
    (horder : ∀ key ∈ order, key ∈ m.getAllKeys) :
    (m.latestSamples order).map Prod.fst = order ∧
      ∀ entry ∈ m.latestSamples order, (samplesOf entry.1 ms).getLast? = some entry.2 := by
  induction order with
  | nil => exact ⟨rfl, fun _ hmem => absurd hmem List.not_mem_nil⟩
  | cons key order ih =>
    obtain ⟨x, hx, hlast⟩ := h.exists_latest (horder key List.mem_cons_self)
    obtain ⟨hfst, hall⟩ := ih fun k hk => horder k (List.mem_cons_of_mem key hk)
    have hcons : m.latestSamples (key :: order) = (key, x) :: m.latestSamples order := by
      rw [MetricsBuffer.latestSamples, List.filterMap_cons_some (b := (key, x)) (by rw [hx]; rfl)]
      rfl
    rw [hcons]
    refine ⟨by rw [List.map_cons, hfst], fun entry hmem => ?_⟩
    rcases List.mem_cons.mp hmem with rfl | hmem
    · exact hlast
    · exact hall entry hmem

end Contains

theorem contains_addMetricsCalls {capacity : ℕ} (hcap : 0 < capacity)
    (calls : List (List Metric)) :
    Contains capacity (addMetricsCalls capacity calls) (specified calls.flatten) := by
  rw [addMetricsCalls_eq]
  exact (contains_ofCapacity hcap).addMetrics calls.flatten

/-- **The buffer keeps each series apart and complete.** -/
theorem addMetricsCalls_contents {capacity : ℕ} (hcap : 1 ≤ capacity)
    (calls : List (List Metric)) :
    let m := addMetricsCalls capacity calls
    let ms := specified calls.flatten
    m.getAllKeys = (ms.map makeBufferKey).eraseDups ∧ m.getAllKeys.Nodup ∧
    (∀ key, m.getBuffer key ≠ none ↔ key ∈ m.getAllKeys) ∧
    (∀ key b, m.getBuffer key = some b → b.getSnapshot
      = some ⟨(samplesOf key ms).rtake capacity, (samplesOf key ms).length⟩) ∧
    (∀ order : List BufferKey, order.Perm m.getAllKeys →
      (m.latestSamples order).map Prod.fst = order ∧
      ∀ entry ∈ m.latestSamples order, (samplesOf entry.1 ms).getLast? = some entry.2) ∧
    ∀ calls' : List (List Metric), calls'.flatten = calls.flatten →
      addMetricsCalls capacity calls' = m := by
  intro m ms
  have h : Contains capacity m ms := contains_addMetricsCalls hcap calls
  refine ⟨h.keys_eq, m.keys_nodup, m.getBuffer_ne_none_iff,
    fun key b hb => h.getSnapshot hb, ?_, ?_⟩
  · intro order horder
    exact h.latestSamples fun key hkey => horder.mem_iff.mp hkey
  · intro calls' hflat
    rw [addMetricsCalls_eq, hflat, ← addMetricsCalls_eq]

/-- Two series, one of them overrun, visited in reverse order. -/
theorem addMetricsCalls_contents_two :
    let calls : List (List Metric) :=
      [[⟨100, none, 1, 1⟩, ⟨200, none, 7, 1⟩, ⟨0, none, 9, 1⟩], [⟨100, none, 2, 2⟩],
        [⟨100, none, 3, 3⟩]]
    let m := addMetricsCalls 2 calls
    1 ≤ 2 ∧ m.getAllKeys = [{ metricType := 100 }, { metricType := 200 }] ∧
    (∀ b, m.getBuffer { metricType := 100 } = some b →
      b.getSnapshot = some ⟨[⟨2, 2⟩, ⟨3, 3⟩], 3⟩) ∧
    (m.latestSamples m.getAllKeys.reverse).map Prod.fst = m.getAllKeys.reverse := by
  intro calls m
  obtain ⟨hkeys, -, -, hsnap, hlatest, -⟩ := addMetricsCalls_contents (by decide : 1 ≤ 2) calls
  exact ⟨by decide, hkeys.trans (by decide), fun b hb => (hsnap _ b hb).trans (by decide),
    (hlatest _ (List.reverse_perm _)).1⟩

end MetricsBuffer
end Volta
