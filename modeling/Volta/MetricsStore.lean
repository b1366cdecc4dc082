/-
The dashboard's live series (`stores/metrics-store.ts`).

* `window` — what the batches since the last reset make of the series, key by
  key: the last 600 of all pairs received;
* `ingest_window` — `ingest` extends the history by its batch;
* `series_are_windows` — so the store is the window after any calls, and how a
  batch was split does not matter.
-/
import Volta.MetricMeta
import Mathlib.Data.List.DropRight
import Mathlib.Logic.Function.Basic

namespace Volta

namespace Dashboard

def maxPoints : ℕ := 600

theorem maxPoints_pos : 0 < maxPoints := Nat.succ_pos 599

/-- Division of two `bigint`s; the quotient of a 64-bit number is a `number`
without rounding. -/
def nsToMs (ns : UInt64) : ℕ := ns.toNat / 1000000

/-- `last` is `NaN` when there is none. -/
structure LiveSeries where
  key : String
  type : MetricType
  category : MetricCategory
  label : String
  deviceLabel : Option String
  times : List ℕ
  values : List Double
  last : Option Double
  deriving DecidableEq

/-- `series` of the store. -/
abbrev SeriesRecord := String → Option LiveSeries

namespace SeriesRecord

def reset : SeriesRecord := fun _ => none

def ingest (series : SeriesRecord) (batch : MetricBatch) : SeriesRecord :=
  let count := min batch.timestampsNs.length batch.values.length
  match batch.header with
  | none => series
  | some header =>
      if count = 0 then series
      else
        let key := seriesKey header.metricType.toInt header.deviceId
        let prev := series key
        let times :=
          (prev.map LiveSeries.times).getD [] ++ (batch.timestampsNs.take count).map nsToMs
        let values := (prev.map LiveSeries.values).getD [] ++ batch.values.take count
        let overflow := times.length - maxPoints
        Function.update series key
          (some
            { key := key
              type := header.metricType
              category := (getMetricMeta header.metricType).category
              label := (getMetricMeta header.metricType).label
              deviceLabel := formatDeviceId header.deviceId
              times := times.drop overflow
              values := values.drop overflow
              last := (values.drop overflow).getLast? })

end SeriesRecord

/-! ### What the batches of a history hold -/

/-- The key of the series that a batch belongs to. -/
def batchKey (batch : MetricBatch) : Option String :=
  batch.header.map fun header => seriesKey header.metricType.toInt header.deviceId

/-- The pairs that a batch carries, with their times in milliseconds. -/
def pairs (batch : MetricBatch) : List (ℕ × Double) :=
  (batch.timestampsNs.zip batch.values).map fun p => (p.1.toNat / 1000000, p.2)

/-- All pairs received for a key, in order. -/
def received (key : String) (batches : List MetricBatch) : List (ℕ × Double) :=
  batches.flatMap fun batch => if batchKey batch = some key then pairs batch else []

/-- The batch brings something for the key. -/
def Feeds (key : String) (batch : MetricBatch) : Prop :=
  batchKey batch = some key ∧ pairs batch ≠ []

instance (key : String) : DecidablePred (Feeds key) := fun _ => inferInstanceAs (Decidable (_ ∧ _))

/-- The header of the last batch that fed the key. -/
def lastHeader (key : String) (batches : List MetricBatch) : Option BatchHeader :=
  (batches.filter fun batch => Feeds key batch).getLast?.bind MetricBatch.header

/-- The series that a history of batches makes. -/
def window (batches : List MetricBatch) : SeriesRecord := fun key =>
  (lastHeader key batches).map fun header =>
    { key := key
      type := header.metricType
      category := (getMetricMeta header.metricType).category
      label := (getMetricMeta header.metricType).label
      deviceLabel := formatDeviceId header.deviceId
      times := ((received key batches).rtake maxPoints).map Prod.fst
      values := ((received key batches).rtake maxPoints).map Prod.snd
      last := (received key batches).getLast?.map Prod.snd }

/-! ### One batch more -/

/-- Trimming after every append keeps what trimming once keeps. -/
theorem trim_append {α : Type*} (l m : List α) (n : ℕ) :
    (l.rtake n ++ m).drop ((l.rtake n ++ m).length - n) = (l ++ m).rtake n := by
  have hlen : (l.rtake n ++ m).length = l.length - (l.length - n) + m.length := by
    rw [List.length_append, List.rtake, List.length_drop]
  have htrim : l.rtake n ++ m = (l ++ m).drop (l.length - n) := by
    rw [List.rtake, List.drop_append_of_le_length (Nat.sub_le _ _)]
  have hsum : l.length - n + ((l.rtake n ++ m).length - n) = (l ++ m).length - n := by
    rw [hlen, List.length_append]
    omega
  show _ = (l ++ m).drop ((l ++ m).length - n)
  rw [← hsum, ← List.drop_drop, ← htrim]

theorem getLast?_rtake {α : Type*} (l : List α) {n : ℕ} (hn : 0 < n) :
    (l.rtake n).getLast? = l.getLast? := by
  rw [List.rtake, List.getLast?_drop]
  split
  · rename_i hle
    have hnil : l = [] := List.length_eq_zero_iff.mp (by omega)
    rw [hnil]
    rfl
  · rfl

theorem pairs_fst (batch : MetricBatch) :
    (pairs batch).map Prod.fst
      = (batch.timestampsNs.take (min batch.timestampsNs.length batch.values.length)).map
          nsToMs := by
  rw [pairs, List.map_map, List.zip_eq_zip_take_min]
  show List.map (nsToMs ∘ Prod.fst) _ = _
  rw [← List.map_map, List.map_fst_zip (by simp)]

theorem pairs_snd (batch : MetricBatch) :
    (pairs batch).map Prod.snd
      = batch.values.take (min batch.timestampsNs.length batch.values.length) := by
  rw [pairs, List.map_map, List.zip_eq_zip_take_min]
  show List.map Prod.snd _ = _
  rw [List.map_snd_zip (by simp)]

theorem pairs_eq_nil_iff (batch : MetricBatch) :
    pairs batch = [] ↔ min batch.timestampsNs.length batch.values.length = 0 := by
  rw [← List.length_eq_zero_iff, pairs, List.length_map, List.length_zip]

section Concat

variable {key : String} {batch : MetricBatch} (batches : List MetricBatch)

theorem received_concat :
    received key (batches ++ [batch])
      = received key batches ++ if batchKey batch = some key then pairs batch else [] := by
  rw [received, List.flatMap_append, List.flatMap_singleton]
  rfl

theorem received_of_not_feeds (h : ¬ Feeds key batch) :
    received key (batches ++ [batch]) = received key batches := by
  rw [received_concat]
  split
  · rename_i hkey
    have hnil : pairs batch = [] := by
      by_contra hne
      exact h ⟨hkey, hne⟩
    rw [hnil, List.append_nil]
  · exact List.append_nil _

theorem lastHeader_of_not_feeds (h : ¬ Feeds key batch) :
    lastHeader key (batches ++ [batch]) = lastHeader key batches := by
  rw [lastHeader, List.filter_append, List.filter_cons_of_neg (by simpa using h), List.filter_nil,
    List.append_nil]
  rfl

theorem lastHeader_of_feeds (h : Feeds key batch) :
    lastHeader key (batches ++ [batch]) = batch.header := by
  rw [lastHeader, List.filter_append, List.filter_cons_of_pos (by simpa using h), List.filter_nil,
    List.getLast?_concat]
  rfl

theorem window_of_not_feeds (h : ¬ Feeds key batch) :
    window (batches ++ [batch]) key = window batches key := by
  rw [window, window, lastHeader_of_not_feeds batches h, received_of_not_feeds batches h]

end Concat

/-- A key that no batch has fed has received nothing. -/
theorem received_eq_nil {key : String} {batches : List MetricBatch}
    (h : lastHeader key batches = none) : received key batches = [] := by
  induction batches using List.reverseRecOn with
  | nil => rfl
  | append_singleton batches batch ih =>
    by_cases hfeeds : Feeds key batch
    · rw [lastHeader_of_feeds batches hfeeds] at h
      have hkey := hfeeds.1
      rw [batchKey, h] at hkey
      exact absurd hkey (by simp)
    · rw [lastHeader_of_not_feeds batches hfeeds] at h
      rw [received_of_not_feeds batches hfeeds]
      exact ih h

/-- The arrays that `ingest` starts from. -/
theorem window_prev (batches : List MetricBatch) (key : String) :
    ((window batches key).map LiveSeries.times).getD []
        = ((received key batches).rtake maxPoints).map Prod.fst ∧
      ((window batches key).map LiveSeries.values).getD []
        = ((received key batches).rtake maxPoints).map Prod.snd := by
  rw [window]
  rcases h : lastHeader key batches with _ | header
  · simp [received_eq_nil h]
  · simp

theorem ingest_of_no_header {batch : MetricBatch} (h : batch.header = none)
    (series : SeriesRecord) : series.ingest batch = series := by
  simp only [SeriesRecord.ingest, h]

theorem ingest_of_no_pairs {batch : MetricBatch} (h : pairs batch = []) (series : SeriesRecord) :
    series.ingest batch = series := by
  rw [pairs_eq_nil_iff] at h
  rcases hheader : batch.header with _ | header
  · exact ingest_of_no_header hheader series
  · simp only [SeriesRecord.ingest, hheader, if_pos h]

/-- What `ingest` stores, with the pairs of the batch as one list. -/
theorem ingest_of_pairs {batch : MetricBatch} {header : BatchHeader} {key : String}
    (hheader : batch.header = some header)
    (hkey : key = seriesKey header.metricType.toInt header.deviceId) (h : pairs batch ≠ [])
    (series : SeriesRecord) :
    let times := ((series key).map LiveSeries.times).getD [] ++ (pairs batch).map Prod.fst
    let values := ((series key).map LiveSeries.values).getD [] ++ (pairs batch).map Prod.snd
    series.ingest batch = Function.update series key
      (some
        { key := key
          type := header.metricType
          category := (getMetricMeta header.metricType).category
          label := (getMetricMeta header.metricType).label
          deviceLabel := formatDeviceId header.deviceId
          times := times.drop (times.length - maxPoints)
          values := values.drop (times.length - maxPoints)
          last := (values.drop (times.length - maxPoints)).getLast? }) := by
  rw [ne_eq, pairs_eq_nil_iff] at h
  simp only [SeriesRecord.ingest, hheader, if_neg h, pairs_fst, pairs_snd, hkey]

theorem window_of_feeds {key : String} {batch : MetricBatch} {header : BatchHeader}
    (batches : List MetricBatch) (h : Feeds key batch) (hheader : batch.header = some header) :
    window (batches ++ [batch]) key = some
      { key := key
        type := header.metricType
        category := (getMetricMeta header.metricType).category
        label := (getMetricMeta header.metricType).label
        deviceLabel := formatDeviceId header.deviceId
        times := ((received key batches ++ pairs batch).rtake maxPoints).map Prod.fst
        values := ((received key batches ++ pairs batch).rtake maxPoints).map Prod.snd
        last := (received key batches ++ pairs batch).getLast?.map Prod.snd } := by
  rw [window, lastHeader_of_feeds batches h, hheader, received_concat, if_pos h.1]
  rfl

/-- **`ingest` extends the history by its batch.** -/
theorem ingest_window (batches : List MetricBatch) (batch : MetricBatch) :
    SeriesRecord.ingest (window batches) batch = window (batches ++ [batch]) := by
  rcases hheader : batch.header with _ | header
  · rw [ingest_of_no_header hheader]
    funext key
    refine (window_of_not_feeds batches fun h => ?_).symm
    have hkey := h.1
    rw [batchKey, hheader] at hkey
    exact absurd hkey (by simp)
  by_cases hpairs : pairs batch = []
  · rw [ingest_of_no_pairs hpairs]
    funext key
    exact (window_of_not_feeds batches fun h => h.2 hpairs).symm
  have hbatchKey : batchKey batch = some (seriesKey header.metricType.toInt header.deviceId) := by
    rw [batchKey, hheader]
    rfl
  rw [ingest_of_pairs hheader rfl hpairs]
  funext key
  by_cases hkey : key = seriesKey header.metricType.toInt header.deviceId
  · rw [← hkey, Function.update_self, window_of_feeds batches ⟨hkey ▸ hbatchKey, hpairs⟩ hheader]
    obtain ⟨htimes, hvalues⟩ := window_prev batches key
    rw [htimes, hvalues, ← List.map_append, ← List.map_append, List.length_map, ← List.map_drop,
      ← List.map_drop, trim_append, List.getLast?_map, getLast?_rtake _ maxPoints_pos]
  · rw [Function.update_of_ne hkey, window_of_not_feeds batches fun h =>
      hkey (Option.some_inj.mp (h.1.symm.trans hbatchKey))]

/-! ### Whole histories -/

inductive StoreCall where
  | ingest (batch : MetricBatch)
  | reset

def SeriesRecord.call (series : SeriesRecord) : StoreCall → SeriesRecord
  | .ingest batch => series.ingest batch
  | .reset => SeriesRecord.reset

/-- The store after the calls, the first of them on a new store. -/
def storeAfter (calls : List StoreCall) : SeriesRecord :=
  calls.foldl SeriesRecord.call SeriesRecord.reset

/-- The batches ingested since the last `reset`. -/
def sinceReset (calls : List StoreCall) : List MetricBatch :=
  calls.foldl
    (fun batches call =>
      match call with
      | .ingest batch => batches ++ [batch]
      | .reset => [])
    []

theorem storeAfter_eq_window (calls : List StoreCall) :
    storeAfter calls = window (sinceReset calls) := by
  induction calls using List.reverseRecOn with
  | nil => rfl
  | append_singleton calls call ih =>
    rw [storeAfter, sinceReset, List.foldl_append, List.foldl_append, ← storeAfter, ← sinceReset,
      ih]
    cases call with
    | ingest batch => exact ingest_window (sinceReset calls) batch
    | reset => rfl

theorem ingestAll_window (batches bs : List MetricBatch) :
    bs.foldl SeriesRecord.ingest (window batches) = window (batches ++ bs) := by
  induction bs generalizing batches with
  | nil => rw [List.append_nil]; rfl
  | cons b bs ih => rw [List.foldl_cons, ingest_window, ih, List.append_assoc]; rfl

theorem window_ne_none_iff (batches : List MetricBatch) (key : String) :
    window batches key ≠ none ↔ ∃ batch ∈ batches, Feeds key batch := by
  induction batches using List.reverseRecOn with
  | nil => simp [window, lastHeader]
  | append_singleton batches batch ih =>
    by_cases hfeeds : Feeds key batch
    · refine iff_of_true ?_ ⟨batch, List.mem_concat_self, hfeeds⟩
      rcases hheader : batch.header with _ | header
      · have hkey := hfeeds.1
        rw [batchKey, hheader] at hkey
        exact absurd hkey (by simp)
      · rw [window_of_feeds batches hfeeds hheader]
        simp
    · rw [window_of_not_feeds batches hfeeds, ih]
      constructor
      · rintro ⟨b, hb, hf⟩
        exact ⟨b, List.mem_append_left _ hb, hf⟩
      · rintro ⟨b, hb, hf⟩
        rcases List.mem_append.mp hb with hb | hb
        · exact ⟨b, hb, hf⟩
        · exact absurd (List.mem_singleton.mp hb ▸ hf) hfeeds

/-- Batches that feed one series are of one type and one device. -/
theorem Feeds.same_source {key : String} {b b' : MetricBatch} {header header' : BatchHeader}
    (h : Feeds key b) (h' : Feeds key b') (hheader : b.header = some header)
    (hheader' : b'.header = some header') :
    header.metricType = header'.metricType ∧
      header.deviceId.bind DeviceID.device = header'.deviceId.bind DeviceID.device := by
  have hkeys := h.1.trans h'.1.symm
  rw [batchKey, batchKey, hheader, hheader', Option.map_some, Option.map_some,
    Option.some_inj] at hkeys
  obtain ⟨htype, hdevice⟩ := seriesKey_injective hkeys
  exact ⟨Int32.toInt_inj.mp htype, hdevice⟩

/-! ### Batches in parts -/

section SameHeader

variable {header : Option BatchHeader} {bs : List MetricBatch} (batches : List MetricBatch)
  (key : String)

/-- The key that batches with this header belong to. -/
def headerKey (header : Option BatchHeader) : Option String :=
  header.map fun header => seriesKey header.metricType.toInt header.deviceId

theorem received_append (h : ∀ b ∈ bs, b.header = header) :
    received key (batches ++ bs)
      = received key batches ++ if headerKey header = some key then bs.flatMap pairs else [] := by
  induction bs using List.reverseRecOn with
  | nil => simp
  | append_singleton bs b ih =>
    obtain ⟨hbs, hb⟩ := List.forall_mem_append.mp h
    have hkey : batchKey b = headerKey header := congrArg headerKey (hb b List.mem_cons_self)
    rw [← List.append_assoc, received_concat, ih hbs, hkey, List.flatMap_append,
      List.flatMap_singleton, List.append_assoc]
    split
    · rfl
    · rfl

theorem lastHeader_append (h : ∀ b ∈ bs, b.header = header) :
    lastHeader key (batches ++ bs)
      = if headerKey header = some key ∧ bs.flatMap pairs ≠ [] then header
        else lastHeader key batches := by
  induction bs using List.reverseRecOn with
  | nil => simp
  | append_singleton bs b ih =>
    obtain ⟨hbs, hb⟩ := List.forall_mem_append.mp h
    have hheader : b.header = header := hb b List.mem_cons_self
    have hkey : batchKey b = headerKey header := congrArg headerKey hheader
    rw [← List.append_assoc, List.flatMap_append, List.flatMap_singleton]
    by_cases hfeeds : Feeds key b
    · rw [lastHeader_of_feeds _ hfeeds, hheader, if_pos]
      exact ⟨hkey ▸ hfeeds.1, fun hnil => hfeeds.2 (List.append_eq_nil_iff.mp hnil).2⟩
    · rw [lastHeader_of_not_feeds _ hfeeds, ih hbs]
      refine if_congr (and_congr_right fun hk => not_congr ?_) rfl rfl
      have hnil : pairs b = [] := by
        by_contra hne
        exact hfeeds ⟨hkey.trans hk, hne⟩
      rw [hnil, List.append_nil]

end SameHeader

/-- `bs` is the batch in parts: one header, and the pairs one after another. -/
def Splits (batch : MetricBatch) (bs : List MetricBatch) : Prop :=
  (∀ b ∈ bs, b.header = batch.header) ∧ bs.flatMap pairs = pairs batch

theorem window_append_of_splits {batch : MetricBatch} {bs : List MetricBatch}
    (h : Splits batch bs) (batches : List MetricBatch) :
    window (batches ++ bs) = window (batches ++ [batch]) := by
  have hsingle : ∀ b ∈ [batch], b.header = batch.header := fun b hb => by
    rw [List.mem_singleton.mp hb]
  have hpairs : [batch].flatMap pairs = bs.flatMap pairs := by
    rw [List.flatMap_singleton, h.2]
  funext key
  rw [window, window, received_append batches key h.1, received_append batches key hsingle,
    lastHeader_append batches key h.1, lastHeader_append batches key hsingle, hpairs]

section Window

variable {batches : List MetricBatch} {key : String} {s : LiveSeries}

theorem window_times (hs : window batches key = some s) :
    s.times = ((received key batches).rtake maxPoints).map Prod.fst := by
  obtain ⟨header, -, rfl⟩ := Option.map_eq_some_iff.mp hs
  dsimp only

theorem window_values (hs : window batches key = some s) :
    s.values = ((received key batches).rtake maxPoints).map Prod.snd := by
  obtain ⟨header, -, rfl⟩ := Option.map_eq_some_iff.mp hs
  dsimp only

theorem window_lengths (hs : window batches key = some s) : s.times.length = s.values.length := by
  rw [window_times hs, window_values hs, List.length_map, List.length_map]

theorem window_pairs (hs : window batches key = some s) :
    s.times.zip s.values = (received key batches).rtake maxPoints := by
  rw [window_times hs, window_values hs]
  exact (List.zip_of_prod rfl rfl).symm

theorem length_rtake {α : Type*} (l : List α) (n : ℕ) : (l.rtake n).length = min n l.length := by
  rw [List.rtake, List.length_drop]
  omega

theorem window_size (hs : window batches key = some s) :
    s.times.length = min maxPoints (received key batches).length := by
  rw [window_times hs, List.length_map, length_rtake]

theorem received_ne_nil (h : ∃ batch ∈ batches, Feeds key batch) : received key batches ≠ [] := by
  obtain ⟨batch, hmem, hkey, hpairs⟩ := h
  intro hnil
  have hbatch := List.flatMap_eq_nil_iff.mp hnil batch hmem
  rw [if_pos hkey] at hbatch
  exact hpairs hbatch

theorem window_last (hs : window batches key = some s) :
    ∃ p, (received key batches).getLast? = some p ∧ s.last = some p.2 := by
  have hne : received key batches ≠ [] :=
    received_ne_nil ((window_ne_none_iff batches key).mp (by rw [hs]; simp))
  obtain ⟨header, -, rfl⟩ := Option.map_eq_some_iff.mp hs
  refine ⟨(received key batches).getLast hne, List.getLast?_eq_some_getLast hne, ?_⟩
  show Option.map Prod.snd _ = _
  rw [List.getLast?_eq_some_getLast hne]
  rfl

end Window

/-- **The live window is the tail of the received stream.** -/
theorem series_are_windows (calls : List StoreCall) :
    let series := storeAfter calls
    let batches := sinceReset calls
    (∀ key, series key ≠ none ↔
      ∃ batch ∈ batches, batchKey batch = some key ∧ pairs batch ≠ []) ∧
    (∀ key s, series key = some s →
      s.times.length = s.values.length ∧
      s.times.zip s.values = (received key batches).rtake maxPoints ∧
      s.times.length = min maxPoints (received key batches).length ∧
      ∃ p, (received key batches).getLast? = some p ∧ s.last = some p.2) ∧
    (∀ batch key, batchKey batch ≠ some key → series.ingest batch key = series key) ∧
    ∀ batch bs, Splits batch bs → bs.foldl SeriesRecord.ingest series = series.ingest batch := by
  intro series batches
  have hseries : series = window batches := storeAfter_eq_window calls
  refine ⟨fun key => ?_, fun key s hs => ?_, fun batch key hkey => ?_, fun batch bs hsplit => ?_⟩
  · rw [hseries]
    exact window_ne_none_iff batches key
  · rw [hseries] at hs
    exact ⟨window_lengths hs, window_pairs hs, window_size hs, window_last hs⟩
  · rw [hseries, ingest_window]
    exact window_of_not_feeds batches fun h => hkey h.1
  · rw [hseries, ingestAll_window, ingest_window]
    exact window_append_of_splits hsplit batches

/-- The third timestamp has no value; a frame without a header changes nothing. -/
example :
    let batch : MetricBatch :=
      { header := some { metricType := 103, deviceId := some { device := some (.cpu ⟨0, 3⟩) } }
        timestampsNs := [1000000, 2999999, 3000000], values := [10, 20] }
    (storeAfter [.ingest { batch with header := none }, .ingest batch] "103::CPU 0:3").map
        (fun s => (s.times, s.values, s.last, s.deviceLabel))
      = some ([1, 2], [10, 20], some 20, some "CPU 0:3") := by
  decide

end Dashboard
end Volta
