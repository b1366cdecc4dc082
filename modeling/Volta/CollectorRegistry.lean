/-
The registry of the collectors (`collector.h`) and the calls of the scheduler.

* `resolve_eq` — which collectors are in use, and for which types;
* `Filtered` — a call stores requested types only, those of its collector, each
  at most once;
* `filtered_collect` — the four collectors do so;
* `Scheduled` — what `resolve` leaves and no call changes;
* `onlyRequested` — from the configuration file to what is collected.
-/
import Volta.NvmlCollector
import Volta.ProcStatCollector
import Volta.RamCollector
import Volta.RaplCollector
import Volta.RequestedMetrics
import Volta.Run

namespace Volta

inductive Collector where
  | rapl (c : RaplCollector)
  | procStat (c : ProcStatCollector)
  | ram (c : RamCollector)
  | nvml (c : NvmlCollector)

/-- What the machine answers during a call. -/
structure Machine where
  /-- The number of msr files that can be opened. -/
  msrFiles : ℕ
  msr : Msr
  cpuLine : Option CpuLine
  meminfo : List MeminfoLine
  pciInfo : Option NvmlPciInfo
  nvml : NvmlReading
  now : Int64

namespace Collector

def requestedMetrics : Collector → List MetricType
  | rapl c => c.requestedMetrics
  | procStat c => c.requestedMetrics
  | ram c => c.requestedMetrics
  | nvml c => c.requestedMetrics

def satisfiable : Collector → List MetricType
  | rapl _ => RaplCollector.satisfiable
  | procStat _ => ProcStatCollector.satisfiable
  | ram _ => RamCollector.satisfiable
  | nvml _ => NvmlCollector.satisfiable

def setRequestedMetrics (metrics : List MetricType) : Collector → Collector
  | rapl c => rapl { c with requestedMetrics := metrics }
  | procStat c => procStat { c with requestedMetrics := metrics }
  | ram c => ram { c with requestedMetrics := metrics }
  | nvml c => nvml { c with requestedMetrics := metrics }

/-- The result is ignored by the scheduler. -/
def init (m : Machine) : Collector → Collector
  | rapl c => rapl (c.init m.msrFiles m.msr).2
  | procStat c => procStat c.init.2
  | ram c => ram c.init.2
  | nvml c => nvml (c.init m.pciInfo).2

def collect (m : Machine) : Collector → List Metric × Collector
  | rapl c => ((c.collect m.msr m.now).1, rapl (c.collect m.msr m.now).2)
  | procStat c => ((c.collect m.cpuLine m.now).1, procStat (c.collect m.cpuLine m.now).2)
  | ram c => (c.collect m.meminfo m.now, ram c)
  | nvml c => (c.collect m.nvml m.now, nvml c)

end Collector

namespace CollectorRegistry

/-- The types of a collector that are desired. -/
def active (desired : List MetricType) (collector : Collector) : List MetricType :=
  collector.satisfiable.filter fun type => type ∈ desired

/-- An entry is a collector and what its `IsSupported` returns. -/
def resolve (desired : List MetricType) : List (Collector × Bool) → List Collector
  | [] => []
  | (collector, supported) :: entries =>
      if !supported then resolve desired entries
      else if !(active desired collector).isEmpty then
        collector.setRequestedMetrics (active desired collector) :: resolve desired entries
      else resolve desired entries

/-- A supported collector that can satisfy a desired type. -/
def Selected (desired : List MetricType) (entry : Collector × Bool) : Prop :=
  entry.2 = true ∧ ∃ type ∈ desired, type ∈ entry.1.satisfiable

instance (desired : List MetricType) (entry : Collector × Bool) :
    Decidable (Selected desired entry) :=
  inferInstanceAs (Decidable (_ ∧ ∃ type ∈ desired, type ∈ entry.1.satisfiable))

/-- The metrics of one call. -/
structure Filtered (requested satisfiable : List MetricType) (metrics : List Metric) : Prop where
  mem_requested : ∀ m ∈ metrics, m.type ∈ requested
  mem_satisfiable : ∀ m ∈ metrics, m.type ∈ satisfiable
  nodup : (metrics.map Metric.type).Nodup

/-- The collectors in use, and what each call of `Collect` returned. -/
structure Collection where
  collectors : List Collector
  batches : List (Collector × List Metric) := []

/-- A call of the scheduler, on the collector at a position. -/
inductive Call where
  | init (i : ℕ) (m : Machine)
  | collect (i : ℕ) (m : Machine)

def Collection.step (s : Collection) : Call → Option Collection
  | .init i m =>
      s.collectors[i]?.map fun c => { s with collectors := s.collectors.set i (c.init m) }
  | .collect i m =>
      s.collectors[i]?.map fun c =>
        { collectors := s.collectors.set i (c.collect m).2
          batches := s.batches ++ [(c, (c.collect m).1)] }

theorem mem_active_iff {desired : List MetricType} {collector : Collector} {type : MetricType} :
    type ∈ active desired collector ↔ type ∈ collector.satisfiable ∧ type ∈ desired := by
  rw [active, List.mem_filter, decide_eq_true_iff]

theorem active_ne_nil_iff {desired : List MetricType} {collector : Collector} :
    active desired collector ≠ [] ↔ ∃ type ∈ desired, type ∈ collector.satisfiable := by
  constructor
  · intro hne
    obtain ⟨type, hmem⟩ := List.exists_mem_of_ne_nil _ hne
    exact ⟨type, (mem_active_iff.mp hmem).2, (mem_active_iff.mp hmem).1⟩
  · rintro ⟨type, hmem, hsat⟩
    exact List.ne_nil_of_mem (mem_active_iff.mpr ⟨hsat, hmem⟩)

/-- The selected collectors, in the order of their registration. -/
theorem resolve_eq (desired : List MetricType) (entries : List (Collector × Bool)) :
    resolve desired entries = (entries.filter fun entry => Selected desired entry).map
      fun entry => entry.1.setRequestedMetrics (active desired entry.1) := by
  induction entries with
  | nil => rfl
  | cons entry entries ih =>
    obtain ⟨collector, supported⟩ := entry
    rw [resolve, ih]
    by_cases hselected : Selected desired (collector, supported)
    · obtain ⟨rfl, hdesired⟩ := id hselected
      have hne : (active desired collector).isEmpty = false := by
        rw [List.isEmpty_eq_false_iff]
        exact active_ne_nil_iff.mpr hdesired
      rw [List.filter_cons_of_pos (by simpa using hselected), hne]
      rfl
    · rw [List.filter_cons_of_neg (by simpa using hselected)]
      by_cases hsupported : supported = true
      · have hnil : active desired collector = [] := by
          by_contra hne
          exact hselected ⟨hsupported, active_ne_nil_iff.mp hne⟩
        rw [hnil, hsupported]
        rfl
      · rw [if_pos (by simpa using hsupported)]

/-! ### One call -/

section Call

variable {requested satisfiable : List MetricType} {metrics : List Metric}

theorem filtered_nil (requested satisfiable : List MetricType) :
    Filtered requested satisfiable [] where
  mem_requested _ hm := absurd hm List.not_mem_nil
  mem_satisfiable _ hm := absurd hm List.not_mem_nil
  nodup := List.nodup_nil

theorem filtered_singleton {type : MetricType} {m : Metric} (h : m.type = type)
    (hreq : type ∈ requested) : Filtered requested [type] [m] := by
  subst h
  refine ⟨List.forall_mem_singleton.mpr hreq, List.forall_mem_singleton.mpr ?_, ?_⟩
  · exact List.mem_singleton_self _
  · exact List.nodup_singleton _

/-- A metric that is stored if it is requested and its read succeeds. -/
theorem filtered_map {α : Type*} {type : MetricType} {metric : α → Metric}
    (h : ∀ a, (metric a).type = type) (read : Option α) :
    Filtered requested [type]
      (if requested.contains type then (read.map metric).toList else []) := by
  split
  · rename_i hreq
    cases read with
    | none => exact filtered_nil _ _
    | some a =>
      exact filtered_singleton (h a) (List.contains_iff_mem.mp hreq)
  · exact filtered_nil _ _

theorem filtered_push {type : MetricType} {m : Metric} (h : m.type = type) :
    Filtered requested [type] (if requested.contains type then [m] else []) :=
  filtered_map (fun _ => h) (some ())

/-- What a read that can fail gives rise to, if it is made. -/
theorem filtered_read {α : Type*} {f : α → List Metric}
    (h : ∀ a, Filtered requested satisfiable (f a)) (needed : Bool) (read : Option α) :
    Filtered requested satisfiable (if needed = true then read.toList.flatMap f else []) := by
  split
  · cases read with
    | none => exact filtered_nil _ _
    | some a =>
      rw [Option.toList_some, List.flatMap_singleton]
      exact h a
  · exact filtered_nil _ _

/-- Parts of a call that store different types. -/
theorem Filtered.append {satisfiable' : List MetricType} {metrics' : List Metric}
    (h : Filtered requested satisfiable metrics) (h' : Filtered requested satisfiable' metrics')
    (hnodup : (satisfiable ++ satisfiable').Nodup) :
    Filtered requested (satisfiable ++ satisfiable') (metrics ++ metrics') where
  mem_requested := List.forall_mem_append.mpr ⟨h.mem_requested, h'.mem_requested⟩
  mem_satisfiable := by
    refine List.forall_mem_append.mpr ⟨fun m hm => ?_, fun m hm => ?_⟩
    · exact List.mem_append_left _ (h.mem_satisfiable m hm)
    · exact List.mem_append_right _ (h'.mem_satisfiable m hm)
  nodup := by
    rw [List.map_append]
    refine h.nodup.append h'.nodup fun type hmem hmem' => ?_
    obtain ⟨m, hm, rfl⟩ := List.mem_map.mp hmem
    obtain ⟨m', hm', htype⟩ := List.mem_map.mp hmem'
    exact List.disjoint_of_nodup_append hnodup (h.mem_satisfiable m hm)
      (htype ▸ h'.mem_satisfiable m' hm')

theorem Filtered.mono {satisfiable' : List MetricType} (h : Filtered requested satisfiable metrics)
    (hsub : satisfiable ⊆ satisfiable') : Filtered requested satisfiable' metrics :=
  ⟨h.mem_requested, fun m hm => hsub (h.mem_satisfiable m hm), h.nodup⟩

end Call

theorem filtered_rapl (c : RaplCollector) (pread : Msr) (now : Int64) :
    Filtered c.requestedMetrics RaplCollector.satisfiable (c.collect pread now).1 := by
  rw [RaplCollector.collect]
  split
  · exact filtered_nil _ _
  · split
    · exact filtered_nil _ _
    · rename_i hreq
      rw [not_not] at hreq
      split
      · exact filtered_nil _ _
      · exact filtered_singleton rfl hreq

theorem filtered_procStat (c : ProcStatCollector) (line : Option CpuLine) (now : Int64) :
    Filtered c.requestedMetrics ProcStatCollector.satisfiable (c.collect line now).1 := by
  rw [ProcStatCollector.collect]
  split
  · exact filtered_nil _ _
  · split
    · exact filtered_nil _ _
    · rename_i hreq
      rw [not_not] at hreq
      exact filtered_singleton rfl hreq

theorem filtered_ram (c : RamCollector) (file : List MeminfoLine) (now : Int64) :
    Filtered c.requestedMetrics RamCollector.satisfiable (c.collect file now) := by
  rw [RamCollector.collect]
  split
  · exact filtered_nil _ _
  · dsimp only
    split
    · exact filtered_nil _ _
    · refine Filtered.mono (.append (filtered_push rfl) (filtered_push rfl) ?_) ?_
      · decide
      · exact List.Subset.refl _

/-- The two utilisations come from one call of the library. -/
theorem filtered_nvml (c : NvmlCollector) (nvml : NvmlReading) (now : Int64) :
    Filtered c.requestedMetrics NvmlCollector.satisfiable (c.collect nvml now) := by
  rw [NvmlCollector.collect]
  split
  · exact filtered_nil _ _
  · dsimp only
    refine Filtered.mono (.append (.append (.append (filtered_map ?_ _) (filtered_map ?_ _) ?_)
      (filtered_read (fun _ => .append (filtered_push ?_) (filtered_push ?_) ?_) _ _) ?_)
      (filtered_map ?_ _) ?_) ?_
    -- each part stores one type, and these are all different
    all_goals first | exact fun _ => rfl | rfl | decide

theorem filtered_collect (c : Collector) (m : Machine) :
    Filtered c.requestedMetrics c.satisfiable (c.collect m).1 := by
  cases c with
  | rapl c => exact filtered_rapl c m.msr m.now
  | procStat c => exact filtered_procStat c m.cpuLine m.now
  | ram c => exact filtered_ram c m.meminfo m.now
  | nvml c => exact filtered_nvml c m.nvml m.now

/-! ### Runs -/

theorem requestedMetrics_set (metrics : List MetricType) (c : Collector) :
    (c.setRequestedMetrics metrics).requestedMetrics = metrics := by
  cases c <;> rfl

theorem requestedMetrics_init (c : Collector) (m : Machine) :
    (c.init m).requestedMetrics = c.requestedMetrics := by
  cases c with
  | rapl c =>
    obtain ⟨_, _, _, _, _, heq⟩ := c.exists_init_eq m.msrFiles m.msr
    show (c.init m.msrFiles m.msr).2.requestedMetrics = _
    rw [heq]
    rfl
  | procStat c => rfl
  | ram c => rfl
  | nvml c =>
    show (c.init m.pciInfo).2.requestedMetrics = _
    cases m.pciInfo with
    | none => rfl
    | some pciInfo => rfl

theorem requestedMetrics_collect (c : Collector) (m : Machine) :
    (c.collect m).2.requestedMetrics = c.requestedMetrics := by
  cases c with
  | rapl c =>
    obtain ⟨_, heq⟩ := c.exists_collect_eq m.msr m.now
    show (c.collect m.msr m.now).2.requestedMetrics = _
    rw [heq]
    rfl
  | procStat c =>
    show (c.collect m.cpuLine m.now).2.requestedMetrics = _
    rw [ProcStatCollector.collect]
    split
    · rfl
    · split
      · rfl
      · rfl
  | ram c => rfl
  | nvml c => rfl

/-- No collector asks for what is not requested, and none has stored it. -/
structure Scheduled (requested : List MetricType) (s : Collection) : Prop where
  subset : ∀ c ∈ s.collectors, c.requestedMetrics ⊆ requested
  filtered : ∀ batch ∈ s.batches, Filtered requested batch.1.satisfiable batch.2

theorem scheduled_resolve (requested : List MetricType) (entries : List (Collector × Bool)) :
    Scheduled requested { collectors := resolve requested entries } where
  subset c hc := by
    rw [resolve_eq] at hc
    obtain ⟨entry, -, rfl⟩ := List.mem_map.mp hc
    rw [requestedMetrics_set]
    intro type htype
    exact (mem_active_iff.mp htype).2
  filtered _ hbatch := absurd hbatch List.not_mem_nil

theorem Scheduled.step {requested : List MetricType} {s t : Collection} {call : Call}
    (h : Scheduled requested s) (hstep : s.step call = some t) : Scheduled requested t := by
  -- a call puts back a collector with the types it had
  have hset : ∀ {i : ℕ} {c c' : Collector}, s.collectors[i]? = some c →
      c'.requestedMetrics = c.requestedMetrics →
      ∀ d ∈ s.collectors.set i c', d.requestedMetrics ⊆ requested := by
    intro i c c' hc heq d hd
    rcases List.mem_or_eq_of_mem_set hd with hd | rfl
    · exact h.subset d hd
    · rw [heq]
      exact h.subset c (List.mem_of_getElem? hc)
  cases call with
  | init i m =>
    obtain ⟨c, hc, rfl⟩ := Option.map_eq_some_iff.mp hstep
    exact ⟨hset hc (requestedMetrics_init c m), h.filtered⟩
  | collect i m =>
    obtain ⟨c, hc, rfl⟩ := Option.map_eq_some_iff.mp hstep
    refine ⟨hset hc (requestedMetrics_collect c m), ?_⟩
    -- what the collector asks for is requested, so what it stores is
    have hmetrics := filtered_collect c m
    refine List.forall_mem_append.mpr ⟨h.filtered, List.forall_mem_singleton.mpr ?_⟩
    constructor
    · intro x hx
      exact h.subset c (List.mem_of_getElem? hc) (hmetrics.mem_requested x hx)
    · exact hmetrics.mem_satisfiable
    · exact hmetrics.nodup

/-- **Only requested metrics are collected.**  The types of the file, or the
default, are loaded; the supported collectors that can satisfy one of them are in
use, in the order of their registration; and whatever calls follow, with whatever
reads failing, a call of `Collect` stores requested types of its collector only,
each at most once. -/
theorem onlyRequested {lib : TomlLib} (hlib : lib.Converts) (val : Option TomlNode)
    (out : List MetricType) (entries : List (Collector × Bool)) :
    let requested := RequestedMetrics.loadMetrics lib val out
    RequestedMetrics.Loaded lib val out requested ∧
    resolve requested entries = ((entries.filter fun entry => Selected requested entry).map
      fun entry => entry.1.setRequestedMetrics (active requested entry.1)) ∧
    ∀ (calls : List Call) (s : Collection),
      Run.exec Collection.step { collectors := resolve requested entries } calls = some s →
        ∀ batch ∈ s.batches, Filtered requested batch.1.satisfiable batch.2 := by
  intro requested
  refine ⟨RequestedMetrics.loaded_loadMetrics hlib val out, resolve_eq requested entries, ?_⟩
  intro calls s hs
  exact (Run.exec_invariant Scheduled.step (scheduled_resolve requested entries) hs).filtered

/-- A machine of which only the memory can be read. -/
def memoryMachine (meminfo : List MeminfoLine) : Machine where
  msrFiles := 0
  msr _ _ := none
  cpuLine := none
  meminfo := meminfo
  pciInfo := none
  nvml := ⟨none, none, none, none⟩
  now := 1

/-- It is read, and again when the file is gone. -/
def memoryCalls : List Call :=
  [.init 0 (memoryMachine []),
    .collect 0 (memoryMachine [⟨"MemTotal:", 8⟩, ⟨"MemAvailable:", 4⟩]),
    .collect 0 (memoryMachine [])]

/-- Memory is requested twice under its names and once under its number. -/
theorem onlyRequested_memory :
    let val : TomlNode := .array [.string "RAM_USED", .integer 301, .boolean true,
      .string "METRIC_TYPE_RAM_USED"]
    RequestedMetrics.Loaded .permissive (some val) [] [metricTypeRamUsed, metricTypeRamTotal] ∧
    resolve [metricTypeRamUsed, metricTypeRamTotal] [(.rapl {}, true), (.ram {}, true)]
      = [.ram { requestedMetrics := [metricTypeRamTotal, metricTypeRamUsed] }] ∧
    ∃ s, Run.exec Collection.step
        { collectors :=
            resolve [metricTypeRamUsed, metricTypeRamTotal] [(.rapl {}, true), (.ram {}, true)] }
        memoryCalls = some s ∧
      s.batches.map (fun batch => batch.2.length) = [2, 2] ∧
      ∀ batch ∈ s.batches, Filtered [metricTypeRamUsed, metricTypeRamTotal]
        batch.1.satisfiable batch.2 := by
  intro val
  have hload : RequestedMetrics.loadMetrics .permissive (some val) []
      = [metricTypeRamUsed, metricTypeRamTotal] := by
    decide +kernel
  have h := onlyRequested TomlLib.converts_permissive (some val) []
    [(.rapl {}, true), (.ram {}, true)]
  rw [hload] at h
  have hrun : (Run.exec Collection.step
      { collectors :=
          resolve [metricTypeRamUsed, metricTypeRamTotal] [(.rapl {}, true), (.ram {}, true)] }
      memoryCalls).map (fun s => s.batches.map fun batch => batch.2.length) = some [2, 2] := rfl
  obtain ⟨s, hs, hlengths⟩ := Option.map_eq_some_iff.mp hrun
  exact ⟨h.1, h.2.1.trans rfl, s, hs, hlengths, h.2.2 memoryCalls s hs⟩

end CollectorRegistry
end Volta
