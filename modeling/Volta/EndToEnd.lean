/-
From the collectors to the dashboard: the scheduler's loop feeds the buffer that
the stream reads, and the rest is the pipeline.

* `Fed` — what was pushed to the series and what is still to be pushed are the
  metrics that the scheduler has added;
* `takenAt_collect` — the collectors take the time of the call and name devices of the
  range of their types;
* `dashboard_shows_collected` — a live series shows metrics of one requested type
  and one device that a collector has returned.
-/
import Volta.Pipeline
import Volta.Scheduler
import Volta.StreamProgress

namespace Volta

/-! ### The devices of the collectors -/

namespace CollectorRegistry

/-- A metric that is taken at a time, of a device of the range of its type. -/
def TakenAt (now : Int64) (metric : Metric) : Prop := metric.timestamp = now ∧ metric.OfRange

theorem takenAt_rapl (c : RaplCollector) (pread : Msr) (now : Int64) :
    ∀ metric ∈ (c.collect pread now).1, TakenAt now metric := by
  intro metric hm
  rw [RaplCollector.collect] at hm
  split at hm
  · exact absurd hm List.not_mem_nil
  · split at hm
    · exact absurd hm List.not_mem_nil
    · split at hm
      · exact absurd hm List.not_mem_nil
      · rw [List.mem_singleton.mp hm]
        refine ⟨rfl, ?_⟩
        show 100 ≤ metricTypeCpuPowerPackage ∧ metricTypeCpuPowerPackage < 200
        decide

theorem takenAt_nvml (c : NvmlCollector) (nvml : NvmlReading) (now : Int64) :
    ∀ metric ∈ c.collect nvml now, TakenAt now metric := by
  intro metric hm
  have hrange : ∀ type ∈ NvmlCollector.satisfiable, 200 ≤ type ∧ type < 300 := by
    simp only [NvmlCollector.satisfiable, List.forall_mem_cons]
    exact ⟨by decide, by decide, by decide, by decide, by decide, nofun⟩
  obtain ⟨-, -, -, hdevice, htime⟩ := (c.mem_collect_iff nvml now metric).mp hm
  refine ⟨htime, ?_⟩
  rw [Metric.OfRange, hdevice]
  exact hrange metric.type ((filtered_nvml c nvml now).mem_satisfiable metric hm)

theorem takenAt_collect (c : Collector) (m : Machine) :
    ∀ metric ∈ (c.collect m).1, TakenAt m.now metric := by
  cases c with
  | rapl c => exact takenAt_rapl c m.msr m.now
  | nvml c => exact takenAt_nvml c m.nvml m.now
  | procStat c =>
    intro metric hm
    change metric ∈ (c.collect m.cpuLine m.now).1 at hm
    rw [ProcStatCollector.collect] at hm
    split at hm
    · exact absurd hm List.not_mem_nil
    · split at hm
      · exact absurd hm List.not_mem_nil
      · rw [List.mem_singleton.mp hm]
        exact ⟨rfl, trivial⟩
  | ram c =>
    intro metric hm
    change metric ∈ c.collect m.meminfo m.now at hm
    rw [RamCollector.collect] at hm
    split at hm
    · exact absurd hm List.not_mem_nil
    · dsimp only at hm
      split at hm
      · exact absurd hm List.not_mem_nil
      · rcases List.mem_append.mp hm with hm | hm
        all_goals
          rw [List.mem_ite_nil_right, List.mem_singleton] at hm
          rw [hm.2]
          exact ⟨rfl, trivial⟩

end CollectorRegistry

theorem metricType_makeBufferKey (metric : Metric) :
    (makeBufferKey metric).metricType = metric.type := by
  rw [makeBufferKey]
  split <;> rfl

namespace EndToEnd

open MetricsStream (toPush)

structure State where
  scheduler : Scheduler.State
  pipe : Pipeline.State

/-- `capacity` is that of the series, `entries` are the registered collectors. -/
def init (capacity : ℕ) (requested : List MetricType) (entries : List (Collector × Bool))
    (exporter : Exporter.State) : State where
  scheduler := Scheduler.init (CollectorRegistry.resolve requested entries) exporter
  pipe := Pipeline.init capacity

inductive Action where
  | scheduler (a : Scheduler.Action)
  | pipe (a : Pipeline.Action)

/-- The scheduler's thread calls `AddMetrics`, and is not past it before all the
metrics are added. -/
def step (agentID : String) (printDouble : Double → String) (s : State) : Action → Option State
  | .scheduler a =>
      match Scheduler.step printDouble s.scheduler a with
      | none => none
      | some scheduler =>
          match a, s.scheduler.pc with
          | .run _, .addMetrics _ metrics =>
              (Pipeline.step agentID s.pipe (.stream (.addMetrics metrics))).map fun pipe =>
                { scheduler := scheduler, pipe := pipe }
          | .run _, .dump _ _ =>
              if s.pipe.stream.adding.isEmpty then some { s with scheduler := scheduler } else none
          | _, _ => some { s with scheduler := scheduler }
  | .pipe a =>
      match a with
      | .stream (.addMetrics _) => none  -- nobody else calls it
      | _ => (Pipeline.step agentID s.pipe a).map fun pipe => { s with pipe := pipe }

/-! ### What a step of the scheduler brings -/

section Scheduler

variable {printDouble : Double → String} {s t : Scheduler.State} {a : Scheduler.Action}

/-- Only the call of `AddMetrics` adds. -/
theorem added_of_step (h : Scheduler.step printDouble s a = some t) :
    (∃ m i metrics, a = .run m ∧ s.pc = .addMetrics i metrics ∧
      t.added = s.added ++ metrics) ∨
    (t.added = s.added ∧ ∀ m i metrics, a = .run m → s.pc ≠ .addMetrics i metrics) := by
  cases a with
  | run m =>
    cases Scheduler.moves_of_runStep h with
    | addMetrics hpc => exact .inl ⟨m, _, _, rfl, hpc, rfl⟩
    | init hpc | listen hpc | loop hpc | leave hpc | collect hpc | sleep hpc | dump hpc
    | endDump hpc =>
      refine .inr ⟨rfl, fun _ i metrics _ hadd => ?_⟩
      rw [hpc] at hadd
      exact absurd hadd (by simp)
  | signal =>
    cases h
    exact .inr ⟨rfl, fun _ _ _ ha => absurd ha (by simp)⟩
  | command call fileExists now opens =>
    obtain ⟨-, rfl⟩ := Scheduler.command_cases h
    exact .inr ⟨rfl, fun _ _ _ ha => absurd ha (by simp)⟩

theorem ofRange_hand (h : Scheduler.step printDouble s a = some t)
    (hhand : ∀ metric ∈ s.pc.hand, metric.OfRange) : ∀ metric ∈ t.pc.hand, metric.OfRange := by
  cases a with
  | run m =>
    cases Scheduler.moves_of_runStep h with
    | collect hpc hc =>
      exact fun metric hm => (CollectorRegistry.takenAt_collect _ m metric hm).2
    | init | listen | loop | leave | sleep | addMetrics | dump | endDump =>
      exact fun _ hm => absurd hm List.not_mem_nil
  | signal =>
    cases h
    exact hhand
  | command call fileExists now opens =>
    obtain ⟨-, rfl⟩ := Scheduler.command_cases h
    exact hhand

end Scheduler

/-! ### The invariant -/

/-- The metrics that were added are pushed, or still to be pushed. -/
def Fed (s : State) : Prop :=
  ∀ key, s.pipe.stream.pushed key ++ toPush key s.pipe.stream.adding = toPush key s.scheduler.added

structure Inv (C : ℕ) (requested : List MetricType) (agentID : String) (s : State) : Prop where
  scheduler : Scheduler.Inv requested s.scheduler
  pipe : Pipeline.Inv C agentID s.pipe
  ranged : Pipeline.Ranged s.pipe.stream
  hand : ∀ metric ∈ s.scheduler.pc.hand, metric.OfRange
  fed : Fed s

section Invariant

variable {C : ℕ} {requested : List MetricType} {agentID : String} {printDouble : Double → String}

theorem inv_init (hC : 0 < C) (requested : List MetricType) (entries : List (Collector × Bool))
    (agentID : String) (dumpDir : String) (fileExists : String → Bool)
    (files : String → Option String) :
    Inv C requested agentID
      (init C requested entries (Exporter.init dumpDir fileExists files)) where
  scheduler := Scheduler.inv_init requested entries dumpDir fileExists files
  pipe := Pipeline.inv_init hC agentID
  ranged := ⟨fun _ h => absurd h List.not_mem_nil, fun _ h => absurd h List.not_mem_nil⟩
  hand _ h := absurd h List.not_mem_nil
  fed _ := rfl

variable {s t : State}

/-- The scheduler's thread calls `AddMetrics`. -/
theorem Inv.add (h : Inv C requested agentID s) {m : Machine} {i : ℕ} {metrics : List Metric}
    {scheduler : Scheduler.State} (hpc : s.scheduler.pc = .addMetrics i metrics)
    (hs : Scheduler.step printDouble s.scheduler (.run m) = some scheduler) {pipe : Pipeline.State}
    (hp : Pipeline.step agentID s.pipe (.stream (.addMetrics metrics)) = some pipe) :
    Inv C requested agentID { scheduler := scheduler, pipe := pipe } := by
  have hhand : ∀ metric ∈ metrics, metric.OfRange := by
    have hhand := h.hand
    rwa [hpc] at hhand
  obtain ⟨stream, hstream, hpipe⟩ := Option.map_eq_some_iff.mp hp
  have heq : pipe.stream = stream := by
    rw [← hpipe]
    rfl
  have hranged : Pipeline.Ranged stream :=
    h.ranged.step (fun metrics' hm => by cases hm; exact hhand) hstream
  refine ⟨h.scheduler.step hs, h.pipe.step hp, heq ▸ hranged, ofRange_hand hs h.hand, fun key => ?_⟩
  obtain ⟨_, ha, hnil, hadding, hpushed⟩ | ⟨hno, -⟩ := MetricsStream.pushed_of_step hstream
  · cases ha
    obtain ⟨_, _, _, -, hpc', hadded⟩ | ⟨-, hno⟩ := added_of_step hs
    · cases hpc.symm.trans hpc'
      have hfed := h.fed key
      rw [hnil] at hfed
      show pipe.stream.pushed key ++ toPush key pipe.stream.adding = toPush key scheduler.added
      rw [heq, hpushed, hadding, hadded, MetricsStream.toPush_append, ← hfed]
      exact congrArg (fun l => l ++ toPush key metrics) (List.append_nil _).symm
    · exact absurd hpc (hno m i metrics rfl)
  · exact absurd rfl (hno metrics)

/-- Every other step of the scheduler. -/
theorem Inv.other (h : Inv C requested agentID s) {a : Scheduler.Action}
    {scheduler : Scheduler.State} (hno : ∀ m i metrics, a = .run m →
      s.scheduler.pc ≠ .addMetrics i metrics)
    (hs : Scheduler.step printDouble s.scheduler a = some scheduler) :
    Inv C requested agentID { s with scheduler := scheduler } := by
  refine ⟨h.scheduler.step hs, h.pipe, h.ranged, ofRange_hand hs h.hand, fun key => ?_⟩
  obtain ⟨m, i, metrics, ha, hpc, -⟩ | ⟨hadded, -⟩ := added_of_step hs
  · exact absurd hpc (hno m i metrics ha)
  · show s.pipe.stream.pushed key ++ toPush key s.pipe.stream.adding = toPush key scheduler.added
    rw [hadded]
    exact h.fed key

theorem Inv.pipeStep (h : Inv C requested agentID s) {a : Pipeline.Action} {pipe : Pipeline.State}
    (hno : ∀ metrics, a ≠ .stream (.addMetrics metrics))
    (hp : Pipeline.step agentID s.pipe a = some pipe) :
    Inv C requested agentID { s with pipe := pipe } := by
  obtain ⟨b, rfl, hb⟩ | heq := Pipeline.stream_of_step hp
  · have hno' : ∀ metrics, b ≠ .addMetrics metrics := fun metrics hb => hno metrics (hb ▸ rfl)
    have hranged : Pipeline.Ranged pipe.stream :=
      h.ranged.step (fun metrics hm => absurd hm (hno' metrics)) hb
    refine ⟨h.scheduler, h.pipe.step hp, hranged, h.hand, fun key => ?_⟩
    obtain ⟨metrics, hadd, -⟩ | ⟨-, hkeep⟩ := MetricsStream.pushed_of_step hb
    · exact absurd hadd (hno' metrics)
    · exact (hkeep key).trans (h.fed key)
  · refine ⟨h.scheduler, h.pipe.step hp, heq ▸ h.ranged, h.hand, fun key => ?_⟩
    show pipe.stream.pushed key ++ toPush key pipe.stream.adding = toPush key s.scheduler.added
    rw [heq]
    exact h.fed key

theorem Inv.step (h : Inv C requested agentID s) {a : Action}
    (ht : EndToEnd.step agentID printDouble s a = some t) : Inv C requested agentID t := by
  cases a with
  | scheduler a =>
    simp only [EndToEnd.step] at ht
    split at ht
    · exact absurd ht (by simp)
    · rename_i scheduler hs
      split at ht
      · rename_i m i metrics hpc
        obtain ⟨pipe, hp, rfl⟩ := Option.map_eq_some_iff.mp ht
        exact h.add hpc hs hp
      · rename_i m i metrics hpc
        split at ht
        · cases ht
          refine h.other (fun _ _ _ _ hadd => ?_) hs
          rw [hpc] at hadd
          exact absurd hadd (by simp)
        · exact absurd ht (by simp)
      · rename_i hno _
        cases ht
        exact h.other (fun m i metrics ha hpc => hno m i metrics ha hpc) hs
  | pipe a =>
    simp only [EndToEnd.step] at ht
    split at ht
    · exact absurd ht (by simp)
    · rename_i hno
      obtain ⟨pipe, hp, rfl⟩ := Option.map_eq_some_iff.mp ht
      exact h.pipeStep hno hp

/-- A live series has metrics of one series of the buffer. -/
theorem Inv.shown (h : Inv C requested agentID s) {text : String} {ls : Dashboard.LiveSeries}
    (hls : s.pipe.series text = some ls) :
    ∃ key ∈ s.pipe.stream.buffer.getAllKeys,
      text = Pipeline.keyText key ∧ ls.type = key.metricType ∧
      (∀ key' ∈ s.pipe.stream.buffer.getAllKeys, text = Pipeline.keyText key' → key' = key) ∧
      ls.times.length = ls.values.length ∧ ls.times ≠ [] ∧
      (ls.times.zip ls.values).Sublist
        ((s.scheduler.collected.filter fun m => makeBufferKey m = key).map fun m =>
          (Dashboard.nsToMs m.timestamp.toUInt64, m.value)) := by
  obtain ⟨key, hkey, htext, honly, htype, hlen, htimes, hsub⟩ :=
    h.pipe.shown_was_pushed h.ranged hls
  -- what was pushed was added, and what was added was collected
  have hpushed :
      (s.pipe.stream.pushed key).Sublist (Volta.samplesOf key s.scheduler.collected) := by
    have hfed : (s.pipe.stream.pushed key).Sublist (toPush key s.scheduler.added) := by
      rw [← h.fed key]
      exact List.sublist_append_left _ _
    have hadded : s.scheduler.added.Sublist s.scheduler.collected := by
      rw [h.scheduler.collected_eq]
      exact List.sublist_append_left _ _
    refine hfed.trans ?_
    exact ((List.filter_sublist.trans hadded).filter _).map Metric.toSample
  refine ⟨key, hkey, htext, htype, honly, hlen, htimes, ?_⟩
  have hsub' := hsub.trans (hpushed.map Pipeline.shown)
  rwa [Volta.samplesOf, List.map_map] at hsub'

end Invariant

/-- **What the dashboard shows was measured, as requested.**  In every run of the
agent, the server and the dashboard in which each call on the bus is one step, each
live series is of one requested type and one series of the agent's buffer, and no
other series of the buffer feeds it; its points are metrics of that series which a
collector returned, with their own times and values, in the order of their collection,
none twice. -/
theorem dashboard_shows_collected {C : ℕ} (hC : 1 ≤ C) (requested : List MetricType)
    (entries : List (Collector × Bool)) (agentID : String) (printDouble : Double → String)
    (dumpDir : String) (fileExists : String → Bool) (files : String → Option String)
    {as : List Action} {s : State}
    (hs : Run.exec (step agentID printDouble)
      (init C requested entries (Exporter.init dumpDir fileExists files)) as = some s)
    {text : String} {ls : Dashboard.LiveSeries} (hls : s.pipe.series text = some ls) :
    ∃ key ∈ s.pipe.stream.buffer.getAllKeys,
      text = Pipeline.keyText key ∧ ls.type = key.metricType ∧ key.metricType ∈ requested ∧
      (∀ key' ∈ s.pipe.stream.buffer.getAllKeys, text = Pipeline.keyText key' → key' = key) ∧
      ls.times.length = ls.values.length ∧ ls.times ≠ [] ∧
      (ls.times.zip ls.values).Sublist
        ((s.scheduler.collected.filter fun m => makeBufferKey m = key).map fun m =>
          (Dashboard.nsToMs m.timestamp.toUInt64, m.value)) := by
  have h : Inv C requested agentID s := Run.exec_invariant (fun h ht => h.step ht)
    (inv_init hC requested entries agentID dumpDir fileExists files) hs
  obtain ⟨key, hmem, htext, htype, honly, hlen, htimes, hshown⟩ := h.shown hls
  refine ⟨key, hmem, htext, htype, ?_, honly, hlen, htimes, hshown⟩
  -- a point of the series is a metric that was asked for
  have hzip : ls.times.zip ls.values ≠ [] := by
    rw [Ne, List.zip_eq_nil_iff, ← List.length_eq_zero_iff (l := ls.values), ← hlen,
      List.length_eq_zero_iff, or_self]
    exact htimes
  obtain ⟨p, hp⟩ := List.exists_mem_of_ne_nil _ hzip
  obtain ⟨m, hm, -⟩ := List.mem_map.mp (hshown.subset hp)
  obtain ⟨hcollected, hkey⟩ := List.mem_filter.mp hm
  obtain ⟨batch, hbatch, hm⟩ := List.mem_flatMap.mp hcollected
  have hreq := (h.scheduler.scheduled.filtered batch hbatch).mem_requested m hm
  rw [← of_decide_eq_true hkey, metricType_makeBufferKey]
  exact hreq

/-- The memory is read once, and its size comes to the dashboard. -/
def totalShown : List Action :=
  List.replicate 5 (.scheduler (.run Scheduler.memoryOnly)) ++
    List.map Action.pipe ([.openSocket 0, .stream .addMetric] ++
      List.replicate 10 (.stream .poll) ++
        [.stream .server, .stream .server, .pump 0 true, .message])

theorem isSome_totalShown :
    (Run.exec (step "a" fun _ => "") (init 1 [metricTypeRamTotal] [(.ram {}, true)]
      (Exporter.init "" (fun _ => false) fun _ => none)) totalShown).map
      (fun s => (s.pipe.series (Pipeline.keyText { metricType := metricTypeRamTotal })).isSome)
        = some true := rfl

theorem dashboard_shows_collected_total :
    ∃ s, Run.exec (step "a" fun _ => "") (init 1 [metricTypeRamTotal] [(.ram {}, true)]
        (Exporter.init "" (fun _ => false) fun _ => none)) totalShown = some s ∧
      ∃ ls, s.pipe.series (Pipeline.keyText { metricType := metricTypeRamTotal }) = some ls ∧
        ls.type ∈ [metricTypeRamTotal] := by
  obtain ⟨s, hs, hsome⟩ := Option.map_eq_some_iff.mp isSome_totalShown
  obtain ⟨ls, hls⟩ := Option.isSome_iff_exists.mp hsome
  obtain ⟨key, -, -, htype, hreq, -⟩ := dashboard_shows_collected (le_refl 1)
    [metricTypeRamTotal] [(.ram {}, true)] "a" (fun _ => "") "" (fun _ => false) (fun _ => none)
    hs hls
  exact ⟨s, hs, ls, hls, htype ▸ hreq⟩

/-! ### The order of the times -/

/-- The time that the thread reads in a step. -/
def clock : Action → Option Int64
  | .scheduler (.run m) => some m.now
  | _ => none

/-- What was collected carries the times of the clock, in their order. -/
structure Ordered (as : List Action) (s : State) : Prop where
  mem_clock : ∀ m ∈ s.scheduler.collected, m.timestamp ∈ as.filterMap clock
  sorted : s.scheduler.collected.Pairwise fun m m' => m.timestamp ≤ m'.timestamp

/-- The scheduler makes a step of its own, or none. -/
theorem scheduler_of_step {agentID : String} {printDouble : Double → String} {s t : State}
    {a : Action} (h : step agentID printDouble s a = some t) :
    (∃ b, a = .scheduler b ∧ Scheduler.step printDouble s.scheduler b = some t.scheduler) ∨
      t.scheduler = s.scheduler := by
  cases a with
  | scheduler b =>
    refine .inl ⟨b, rfl, ?_⟩
    simp only [step] at h
    split at h
    · exact absurd h (by simp)
    · rename_i scheduler hs
      split at h
      · obtain ⟨pipe, -, rfl⟩ := Option.map_eq_some_iff.mp h
        exact hs
      · split at h
        · cases h
          exact hs
        · exact absurd h (by simp)
      · cases h
        exact hs
  | pipe b =>
    refine .inr ?_
    simp only [step] at h
    split at h
    · exact absurd h (by simp)
    · obtain ⟨pipe, -, rfl⟩ := Option.map_eq_some_iff.mp h
      rfl

/-- Only a call of a collector collects. -/
theorem collected_of_step {agentID : String} {printDouble : Double → String} {s t : State}
    {a : Action} (h : step agentID printDouble s a = some t) :
    t.scheduler.collected = s.scheduler.collected ∨
      ∃ m c, a = .scheduler (.run m) ∧
        t.scheduler.collected = s.scheduler.collected ++ (Collector.collect m c).1 := by
  obtain ⟨b, rfl, hb⟩ | heq := scheduler_of_step h
  · cases b with
    | run m =>
      generalize t.scheduler = u at hb ⊢
      cases Scheduler.moves_of_runStep hb with
      | collect hpc hc =>
        rename_i i c
        refine .inr ⟨m, c, rfl, ?_⟩
        rw [Scheduler.State.collected, List.flatMap_append, List.flatMap_singleton]
        rfl
      | init | listen | loop | leave | sleep | addMetrics | dump | endDump => exact .inl rfl
    | signal =>
      refine .inl ?_
      rw [← Option.some.inj hb]
      rfl
    | command call fileExists now opens =>
      obtain ⟨-, heq⟩ := Scheduler.command_cases hb
      rw [heq]
      exact .inl rfl
  · exact .inl (congrArg Scheduler.State.collected heq)

theorem Ordered.step {agentID : String} {printDouble : Double → String} {s t : State}
    {as : List Action} {a : Action} (h : Ordered as s)
    (hclock : ((as ++ [a]).filterMap clock).Pairwise (· ≤ ·))
    (ht : EndToEnd.step agentID printDouble s a = some t) : Ordered (as ++ [a]) t := by
  rw [List.filterMap_append] at hclock
  have hold : ∀ m ∈ s.scheduler.collected, m.timestamp ∈ (as ++ [a]).filterMap clock := by
    intro m hm
    rw [List.filterMap_append]
    exact List.mem_append_left _ (h.mem_clock m hm)
  obtain heq | ⟨m, c, rfl, heq⟩ := collected_of_step ht
  · exact ⟨heq ▸ hold, heq ▸ h.sorted⟩
  · have hnow : ∀ metric ∈ (Collector.collect m c).1, metric.timestamp = m.now :=
      fun metric hm => (CollectorRegistry.takenAt_collect c m metric hm).1
    have hlast : m.now ∈ [Action.scheduler (.run m)].filterMap clock := List.mem_cons_self
    refine ⟨?_, ?_⟩
    · rw [heq]
      refine List.forall_mem_append.mpr ⟨hold, fun metric hm => ?_⟩
      rw [hnow metric hm, List.filterMap_append]
      exact List.mem_append_right _ hlast
    · rw [heq, List.pairwise_append]
      refine ⟨h.sorted, ?_, fun m' hm' metric hm => ?_⟩
      · refine List.pairwise_of_forall_mem_list fun a ha b hb => ?_
        rw [hnow a ha, hnow b hb]
        exact Int64.le_refl _
      · rw [hnow metric hm]
        exact (List.pairwise_append.mp hclock).2.2 _ (h.mem_clock m' hm') _ hlast

theorem ordered_exec {agentID : String} {printDouble : Double → String} {s₀ : State}
    (hnone : s₀.scheduler.collected = []) {as : List Action} {s : State}
    (hclock : (as.filterMap clock).Pairwise (· ≤ ·))
    (hs : Run.exec (step agentID printDouble) s₀ as = some s) : Ordered as s := by
  induction as using List.reverseRecOn generalizing s with
  | nil =>
    cases hs
    exact ⟨fun m hm => absurd (hnone ▸ hm) List.not_mem_nil, hnone ▸ List.Pairwise.nil⟩
  | append_singleton as a ih =>
    obtain ⟨u, hu, ha⟩ := Run.exec_append_eq_some.mp hs
    obtain ⟨t, ht, hnil⟩ := Run.exec_cons_eq_some.mp ha
    cases hnil
    have hclock' : (as.filterMap clock).Pairwise (· ≤ ·) := by
      rw [List.filterMap_append] at hclock
      exact (List.pairwise_append.mp hclock).1
    exact (ih hclock' hu).step hclock ht

theorem nsToMs_le {a b : Int64} (ha : 0 ≤ a) (hab : a ≤ b) :
    Dashboard.nsToMs a.toUInt64 ≤ Dashboard.nsToMs b.toUInt64 :=
  Nat.div_le_div_right (UInt64.le_iff_toNat_le.mp (Int64.toUInt64_le ha hab))

/-- **The times of a series go up.**  In every run in which the clock of the agent does
not go back, and is past 1970, and each call on the bus is one step, the times of each
live series are in order, as a chart needs them. -/
theorem shown_in_order {C : ℕ} (hC : 1 ≤ C) (requested : List MetricType)
    (entries : List (Collector × Bool)) (agentID : String) (printDouble : Double → String)
    (dumpDir : String) (fileExists : String → Bool) (files : String → Option String)
    {as : List Action} {s : State}
    (hs : Run.exec (step agentID printDouble)
      (init C requested entries (Exporter.init dumpDir fileExists files)) as = some s)
    (hclock : (as.filterMap clock).Pairwise (· ≤ ·)) (hpos : ∀ now ∈ as.filterMap clock, 0 ≤ now)
    {text : String} {ls : Dashboard.LiveSeries} (hls : s.pipe.series text = some ls) :
    ls.times.Pairwise (· ≤ ·) := by
  have h : Inv C requested agentID s := Run.exec_invariant (fun h ht => h.step ht)
    (inv_init hC requested entries agentID dumpDir fileExists files) hs
  have hordered : Ordered as s := ordered_exec rfl hclock hs
  obtain ⟨key, -, -, -, -, hlen, -, hshown⟩ := h.shown hls
  have htimes : ls.times.Sublist ((s.scheduler.collected.filter fun m =>
      makeBufferKey m = key).map fun m => Dashboard.nsToMs m.timestamp.toUInt64) := by
    have hfst := hshown.map Prod.fst
    rwa [List.map_fst_zip hlen.le, List.map_map] at hfst
  refine List.Pairwise.sublist htimes (List.pairwise_map.mpr ?_)
  refine (hordered.sorted.filter _).imp_of_mem fun hm _ hle => ?_
  exact nsToMs_le (hpos _ (hordered.mem_clock _ (List.mem_of_mem_filter hm))) hle

theorem shown_in_order_total :
    ∃ s, Run.exec (step "a" fun _ => "") (init 1 [metricTypeRamTotal] [(.ram {}, true)]
        (Exporter.init "" (fun _ => false) fun _ => none)) totalShown = some s ∧
      ∃ ls, s.pipe.series (Pipeline.keyText { metricType := metricTypeRamTotal }) = some ls ∧
        ls.times.Pairwise (· ≤ ·) := by
  obtain ⟨s, hs, hsome⟩ := Option.map_eq_some_iff.mp isSome_totalShown
  obtain ⟨ls, hls⟩ := Option.isSome_iff_exists.mp hsome
  have hclock : totalShown.filterMap clock = List.replicate 5 1 := rfl
  refine ⟨s, hs, ls, hls, shown_in_order (le_refl 1) [metricTypeRamTotal] [(.ram {}, true)] "a"
    (fun _ => "") "" (fun _ => false) (fun _ => none) hs ?_ ?_ hls⟩
  · rw [hclock]
    exact List.pairwise_replicate.mpr (.inr (Int64.le_refl 1))
  · rw [hclock]
    exact List.forall_mem_replicate.mpr (.inr (by decide))

end EndToEnd
end Volta
