/-
The collector of CPU utilisation (`proc_stat_collector.h` and
`proc_stat_collector.cc`).

The counters and their differences are `uint64_t` and wrap; the quotient is an
exact rational.

* `usagePercent_le_iff` — a quotient is a percentage exactly when the idle
  difference is within the total one;
* `CpuRun` — a collector in use, with the totals of the last successful read;
* `Percent` — every report is a percentage, the right one where the counters
  grow as they should, and the next difference starts from the last successful
  read;
* `percent_iff` — when a run keeps that.
-/
import Volta.Run
import Volta.MetricType
import Mathlib.Algebra.Order.Field.Rat
import Mathlib.Tactic.Linarith
import Mathlib.Tactic.Positivity
import Mathlib.Tactic.Ring
import Mathlib.Tactic.FieldSimp

namespace Volta

/-- The numbers of the first line of `/proc/stat`. -/
structure CpuLine where
  user : UInt64 := 0
  nice : UInt64 := 0
  system : UInt64 := 0
  curIdle : UInt64 := 0
  iowait : UInt64 := 0
  irq : UInt64 := 0
  softirq : UInt64 := 0
  steal : UInt64 := 0

/-- The two sums the collector takes. -/
structure CpuStats where
  total : UInt64 := 0
  idle : UInt64 := 0
  deriving DecidableEq

def CpuLine.stats (l : CpuLine) : CpuStats :=
  let idle := l.curIdle + l.iowait
  { total := l.user + l.nice + l.system + idle + l.irq + l.softirq + l.steal, idle := idle }

structure ProcStatCollector where
  requestedMetrics : List MetricType := []
  prevTotal : UInt64 := 0
  prevIdle : UInt64 := 0

namespace ProcStatCollector

def satisfiable : List MetricType := [metricTypeCpuUtilization]

def init (c : ProcStatCollector) : Bool × ProcStatCollector := (true, c)

/-- `line` is `none` when no line can be read; the variables then keep what the
caller put in them. -/
def readCpuStats (line : Option CpuLine) (stats : CpuStats) : CpuStats :=
  match line with
  | none => stats
  | some l => l.stats

def usagePercent (diffTotal diffIdle : UInt64) : Double :=
  if diffTotal > 0 then ((diffTotal - diffIdle).toNat : ℚ) / diffTotal.toNat * 100 else 0

def collect (c : ProcStatCollector) (line : Option CpuLine) (now : Int64) :
    List Metric × ProcStatCollector :=
  if c.requestedMetrics.isEmpty then ([], c)
  else if metricTypeCpuUtilization ∉ c.requestedMetrics then ([], c)
  else
    let current := readCpuStats line { total := 0, idle := 0 }
    ([{ type := metricTypeCpuUtilization
        devId := none
        value := usagePercent (current.total - c.prevTotal) (current.idle - c.prevIdle)
        timestamp := now }],
      { c with prevTotal := current.total, prevIdle := current.idle })

/-! ### The quotient -/

theorem usagePercent_zero (diffIdle : UInt64) : usagePercent 0 diffIdle = 0 := rfl

theorem usagePercent_nonneg (diffTotal diffIdle : UInt64) :
    0 ≤ usagePercent diffTotal diffIdle := by
  rw [usagePercent]
  split
  · positivity
  · exact le_refl 0

theorem toNat_pos_of_ne_zero {x : UInt64} (h : x ≠ 0) : 0 < x.toNat := by
  rw [Nat.pos_iff_ne_zero]
  exact fun h0 => h (UInt64.toNat_inj.mp h0)

theorem usagePercent_of_ne_zero {diffTotal : UInt64} (h : diffTotal ≠ 0) (diffIdle : UInt64) :
    usagePercent diffTotal diffIdle
      = ((diffTotal - diffIdle).toNat : ℚ) / diffTotal.toNat * 100 :=
  if_pos (UInt64.lt_iff_toNat_lt.mpr (show (0 : UInt64).toNat < _ from toNat_pos_of_ne_zero h))

/-- A `uint64_t` difference is at most what it is taken from exactly when it
does not wrap. -/
theorem toNat_sub_le_iff (a b : UInt64) : (a - b).toNat ≤ a.toNat ↔ b ≤ a := by
  rw [UInt64.le_iff_toNat_le, UInt64.toNat_sub]
  have ha := a.toNat_lt
  have hb := b.toNat_lt
  omega

theorem usagePercent_le_iff (diffTotal diffIdle : UInt64) :
    usagePercent diffTotal diffIdle ≤ 100 ↔ diffTotal = 0 ∨ diffIdle ≤ diffTotal := by
  by_cases h : diffTotal = 0
  · subst h
    rw [usagePercent_zero]
    exact iff_of_true (by norm_num) (.inl rfl)
  · have hpos : (0 : ℚ) < diffTotal.toNat := Nat.cast_pos.mpr (toNat_pos_of_ne_zero h)
    rw [usagePercent_of_ne_zero h, or_iff_right h, ← toNat_sub_le_iff]
    constructor
    · intro hle
      have hdiv : ((diffTotal - diffIdle).toNat : ℚ) / diffTotal.toNat ≤ 1 := by linarith
      rw [div_le_one hpos] at hdiv
      exact Nat.cast_le.mp hdiv
    · intro hle
      have hdiv : ((diffTotal - diffIdle).toNat : ℚ) / diffTotal.toNat ≤ 1 := by
        rw [div_le_one hpos]
        exact Nat.cast_le.mpr hle
      linarith

/-- `uint64_t` differences of counters that grow are the differences. -/
theorem toNat_sub_of_le {a b : UInt64} (h : b.toNat ≤ a.toNat) :
    (a - b).toNat = a.toNat - b.toNat := by
  rw [UInt64.toNat_sub]
  have ha := a.toNat_lt
  omega

/-- The share of the time between two readings that was not idle. -/
def busyPercent (previous current : CpuStats) : ℚ :=
  let diffTotal := (current.total.toNat : ℚ) - previous.total.toNat
  let diffIdle := (current.idle.toNat : ℚ) - previous.idle.toNat
  if diffTotal = 0 then 0 else 100 * (diffTotal - diffIdle) / diffTotal

/-- The counters have grown, the idle time by no more than the total. -/
structure Grown (previous current : CpuStats) : Prop where
  total_le : previous.total.toNat ≤ current.total.toNat
  idle_le : previous.idle.toNat ≤ current.idle.toNat
  diff_le : current.idle.toNat - previous.idle.toNat ≤ current.total.toNat - previous.total.toNat

theorem Grown.usagePercent_eq {previous current : CpuStats} (h : Grown previous current) :
    usagePercent (current.total - previous.total) (current.idle - previous.idle)
      = busyPercent previous current := by
  have htotal := toNat_sub_of_le h.total_le
  have hidle := toNat_sub_of_le h.idle_le
  have hdiff : ((current.total - previous.total) - (current.idle - previous.idle)).toNat
      = (current.total.toNat - previous.total.toNat)
        - (current.idle.toNat - previous.idle.toNat) := by
    rw [toNat_sub_of_le (by rw [htotal, hidle]; exact h.diff_le), htotal, hidle]
  rw [busyPercent]
  by_cases h0 : current.total - previous.total = 0
  · have hsame : current.total.toNat = previous.total.toNat := by
      have hle := h.total_le
      rw [h0] at htotal
      change 0 = _ at htotal
      omega
    rw [h0, usagePercent_zero, if_pos (by rw [hsame, sub_self])]
  · have hpos : 0 < current.total.toNat - previous.total.toNat := by
      rw [← htotal]
      exact toNat_pos_of_ne_zero h0
    have hcast : ((current.total.toNat - previous.total.toNat : ℕ) : ℚ)
        = current.total.toNat - previous.total.toNat := Nat.cast_sub h.total_le
    have hne : (current.total.toNat : ℚ) - previous.total.toNat ≠ 0 := by
      rw [← hcast]
      exact Nat.cast_ne_zero.mpr hpos.ne'
    rw [if_neg hne, usagePercent_of_ne_zero h0, hdiff, htotal, Nat.cast_sub h.diff_le, hcast,
      Nat.cast_sub h.idle_le]
    ring

/-! ### Runs -/

/-- One call of `Collect` and the line it reads. -/
structure Reading where
  line : Option CpuLine
  now : Int64 := 0

/-- A reported value with the totals read (`none` when the read failed) and
those of the last successful read before. -/
structure Report where
  previous : CpuStats
  current : Option CpuStats
  value : Double
  deriving DecidableEq

structure CpuRun where
  collector : ProcStatCollector
  last : CpuStats := {}
  reports : List Report := []

def CpuRun.collect (s : CpuRun) (r : Reading) : Option CpuRun :=
  let (metrics, collector) := s.collector.collect r.line r.now
  some
    { collector := collector
      last := if metrics.isEmpty then s.last else (r.line.map CpuLine.stats).getD s.last
      reports := s.reports ++ metrics.map fun m => ⟨s.last, r.line.map CpuLine.stats, m.value⟩ }

structure Percent (s : CpuRun) : Prop where
  range : ∀ r ∈ s.reports, 0 ≤ r.value ∧ r.value ≤ 100
  value_eq : ∀ r ∈ s.reports, ∀ current, r.current = some current →
    Grown r.previous current → r.value = busyPercent r.previous current
  -- a failed read leaves the start of the next difference alone
  undisturbed : s.collector.prevTotal = s.last.total ∧ s.collector.prevIdle = s.last.idle

/-- A line whose totals have, modulo 2^64, not moved or moved by no less than
the idle time; and no failed read once a total is remembered. -/
def Regular (s : CpuRun) (r : Reading) : Prop :=
  metricTypeCpuUtilization ∈ s.collector.requestedMetrics →
    match r.line with
    | none => s.collector.prevTotal = 0 ∧ s.collector.prevIdle = 0
    | some l => l.stats.total - s.collector.prevTotal = 0 ∨
        l.stats.idle - s.collector.prevIdle ≤ l.stats.total - s.collector.prevTotal

/-- A call reports the difference to what is remembered, or the metric is not
requested. -/
theorem CpuRun.collect_cases {s t : CpuRun} {r : Reading} (hstep : s.collect r = some t) :
    (metricTypeCpuUtilization ∉ s.collector.requestedMetrics ∧ t = s) ∨
    (metricTypeCpuUtilization ∈ s.collector.requestedMetrics ∧
      let current := readCpuStats r.line {}
      t = { collector := { s.collector with prevTotal := current.total, prevIdle := current.idle }
            last := (r.line.map CpuLine.stats).getD s.last
            reports := s.reports ++ [⟨s.last, r.line.map CpuLine.stats,
              usagePercent (current.total - s.collector.prevTotal)
                (current.idle - s.collector.prevIdle)⟩] }) := by
  rw [CpuRun.collect, Option.some_inj] at hstep
  by_cases hreq : metricTypeCpuUtilization ∈ s.collector.requestedMetrics
  · right
    have hne : s.collector.requestedMetrics.isEmpty = false := by
      rw [List.isEmpty_eq_false_iff]
      exact List.ne_nil_of_mem hreq
    rw [ProcStatCollector.collect, hne, if_neg (by simp), if_neg (by simpa using hreq)] at hstep
    exact ⟨hreq, hstep.symm⟩
  · left
    have hself : s.collector.collect r.line r.now = ([], s.collector) := by
      rw [ProcStatCollector.collect]
      split
      · rfl
      · rfl
    rw [hself] at hstep
    refine ⟨hreq, ?_⟩
    rw [← hstep]
    simp

/-- One more report that is a percentage, and right where it should be. -/
theorem Percent.append {s : CpuRun} (h : Percent s) {rep : Report}
    (hrange : 0 ≤ rep.value ∧ rep.value ≤ 100)
    (hvalue : ∀ current, rep.current = some current → Grown rep.previous current →
      rep.value = busyPercent rep.previous current)
    {collector : ProcStatCollector} {last : CpuStats}
    (hlast : collector.prevTotal = last.total ∧ collector.prevIdle = last.idle) :
    Percent { collector := collector, last := last, reports := s.reports ++ [rep] } where
  range := List.forall_mem_append.mpr ⟨h.range, List.forall_mem_singleton.mpr hrange⟩
  value_eq := List.forall_mem_append.mpr ⟨h.value_eq, List.forall_mem_singleton.mpr hvalue⟩
  undisturbed := hlast

theorem Percent.collect {s t : CpuRun} {r : Reading} (h : Percent s) (hok : Regular s r)
    (hstep : s.collect r = some t) : Percent t := by
  obtain ⟨htotal, hidle⟩ := h.undisturbed
  rcases CpuRun.collect_cases hstep with ⟨-, rfl⟩ | ⟨hreq, rfl⟩
  · exact h
  · have hreg := hok hreq
    rcases hline : r.line with _ | l
    · -- nothing is remembered yet, and the read leaves it so
      rw [hline] at hreg
      obtain ⟨htotal0, hidle0⟩ := hreg
      have hzero : usagePercent (0 - s.collector.prevTotal) (0 - s.collector.prevIdle) = 0 := by
        rw [htotal0, hidle0]
        rfl
      refine h.append ?_ (fun _ hcurrent => absurd hcurrent (by simp)) ?_
      · show 0 ≤ usagePercent (0 - s.collector.prevTotal) (0 - s.collector.prevIdle) ∧
          usagePercent (0 - s.collector.prevTotal) (0 - s.collector.prevIdle) ≤ 100
        rw [hzero]
        norm_num
      · simp only [readCpuStats, Option.map_none, Option.getD_none, ← htotal, ← hidle, htotal0,
          hidle0, and_self]
    · rw [hline] at hreg
      refine h.append ?_ (fun current hcurrent hgrown => ?_) ⟨rfl, rfl⟩
      · exact ⟨usagePercent_nonneg _ _, (usagePercent_le_iff _ _).mpr hreg⟩
      · obtain rfl : l.stats = current := Option.some_inj.mp hcurrent
        rw [← hgrown.usagePercent_eq, ← htotal, ← hidle]
        rfl

/-- The first irregular call reports more than 100 or loses the totals. -/
theorem Percent.not_percent {s t : CpuRun} {r : Reading} (h : Percent s) (hno : ¬ Regular s r)
    (hstep : s.collect r = some t) : ¬ Percent t := by
  rw [Regular, Classical.not_imp] at hno
  obtain ⟨hreq, hirr⟩ := hno
  obtain ⟨htotal, hidle⟩ := h.undisturbed
  rcases CpuRun.collect_cases hstep with ⟨hno, -⟩ | ⟨-, rfl⟩
  · exact absurd hreq hno
  · intro hpercent
    rcases hline : r.line with _ | l
    · rw [hline] at hirr hpercent
      obtain ⟨htotal', hidle'⟩ := hpercent.undisturbed
      exact hirr ⟨htotal.trans htotal'.symm, hidle.trans hidle'.symm⟩
    · rw [hline] at hirr hpercent
      have hlast := hpercent.range _ (List.mem_append_right _ (List.mem_singleton.mpr rfl))
      exact hirr ((usagePercent_le_iff _ _).mp hlast.2)

theorem percent_start (requested : List MetricType) :
    Percent { collector := { requestedMetrics := requested } } where
  range _ hr := absurd hr List.not_mem_nil
  value_eq _ hr := absurd hr List.not_mem_nil
  undisturbed := ⟨rfl, rfl⟩

/-- **When utilisation is a percentage.**  Every report of a run is one, the
right one while the counters grow, with failed reads passed over, exactly when
all calls are regular. -/
theorem percent_iff (requested : List MetricType) (readings : List Reading) :
    Run.Along CpuRun.collect Percent { collector := { requestedMetrics := requested } } readings ↔
      Run.Meets CpuRun.collect Regular { collector := { requestedMetrics := requested } }
        readings := by
  obtain ⟨u, hu⟩ := Run.exists_exec (fun (s : CpuRun) (r : Reading) => ⟨_, rfl⟩)
    { collector := { requestedMetrics := requested } } readings
  exact Run.along_iff_meets id Percent.collect Percent.not_percent (percent_start requested) hu

/-- A step back of `iowait` reports 200 %; after a failed read, which itself
reports more than 100 %, the next one is taken from zero (70 % for 90 %). -/
theorem percent_fails :
    let start : CpuRun := { collector := { requestedMetrics := [metricTypeCpuUtilization] } }
    let first : Reading := ⟨some { user := 50, curIdle := 40, iowait := 10 }, 1⟩
    (∃ t, Run.exec CpuRun.collect start
        [first, ⟨some { user := 52, curIdle := 40, iowait := 9 }, 2⟩] = some t ∧
      t.reports.map (fun r => r.value) = [50, 200] ∧ ¬ Percent t) ∧
    ∃ t, Run.exec CpuRun.collect start
        [first, ⟨none, 2⟩, ⟨some { user := 140, curIdle := 50, iowait := 10 }, 3⟩] = some t ∧
      (∃ r ∈ t.reports, 100 < r.value) ∧
      t.reports.getLast? = some ⟨⟨100, 50⟩, some ⟨200, 60⟩, 70⟩ ∧
      busyPercent ⟨100, 50⟩ ⟨200, 60⟩ = 90 ∧ ¬ Percent t := by
  intro start first
  refine ⟨⟨_, rfl, by decide +kernel, fun h => ?_⟩, _, rfl, by decide +kernel, by decide +kernel,
    by decide +kernel, fun h => ?_⟩
  · exact absurd h.range (by decide +kernel)
  · exact absurd h.range (by decide +kernel)

end ProcStatCollector
end Volta
