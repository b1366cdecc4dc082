/-
The collector of package energy (`rapl_collector.h` and `rapl_collector.cc`).

A `double` is an exact rational.  `ENERGY_STATUS` holds the low 32 bits of the
energy spent since power-on; the collector sees the register, the physical
counter is a natural.

* `collect_of_read`, `collect_eq_self` — the two things a call does;
* `Meter` — a collector in use, with what it reported and between which values
  of the physical counter;
* `Accounted` — every report is the advance of the counter modulo 2^32, and the
  reports add up;
* `accounted_iff` — a run is accounted for exactly when the register never
  wraps between two successful reads.
-/
import Volta.Run
import Volta.MetricType
import Mathlib.Algebra.Group.Nat.Defs
import Mathlib.Algebra.BigOperators.Group.List.Basic
import Mathlib.Algebra.Order.Field.Rat
import Mathlib.Tactic.Linarith
import Mathlib.Tactic.Positivity
import Mathlib.Tactic.Ring

namespace Volta

namespace MSR_RAPL

def powerUnit : UInt32 := 0x606

def energyStatus : UInt32 := 0x611

end MSR_RAPL

/-- What a `pread` of the file at a position of `MSR_files_` gives now, `none` when
it is short. -/
abbrev Msr := UInt8 → UInt32 → Option UInt64

structure RaplCollector where
  requestedMetrics : List MetricType := []
  initialized : Bool := false
  powerUnits : Double := 0
  energyUnits : Double := 0
  timeUnits : Double := 0
  /-- The number of `MSR_files_`. -/
  msrFiles : ℕ := 0
  lastValue : Double := 0

namespace RaplCollector

def satisfiable : List MetricType := [metricTypeCpuPowerPackage]

/-- `none` is an `MSR_Read_Exception`. -/
def readMSR (c : RaplCollector) (pread : Msr) (core : UInt8) (offset : UInt32) : Option UInt64 :=
  if core.toNat + 1 > c.msrFiles then none else pread core offset

/-- `opened` files are opened by `OpenMSR`, which throws when there is none. -/
def init (c : RaplCollector) (opened : ℕ) (pread : Msr) : Bool × RaplCollector :=
  let c := { c with msrFiles := opened }
  if opened = 0 then (false, c)
  else
    match c.readMSR pread 0 MSR_RAPL.powerUnit with
    | none => (false, c)
    | some readout =>
        let c := { c with
          powerUnits := (1 / 2) ^ (readout &&& 0xf).toNat
          energyUnits := (1 / 2) ^ ((readout >>> 8) &&& 0x1f).toNat
          timeUnits := (1 / 2) ^ ((readout >>> 16) &&& 0xf).toNat }
        match c.readMSR pread 0 MSR_RAPL.energyStatus with
        | none => (false, c)
        | some readout =>
            (true, { c with lastValue := c.energyUnits * readout.toNat, initialized := true })

def collect (c : RaplCollector) (pread : Msr) (now : Int64) : List Metric × RaplCollector :=
  if !c.initialized || c.requestedMetrics.isEmpty then ([], c)
  else if metricTypeCpuPowerPackage ∉ c.requestedMetrics then ([], c)
  else
    match c.readMSR pread 0 MSR_RAPL.energyStatus with
    | none => ([], c)
    | some readout =>
        let value := c.energyUnits * readout.toNat
        ([{ type := metricTypeCpuPowerPackage
            devId := some (.cpu { socketIndex := 0, coreIndex := 0 })
            value := value - c.lastValue, timestamp := now }],
          { c with lastValue := value })

/-- `Init` may set anything but the requested metrics, and leaves the table that
was opened. -/
theorem exists_init_eq (c : RaplCollector) (opened : ℕ) (pread : Msr) :
    ∃ power energy time last ok, (c.init opened pread).2
      = { c with
          initialized := ok, powerUnits := power, energyUnits := energy, timeUnits := time
          msrFiles := opened, lastValue := last } := by
  rw [init]
  dsimp only
  split
  · exact ⟨_, _, _, _, _, rfl⟩
  · split
    · exact ⟨_, _, _, _, _, rfl⟩
    · split
      · exact ⟨_, _, _, _, _, rfl⟩
      · exact ⟨_, _, _, _, _, rfl⟩

/-- A call may set the last value only. -/
theorem exists_collect_eq (c : RaplCollector) (pread : Msr) (now : Int64) :
    ∃ last, (c.collect pread now).2 = { c with lastValue := last } := by
  rw [collect]
  split
  · exact ⟨_, rfl⟩
  · split
    · exact ⟨_, rfl⟩
    · split
      · exact ⟨_, rfl⟩
      · exact ⟨_, rfl⟩

/-- The collector is initialised and reads the package energy. -/
structure Active (c : RaplCollector) : Prop where
  initialized : c.initialized = true
  msrFiles_pos : 0 < c.msrFiles

theorem Active.readMSR_eq {c : RaplCollector} (h : c.Active) (pread : Msr) (offset : UInt32) :
    c.readMSR pread 0 offset = pread 0 offset :=
  if_neg (by simpa using h.msrFiles_pos.ne')

theorem Active.collect_of_read {c : RaplCollector} (h : c.Active)
    (hreq : metricTypeCpuPowerPackage ∈ c.requestedMetrics) {pread : Msr} {readout : UInt64}
    (hread : pread 0 MSR_RAPL.energyStatus = some readout) (now : Int64) :
    c.collect pread now
      = ([{ type := metricTypeCpuPowerPackage
            devId := some (.cpu { socketIndex := 0, coreIndex := 0 })
            value := c.energyUnits * readout.toNat - c.lastValue, timestamp := now }],
          { c with lastValue := c.energyUnits * readout.toNat }) := by
  have hne : c.requestedMetrics.isEmpty = false := by
    rw [List.isEmpty_eq_false_iff]
    exact List.ne_nil_of_mem hreq
  rw [collect, h.initialized, hne, if_neg (by simp), if_neg (by simpa using hreq),
    h.readMSR_eq, hread]

/-- A call that does not read, or fails to, reports nothing and forgets nothing. -/
theorem collect_eq_self (c : RaplCollector) {pread : Msr}
    (h : metricTypeCpuPowerPackage ∉ c.requestedMetrics ∨
      pread 0 MSR_RAPL.energyStatus = none) (now : Int64) : c.collect pread now = ([], c) := by
  rw [collect]
  split
  · rfl
  · split
    · rfl
    · rename_i hreq
      have hnone : c.readMSR pread 0 MSR_RAPL.energyStatus = none := by
        rw [readMSR]
        split
        · rfl
        · exact h.resolve_left hreq
      rw [hnone]

/-- `ENERGY_STATUS` when the counter stands at `total`: bits 31:0. -/
def energyRegister (total : ℕ) : UInt64 := UInt64.ofNat (total % 2 ^ 32)

/-- The register file at the time of `Init`. -/
def msrAt (units : UInt64) (total : ℕ) : Msr := fun _ offset =>
  if offset = MSR_RAPL.powerUnit then some units
  else if offset = MSR_RAPL.energyStatus then some (energyRegister total)
  else none

/-- One call of `Collect`: the counter at that time if the read succeeds. -/
structure Reading where
  total : Option ℕ
  now : Int64 := 0

def Reading.pread (r : Reading) : Msr := fun _ offset =>
  if offset = MSR_RAPL.energyStatus then r.total.map energyRegister else none

/-- A reported value, and the counter at the read before and at its own. -/
structure Report where
  previous : ℕ
  current : ℕ
  value : Double

/-- A collector since its `Init`, when the counter stood at `start`. -/
structure Meter where
  collector : RaplCollector
  start : ℕ
  /-- The counter at the last successful read. -/
  last : ℕ
  reports : List Report := []

def Meter.ofInit (collector : RaplCollector) (total : ℕ) : Meter where
  collector := collector
  start := total
  last := total

def Meter.collect (s : Meter) (r : Reading) : Option Meter :=
  let (metrics, collector) := s.collector.collect r.pread r.now
  some
    { collector := collector
      start := s.start
      last := if metrics.isEmpty then s.last else r.total.getD s.last
      reports := s.reports ++ metrics.map fun m => ⟨s.last, r.total.getD s.last, m.value⟩ }

/-- The difference of two register values modulo 2^32. -/
def counterDiff (current previous : ℕ) : ℕ :=
  (current % 2 ^ 32 + 2 ^ 32 - previous % 2 ^ 32) % 2 ^ 32

/-- Every report is `unit` times the difference to the previous read, and the
reports add up if the counter never makes a whole turn between two reads. -/
structure Accounted (unit : ℚ) (s : Meter) : Prop where
  value_eq : ∀ r ∈ s.reports, r.value = unit * counterDiff r.current r.previous
  nonneg : ∀ r ∈ s.reports, 0 ≤ r.value
  sum_eq : (∀ r ∈ s.reports, r.previous ≤ r.current ∧ r.current < r.previous + 2 ^ 32) →
    (s.reports.map fun r => r.value).sum = unit * ((s.last : ℚ) - s.start)

/-- The register does not stand lower than at the last successful read. -/
def NotWrapped (s : Meter) (r : Reading) : Prop :=
  metricTypeCpuPowerPackage ∈ s.collector.requestedMetrics →
    ∀ total, r.total = some total → s.last % 2 ^ 32 ≤ total % 2 ^ 32

theorem toNat_energyRegister (total : ℕ) : (energyRegister total).toNat = total % 2 ^ 32 := by
  rw [energyRegister, UInt64.toNat_ofNat']
  omega

theorem counterDiff_of_le {current previous : ℕ} (h : previous % 2 ^ 32 ≤ current % 2 ^ 32) :
    counterDiff current previous = current % 2 ^ 32 - previous % 2 ^ 32 := by
  rw [counterDiff]
  omega

/-- What the collector remembers of the run: the register at the last
successful read, in joules. -/
structure Remembers (unit : ℚ) (s : Meter) : Prop where
  active : s.collector.Active
  energyUnits_eq : s.collector.energyUnits = unit
  lastValue_eq : s.collector.lastValue = unit * (s.last % 2 ^ 32 : ℕ)

/-- A call reports the difference of the registers, as numbers, or changes
nothing. -/
theorem Remembers.collect_cases {unit : ℚ} {s t : Meter} {r : Reading} (h : Remembers unit s)
    (hstep : s.collect r = some t) :
    ((metricTypeCpuPowerPackage ∉ s.collector.requestedMetrics ∨ r.total = none) ∧ t = s) ∨
    ∃ total, metricTypeCpuPowerPackage ∈ s.collector.requestedMetrics ∧ r.total = some total ∧
      t = { collector := { s.collector with lastValue := unit * (total % 2 ^ 32 : ℕ) }
            start := s.start
            last := total
            reports := s.reports ++ [⟨s.last, total,
              unit * ((total % 2 ^ 32 : ℕ) - (s.last % 2 ^ 32 : ℕ) : ℚ)⟩] } := by
  have hself : metricTypeCpuPowerPackage ∉ s.collector.requestedMetrics ∨
      r.pread 0 MSR_RAPL.energyStatus = none → t = s := by
    intro hno
    rw [Meter.collect, collect_eq_self s.collector hno r.now, Option.some_inj] at hstep
    rw [← hstep]
    simp
  by_cases hreq : metricTypeCpuPowerPackage ∈ s.collector.requestedMetrics
  · rcases htotal : r.total with _ | total
    · exact .inl ⟨.inr rfl, hself (.inr (by simp [Reading.pread, htotal]))⟩
    · right
      have hread : r.pread 0 MSR_RAPL.energyStatus = some (energyRegister total) := by
        simp [Reading.pread, htotal]
      rw [Meter.collect, h.active.collect_of_read hreq hread r.now, Option.some_inj] at hstep
      refine ⟨total, hreq, rfl, ?_⟩
      obtain rfl := h.energyUnits_eq
      rw [← hstep, h.lastValue_eq, toNat_energyRegister, htotal, mul_sub]
      rfl
  · exact .inl ⟨.inl hreq, hself (.inl hreq)⟩

theorem Remembers.collect {unit : ℚ} {s t : Meter} {r : Reading} (h : Remembers unit s)
    (hstep : s.collect r = some t) : Remembers unit t := by
  rcases h.collect_cases hstep with ⟨-, rfl⟩ | ⟨total, -, -, rfl⟩
  · exact h
  · exact ⟨⟨h.active.initialized, h.active.msrFiles_pos⟩, h.energyUnits_eq, rfl⟩

theorem Remembers.accounted {unit : ℚ} (hunit : 0 ≤ unit) {s t : Meter} {r : Reading}
    (h : Remembers unit s) (hacc : Accounted unit s) (hok : NotWrapped s r)
    (hstep : s.collect r = some t) : Accounted unit t := by
  rcases h.collect_cases hstep with ⟨-, rfl⟩ | ⟨total, hreq, htotal, rfl⟩
  · exact hacc
  · have hle := hok hreq total htotal
    have hvalue : unit * ((total % 2 ^ 32 : ℕ) - (s.last % 2 ^ 32 : ℕ) : ℚ)
        = unit * counterDiff total s.last := by
      rw [counterDiff_of_le hle, Nat.cast_sub hle]
    refine ⟨?_, ?_, ?_⟩
    · exact List.forall_mem_append.mpr ⟨hacc.value_eq, List.forall_mem_singleton.mpr hvalue⟩
    · refine List.forall_mem_append.mpr ⟨hacc.nonneg, List.forall_mem_singleton.mpr ?_⟩
      show 0 ≤ unit * ((total % 2 ^ 32 : ℕ) - (s.last % 2 ^ 32 : ℕ) : ℚ)
      rw [hvalue]
      exact mul_nonneg hunit (Nat.cast_nonneg _)
    · intro hturn
      obtain ⟨hold, hnew⟩ := List.forall_mem_append.mp hturn
      have hsum := hacc.sum_eq hold
      obtain ⟨hadv, hlt⟩ := List.forall_mem_singleton.mp hnew
      have hdiff : counterDiff total s.last = total - s.last := by
        rw [counterDiff_of_le hle]
        dsimp only at hadv hlt
        omega
      simp only [List.map_append, List.map_cons, List.map_nil, List.sum_append, List.sum_cons,
        List.sum_nil, add_zero]
      rw [hsum, hvalue, hdiff, Nat.cast_sub hadv]
      ring

/-- A wrapped register is reported as a negative amount of energy. -/
theorem Remembers.not_accounted {unit : ℚ} (hunit : 0 < unit) {s t : Meter} {r : Reading}
    (h : Remembers unit s) (hno : ¬ NotWrapped s r) (hstep : s.collect r = some t) :
    ¬ Accounted unit t := by
  simp only [NotWrapped, not_forall, not_le] at hno
  obtain ⟨hreq, total, htotal, hlt⟩ := hno
  rcases h.collect_cases hstep with ⟨hno, -⟩ | ⟨total', -, htotal', rfl⟩
  · rcases hno with hno | hno
    · exact absurd hreq hno
    · rw [htotal] at hno
      exact absurd hno (by simp)
  · obtain rfl : total = total' := Option.some_inj.mp (htotal.symm.trans htotal')
    intro hacc
    have hnonneg := hacc.nonneg _ (List.mem_append_right _ (List.mem_singleton.mpr rfl))
    have hneg : ((total % 2 ^ 32 : ℕ) - (s.last % 2 ^ 32 : ℕ) : ℚ) < 0 :=
      sub_neg.mpr (Nat.cast_lt.mpr hlt)
    exact absurd hnonneg (not_le.mpr (mul_neg_of_pos_of_neg hunit hneg))

/-- The energy unit is 2 to the minus bits 12:8 of `POWER_UNIT`. -/
def energyExponent (units : UInt64) : ℕ := ((units >>> 8) &&& 0x1f).toNat

theorem remembers_init {c : RaplCollector} {opened : ℕ} {units : UInt64} {total : ℕ}
    (hinit : (c.init opened (msrAt units total)).1 = true) :
    Remembers ((1 / 2) ^ energyExponent units)
      (Meter.ofInit (c.init opened (msrAt units total)).2 total) := by
  have hopened : opened ≠ 0 := by
    rintro rfl
    rw [init] at hinit
    exact absurd hinit (by simp)
  have hread : ∀ (d : RaplCollector) offset, d.msrFiles = opened →
      d.readMSR (msrAt units total) 0 offset = msrAt units total 0 offset := by
    intro d offset hd
    rw [readMSR, if_neg (by simpa [hd] using hopened)]
  have hunits : msrAt units total 0 MSR_RAPL.powerUnit = some units := rfl
  have henergy : msrAt units total 0 MSR_RAPL.energyStatus = some (energyRegister total) := rfl
  rw [init, if_neg hopened, hread _ _ rfl, hunits]
  dsimp only
  rw [hread _ _ rfl, henergy]
  refine ⟨⟨rfl, Nat.pos_of_ne_zero hopened⟩, rfl, ?_⟩
  show (1 / 2) ^ energyExponent units * ((energyRegister total).toNat : ℚ) = _
  rw [toNat_energyRegister]
  rfl

theorem accounted_ofInit (unit : ℚ) (collector : RaplCollector) (total : ℕ) :
    Accounted unit (Meter.ofInit collector total) where
  value_eq _ hr := absurd hr List.not_mem_nil
  nonneg _ hr := absurd hr List.not_mem_nil
  sum_eq _ := by
    show (0 : ℚ) = _ * ((total : ℚ) - total)
    rw [sub_self, mul_zero]

/-- **When package energy is accounted for.**  After a successful `Init`, every
report is the advance of the register modulo 2^32 and the reports sum up to the
advance of the counter, through failed reads, exactly when no read finds the
register below the one before. -/
theorem accounted_iff (c : RaplCollector) {opened : ℕ} {units : UInt64} {total : ℕ}
    (hinit : (c.init opened (msrAt units total)).1 = true) (readings : List Reading) :
    Run.Along Meter.collect (Accounted ((1 / 2) ^ energyExponent units))
        (Meter.ofInit (c.init opened (msrAt units total)).2 total) readings ↔
      Run.Meets Meter.collect NotWrapped
        (Meter.ofInit (c.init opened (msrAt units total)).2 total) readings := by
  have hpos : (0 : ℚ) < (1 / 2) ^ energyExponent units := by positivity
  obtain ⟨u, hu⟩ := Run.exists_exec (fun (s : Meter) (r : Reading) => ⟨_, rfl⟩)
    (Meter.ofInit (c.init opened (msrAt units total)).2 total) readings
  exact Run.along_iff_meets
    (I := fun s => Remembers ((1 / 2) ^ energyExponent units) s ∧
      Accounted ((1 / 2) ^ energyExponent units) s)
    (fun h => h.2) (fun h hok hstep => ⟨h.1.collect hstep, h.1.accounted hpos.le h.2 hok hstep⟩)
    (fun h hno hstep => h.1.not_accounted hpos hno hstep)
    ⟨remembers_init hinit, accounted_ofInit _ _ _⟩ hu

/-- A failed read between two that advance, in units of 2^-14 joules. -/
theorem accounted_iff_failed_read :
    let c : RaplCollector := { requestedMetrics := [metricTypeCpuPowerPackage] }
    Run.Along Meter.collect (Accounted ((1 / 2) ^ energyExponent 0xe00))
      (Meter.ofInit (c.init 1 (msrAt 0xe00 5)).2 5) [⟨some 10, 1⟩, ⟨none, 2⟩, ⟨some 30, 3⟩] := by
  intro c
  refine (accounted_iff c rfl _).mpr ⟨?_, ?_⟩
  · rintro - _ ⟨⟩
    decide
  · rintro _ ⟨⟩
    refine ⟨fun _ _ h => absurd h (by simp), ?_⟩
    rintro _ ⟨⟩
    refine ⟨?_, fun _ _ => trivial⟩
    rintro - _ ⟨⟩
    decide

/-- The register goes from 2^32 - 1 to 1: two units of energy are reported as
a large negative amount. -/
theorem not_accounted_of_wrap :
    let c : RaplCollector := { requestedMetrics := [metricTypeCpuPowerPackage] }
    let start := Meter.ofInit (c.init 1 (msrAt 0 (2 ^ 32 - 1))).2 (2 ^ 32 - 1)
    (c.init 1 (msrAt 0 (2 ^ 32 - 1))).1 = true ∧
    ∃ t, Run.exec Meter.collect start [⟨some (2 ^ 32 + 1), 1⟩] = some t ∧
      t.reports.map (fun r => r.value) = [-4294967294] ∧ ¬ Accounted 1 t := by
  intro c start
  refine ⟨rfl, _, rfl, by decide +kernel, fun h => ?_⟩
  have hnonneg := h.nonneg _ (List.mem_singleton.mpr rfl)
  exact absurd hnonneg (by decide +kernel)

end RaplCollector
end Volta
