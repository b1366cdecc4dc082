/-
The loop of the agent (`Scheduler::Run` in `scheduler.cc`).

One thread initialises the collectors, then calls them in turn until `g_running`
is cleared, adds each batch to the buffer and dumps it, and ends the dump.  The
commands of the queue come to the exporter on another thread, between any two of
its steps.  The dashboard that it prints changes nothing.

* `Turns` — every collector is initialised once, then all are called in turn;
* `Segmented` — what went into the dumps are segments of what was added;
* `dumps_are_segments` — so each file that was opened holds one row for each
  metric that was added while its dump was on;
* `stops` — once `g_running` is cleared the thread finishes its round and ends
  the dump.
-/
import Volta.CollectorRegistry
import Volta.ExportCommand
import Volta.Exporter
import Volta.Segments

namespace Volta

namespace Scheduler

open CollectorRegistry (Collection Scheduled Filtered)

/-- Where the thread is in `Run`. -/
inductive Pc where
  | init (i : ℕ)
  | loop
  | collect (i : ℕ)
  | addMetrics (i : ℕ) (metrics : List Metric)
  | dump (i : ℕ) (metrics : List Metric)
  | endDump
  | returned

structure State where
  collection : Collection
  exporter : Exporter.State
  /-- `g_running`. -/
  running : Bool := true
  pc : Pc := .init 0
  /-- History: the collectors that `Init` was called on, and `Collect`. -/
  inits : List ℕ := []
  turns : List ℕ := []
  /-- History: the metrics given to `AddMetrics`. -/
  added : List Metric := []

def init (collectors : List Collector) (exporter : Exporter.State) : State :=
  { collection := { collectors := collectors }, exporter := exporter }

section Printing

variable (printDouble : Double → String)

/-- One step of the thread, on a machine that answers its calls. -/
def runStep (s : State) (m : Machine) : Option State :=
  match s.pc with
  | .init i =>
      match s.collection.step (.init i m) with
      | some collection =>
          some { s with collection := collection, inits := s.inits ++ [i], pc := .init (i + 1) }
      | none => some { s with pc := .loop }
  | .loop => some { s with pc := if s.running then .collect 0 else .endDump }
  | .collect i =>
      match s.collection.collectors[i]? with
      | some c =>
          (s.collection.step (.collect i m)).map fun collection =>
            { s with
              collection := collection
              turns := s.turns ++ [i]
              pc := .addMetrics i (c.collect m).1 }
      -- the dashboard is printed, and the thread sleeps
      | none => some { s with pc := .loop }
  | .addMetrics i metrics => some { s with added := s.added ++ metrics, pc := .dump i metrics }
  | .dump i metrics =>
      some
        { s with exporter := Exporter.dump printDouble s.exporter metrics, pc := .collect (i + 1) }
  | .endDump => some { s with exporter := Exporter.endDump s.exporter, pc := .returned }
  | .returned => none

/-- What a command calls; the rest is what the file system and the clock say. -/
def callExporter (exporter : Exporter.State) (fileExists : String → Bool) (now : String)
    (opens : Bool) : ExportCommand.Call → Exporter.State
  | .startDump path =>
      Exporter.startDump exporter (path.map String.ofList) fileExists now opens
  | .endDump => Exporter.endDump exporter

inductive Action where
  | run (m : Machine)
  /-- SIGINT or SIGTERM. -/
  | signal
  | command (call : ExportCommand.Call) (fileExists : String → Bool) (now : String) (opens : Bool)

def step (s : State) : Action → Option State
  | .run m => runStep printDouble s m
  | .signal => some { s with running := false }
  | .command call fileExists now opens =>
      match s.pc with
      | .init _ => none
      -- `listen` is past; a callback may outlast `stop_listening`
      | _ => some { s with exporter := callExporter s.exporter fileExists now opens call }

end Printing

def State.collectors (s : State) : List Collector := s.collection.collectors

/-- What the collectors returned, in order. -/
def State.collected (s : State) : List Metric := s.collection.batches.flatMap Prod.snd

/-- What `Collect` has returned and `AddMetrics` has not got. -/
def Pc.hand : Pc → List Metric
  | .addMetrics _ metrics => metrics
  | _ => []

/-- What `AddMetrics` has got and `Dump` has not. -/
def Pc.toDump : Pc → List Metric
  | .dump _ metrics => metrics
  | _ => []

/-! ### What a step can be -/

section Steps

variable {printDouble : Double → String} {s t : State}

/-- The moves of the thread. -/
inductive Moves (printDouble : Double → String) (s : State) (m : Machine) : State → Prop where
  | init {i : ℕ} {c : Collector} (hpc : s.pc = .init i) (hc : s.collectors[i]? = some c) :
      Moves printDouble s m
        { s with
          collection := { s.collection with collectors := s.collectors.set i (c.init m) }
          inits := s.inits ++ [i]
          pc := .init (i + 1) }
  | listen {i : ℕ} (hpc : s.pc = .init i) (hc : s.collectors[i]? = none) :
      Moves printDouble s m { s with pc := .loop }
  | loop (hpc : s.pc = .loop) (hrunning : s.running = true) :
      Moves printDouble s m { s with pc := .collect 0 }
  | leave (hpc : s.pc = .loop) (hrunning : s.running = false) :
      Moves printDouble s m { s with pc := .endDump }
  | collect {i : ℕ} {c : Collector} (hpc : s.pc = .collect i) (hc : s.collectors[i]? = some c) :
      Moves printDouble s m
        { s with
          collection :=
            { collectors := s.collectors.set i (c.collect m).2
              batches := s.collection.batches ++ [(c, (c.collect m).1)] }
          turns := s.turns ++ [i]
          pc := .addMetrics i (c.collect m).1 }
  | sleep {i : ℕ} (hpc : s.pc = .collect i) (hc : s.collectors[i]? = none) :
      Moves printDouble s m { s with pc := .loop }
  | addMetrics {i : ℕ} {metrics : List Metric} (hpc : s.pc = .addMetrics i metrics) :
      Moves printDouble s m { s with added := s.added ++ metrics, pc := .dump i metrics }
  | dump {i : ℕ} {metrics : List Metric} (hpc : s.pc = .dump i metrics) :
      Moves printDouble s m
        { s with
          exporter := Exporter.dump printDouble s.exporter metrics
          pc := .collect (i + 1) }
  | endDump (hpc : s.pc = .endDump) :
      Moves printDouble s m
        { s with exporter := Exporter.endDump s.exporter, pc := .returned }

theorem moves_of_runStep {m : Machine} (h : runStep printDouble s m = some t) :
    Moves printDouble s m t := by
  rw [runStep] at h
  split at h
  · rename_i i hpc
    cases hc : s.collection.collectors[i]? with
    | some c =>
      simp only [Collection.step, hc, Option.map_some] at h
      cases h
      exact .init hpc hc
    | none =>
      simp only [Collection.step, hc, Option.map_none] at h
      cases h
      exact .listen hpc hc
  · rename_i hpc
    cases h
    cases hrunning : s.running with
    | true =>
      rw [if_pos rfl, ← hrunning]
      exact .loop hpc hrunning
    | false =>
      rw [if_neg (by simp), ← hrunning]
      exact .leave hpc hrunning
  · rename_i i hpc
    cases hc : s.collection.collectors[i]? with
    | some c =>
      simp only [Collection.step, hc, Option.map_some] at h
      cases h
      exact .collect hpc hc
    | none =>
      simp only [hc] at h
      cases h
      exact .sleep hpc hc
  · rename_i hpc
    cases h
    exact .addMetrics hpc
  · rename_i hpc
    cases h
    exact .dump hpc
  · rename_i hpc
    cases h
    exact .endDump hpc
  · exact absurd h (by simp)

/-- A command changes nothing but the exporter. -/
theorem command_cases {call : ExportCommand.Call} {fileExists : String → Bool} {now : String}
    {opens : Bool} (h : step printDouble s (.command call fileExists now opens) = some t) :
    (∀ i, s.pc ≠ .init i) ∧
      t = { s with exporter := callExporter s.exporter fileExists now opens call } := by
  simp only [step] at h
  split at h
  · exact absurd h (by simp)
  · rename_i hpc
    cases h
    exact ⟨fun i hi => hpc i hi, rfl⟩

end Steps

/-! ### Turns -/

/-- The collector that comes next is the one after the `n` turns made. -/
def Pc.Due (k : ℕ) : Pc → ℕ → Prop
  | .collect i, n => i ≤ k ∧ n % k = i % k
  | .addMetrics i _, n | .dump i _, n => i < k ∧ n % k = (i + 1) % k
  | _, n => n % k = 0

def Pc.inits (k : ℕ) : Pc → List ℕ
  | .init i => List.range i
  | _ => List.range k

/-- Every collector is initialised once before any is called, then they are called
in turn. -/
structure Turns (s : State) : Prop where
  inits_eq : s.inits = s.pc.inits s.collectors.length
  init_le : ∀ i, s.pc = .init i → i ≤ s.collectors.length ∧ s.turns = []
  turns_eq : s.turns = (List.range s.turns.length).map fun n => n % s.collectors.length
  due : s.pc.Due s.collectors.length s.turns.length

theorem turns_init (collectors : List Collector) (exporter : Exporter.State) :
    Turns (init collectors exporter) where
  inits_eq := rfl
  init_le i h := by
    cases h
    exact ⟨Nat.zero_le _, rfl⟩
  turns_eq := rfl
  due := Nat.zero_mod _

theorem Turns.runStep {printDouble : Double → String} {s t : State} {m : Machine}
    (h : Turns s) (ht : Moves printDouble s m t) : Turns t := by
  have hdue := h.due
  have hinits := h.inits_eq
  cases ht with
  | init hpc hc =>
    rename_i i c
    obtain ⟨hle, hturns⟩ := h.init_le i hpc
    have hlt : i < s.collectors.length := (List.getElem?_eq_some_iff.mp hc).1
    have hlen : (s.collectors.set i (c.init m)).length = s.collectors.length := List.length_set
    rw [hpc] at hinits hdue
    refine ⟨?_, fun j hj => ?_, ?_, ?_⟩
    · show s.inits ++ [i] = List.range (i + 1)
      rw [hinits, List.range_succ]
      rfl
    · cases hj
      show i + 1 ≤ (s.collectors.set i (c.init m)).length ∧ _
      exact ⟨hlen ▸ hlt, hturns⟩
    · show s.turns = (List.range s.turns.length).map
        fun n => n % (s.collectors.set i (c.init m)).length
      rw [hturns]
      rfl
    · show s.turns.length % (s.collectors.set i (c.init m)).length = 0
      rw [hturns]
      exact Nat.zero_mod _
  | listen hpc hc =>
    rename_i i
    obtain ⟨hle, hturns⟩ := h.init_le i hpc
    have hge : s.collectors.length ≤ i := List.getElem?_eq_none_iff.mp hc
    rw [hpc] at hinits hdue
    refine ⟨?_, nofun, h.turns_eq, hdue⟩
    rw [show i = s.collectors.length from Nat.le_antisymm hle hge] at hinits
    exact hinits
  | loop hpc _ =>
    rw [hpc] at hinits hdue
    exact ⟨hinits, nofun, h.turns_eq, Nat.zero_le _, hdue.trans (Nat.zero_mod _).symm⟩
  | leave hpc _ =>
    rw [hpc] at hinits hdue
    exact ⟨hinits, nofun, h.turns_eq, hdue⟩
  | collect hpc hc =>
    rename_i i c
    have hlt : i < s.collectors.length := (List.getElem?_eq_some_iff.mp hc).1
    have hlen : (s.collectors.set i (c.collect m).2).length = s.collectors.length :=
      List.length_set
    rw [hpc] at hinits hdue
    have hmod : s.turns.length % s.collectors.length = i := by
      rw [hdue.2, Nat.mod_eq_of_lt hlt]
    refine ⟨?_, nofun, ?_, ?_⟩
    · show s.inits = List.range (s.collectors.set i (c.collect m).2).length
      rw [hlen]
      exact hinits
    · show s.turns ++ [i] = (List.range (s.turns ++ [i]).length).map
        fun n => n % (s.collectors.set i (c.collect m).2).length
      rw [hlen, List.length_append, List.length_singleton, List.range_succ, List.map_append,
        ← h.turns_eq, List.map_singleton, hmod]
    · show i < (s.collectors.set i (c.collect m).2).length ∧
        (s.turns ++ [i]).length % (s.collectors.set i (c.collect m).2).length = _
      rw [hlen, List.length_append, List.length_singleton]
      refine ⟨hlt, ?_⟩
      show _ = (i + 1) % (s.collectors.set i (c.collect m).2).length
      rw [hlen, Nat.add_mod, hmod, Nat.add_mod i 1, Nat.mod_eq_of_lt hlt]
  | sleep hpc hc =>
    have hge := List.getElem?_eq_none_iff.mp hc
    rw [hpc] at hinits hdue
    refine ⟨hinits, nofun, h.turns_eq, ?_⟩
    show s.turns.length % s.collectors.length = 0
    rw [hdue.2, Nat.le_antisymm hdue.1 hge, Nat.mod_self]
  | addMetrics hpc =>
    rw [hpc] at hinits hdue
    exact ⟨hinits, nofun, h.turns_eq, hdue⟩
  | dump hpc =>
    rw [hpc] at hinits hdue
    exact ⟨hinits, nofun, h.turns_eq, hdue.1, hdue.2⟩
  | endDump hpc =>
    rw [hpc] at hinits hdue
    exact ⟨hinits, nofun, h.turns_eq, hdue⟩

theorem Turns.step {printDouble : Double → String} {s t : State} {a : Action} (h : Turns s)
    (ht : Scheduler.step printDouble s a = some t) : Turns t := by
  cases a with
  | run m => exact h.runStep (moves_of_runStep ht)
  | signal =>
    cases ht
    exact ⟨h.inits_eq, h.init_le, h.turns_eq, h.due⟩
  | command call fileExists now opens =>
    obtain ⟨-, rfl⟩ := command_cases ht
    exact ⟨h.inits_eq, h.init_le, h.turns_eq, h.due⟩

/-! ### Dumps -/

section Dumps

open Segments (InOrder)

/-- `passed` are the metrics given to `Dump`, dumping or not.  The dumps that have
ended are segments of them, in order, and the one that is on has all since its
start. -/
def Segmented (passed : List Metric) (e : Exporter.State) : Prop :=
  ∃ (ps : List (ℕ × ℕ)) (c : ℕ), InOrder ps ∧ (∀ p ∈ ps, p.1 ≤ p.2 ∧ p.2 ≤ c) ∧
    c ≤ passed.length ∧
    e.ended.reverse.map Exporter.Opening.metrics = ps.map (Segments.segment passed) ∧
    ∀ o, e.current = some o → o.metrics = passed.drop c

theorem segmented_init (dumpDir : String) (fileExists : String → Bool)
    (files : String → Option String) :
    Segmented [] (Exporter.init dumpDir fileExists files) :=
  ⟨[], 0, List.Pairwise.nil, nofun, Nat.le_refl 0, rfl, nofun⟩

variable {passed : List Metric} {e : Exporter.State}

theorem Segmented.dump (h : Segmented passed e) (printDouble : Double → String)
    (metrics : List Metric) :
    Segmented (passed ++ metrics) (Exporter.dump printDouble e metrics) := by
  obtain ⟨ps, c, hord, hps, hc, hended, hcurrent⟩ := h
  refine ⟨ps, c, hord, hps, ?_, ?_, fun o ho => ?_⟩
  · rw [List.length_append]
    omega
  · rw [(Exporter.dump_history printDouble e metrics).1, hended]
    refine List.map_congr_left fun p hp => ?_
    rw [Segments.segment, Segments.segment, List.take_append_of_le_length ((hps p hp).2.trans hc)]
  · obtain ⟨o', ho', rfl⟩ := Option.map_eq_some_iff.mp ho
    show o'.metrics ++ metrics = _
    rw [hcurrent o' ho', List.drop_append_of_le_length hc]

/-- The dump that is on is over; the next will start where it ends. -/
theorem Segmented.endDump (h : Segmented passed e) : Segmented passed (Exporter.endDump e) := by
  obtain ⟨ps, c, hord, hps, hc, hended, hcurrent⟩ := h
  have hps' : ∀ p ∈ ps, p.1 ≤ p.2 ∧ p.2 ≤ passed.length :=
    fun p hp => ⟨(hps p hp).1, (hps p hp).2.trans hc⟩
  cases ho : e.current with
  | none =>
    refine ⟨ps, passed.length, hord, hps', Nat.le_refl _, ?_, nofun⟩
    show (e.current.toList ++ e.ended).reverse.map _ = _
    rw [ho]
    exact hended
  | some o =>
    refine ⟨ps ++ [(c, passed.length)], passed.length, ?_, ?_, Nat.le_refl _, ?_, nofun⟩
    · refine List.pairwise_append.mpr ⟨hord, List.pairwise_singleton _ _, fun p hp q hq => ?_⟩
      rw [List.mem_singleton.mp hq]
      exact (hps p hp).2
    · exact List.forall_mem_append.mpr
        ⟨hps', List.forall_mem_singleton.mpr ⟨hc, Nat.le_refl _⟩⟩
    · show (e.current.toList ++ e.ended).reverse.map _ = _
      rw [ho, Option.toList_some, List.reverse_append, List.map_append, hended, List.map_append,
        List.map_singleton, Segments.segment, List.take_length]
      show _ ++ [o.metrics] = _
      rw [hcurrent o ho]

/-- A dump that starts has nothing yet. -/
theorem Segmented.startDump (h : Segmented passed e) (dumpDirOverload : Option String)
    (fileExists : String → Bool) (now : String) (opens : Bool) :
    Segmented passed (Exporter.startDump e dumpDirOverload fileExists now opens) := by
  obtain ⟨ps, c, hord, hps, hc, hended, hcurrent⟩ := h
  obtain ⟨hended', hcurrent'⟩ :=
    Exporter.startDump_history e dumpDirOverload fileExists now opens
  rw [← hended'] at hended
  obtain heq | ⟨path, heq⟩ := hcurrent'
  · exact ⟨ps, c, hord, hps, hc, hended, fun o ho => hcurrent o (heq ▸ ho)⟩
  · refine ⟨ps, passed.length, hord, fun p hp => ⟨(hps p hp).1, (hps p hp).2.trans hc⟩,
      Nat.le_refl _, hended, fun o ho => ?_⟩
    rw [heq] at ho
    cases ho
    exact List.drop_length.symm

theorem Segmented.callExporter (h : Segmented passed e) (fileExists : String → Bool)
    (now : String) (opens : Bool) (call : ExportCommand.Call) :
    Segmented passed (callExporter e fileExists now opens call) := by
  cases call with
  | startDump path => exact h.startDump (path.map String.ofList) fileExists now opens
  | endDump => exact h.endDump

end Dumps

/-! ### The invariant -/

/-- What the collectors return goes to `AddMetrics`, then to `Dump`. -/
structure Inv (requested : List MetricType) (s : State) : Prop where
  turns : Turns s
  scheduled : Scheduled requested s.collection
  collected_eq : s.collected = s.added ++ s.pc.hand
  segmented : ∃ passed, s.added = passed ++ s.pc.toDump ∧ Segmented passed s.exporter

section Runs

variable {requested : List MetricType} {printDouble : Double → String} {s t : State}

theorem inv_init (requested : List MetricType) (entries : List (Collector × Bool))
    (dumpDir : String) (fileExists : String → Bool) (files : String → Option String) :
    Inv requested (init (CollectorRegistry.resolve requested entries)
      (Exporter.init dumpDir fileExists files)) where
  turns := turns_init _ _
  scheduled := CollectorRegistry.scheduled_resolve requested entries
  collected_eq := rfl
  segmented := ⟨[], rfl, segmented_init dumpDir fileExists files⟩

theorem Inv.runStep (h : Inv requested s) {m : Machine} (ht : Moves printDouble s m t) :
    Inv requested t := by
  have hturns := h.turns.runStep ht
  have hcollected := h.collected_eq
  obtain ⟨passed, hadded, hseg⟩ := h.segmented
  cases ht with
  | init hpc hc =>
    rename_i i c
    rw [hpc] at hcollected hadded
    refine ⟨hturns, ?_, hcollected, passed, hadded, hseg⟩
    have hcall : s.collection.step (.init i m) = _ :=
      Option.map_eq_some_iff.mpr ⟨c, hc, rfl⟩
    exact h.scheduled.step hcall
  | listen hpc _ | loop hpc _ | leave hpc _ | sleep hpc _ =>
    rw [hpc] at hcollected hadded
    exact ⟨hturns, h.scheduled, hcollected, passed, hadded, hseg⟩
  | collect hpc hc =>
    rename_i i c
    rw [hpc] at hcollected hadded
    refine ⟨hturns, ?_, ?_, passed, hadded, hseg⟩
    · have hcall : s.collection.step (.collect i m) = _ :=
        Option.map_eq_some_iff.mpr ⟨c, hc, rfl⟩
      exact h.scheduled.step hcall
    · show (s.collection.batches ++ [(c, (c.collect m).1)]).flatMap Prod.snd
        = s.added ++ (c.collect m).1
      rw [List.flatMap_append, List.flatMap_singleton]
      exact congrArg (fun l => l ++ (c.collect m).1) (hcollected.trans (List.append_nil _))
  | addMetrics hpc =>
    rename_i i metrics
    rw [hpc] at hcollected hadded
    refine ⟨hturns, h.scheduled, ?_, passed, ?_, hseg⟩
    · exact hcollected.trans (List.append_nil _).symm
    · show s.added ++ metrics = passed ++ metrics
      rw [hadded]
      exact congrArg (fun l => l ++ metrics) (List.append_nil passed)
  | dump hpc =>
    rename_i i metrics
    rw [hpc] at hcollected hadded
    refine ⟨hturns, h.scheduled, hcollected, passed ++ metrics, ?_, hseg.dump _ metrics⟩
    exact hadded.trans (List.append_nil _).symm
  | endDump hpc =>
    rw [hpc] at hcollected hadded
    exact ⟨hturns, h.scheduled, hcollected, passed, hadded, hseg.endDump⟩

theorem Inv.step (h : Inv requested s) {a : Action} (ht : Scheduler.step printDouble s a = some t) :
    Inv requested t := by
  have hturns := h.turns.step ht
  cases a with
  | run m => exact h.runStep (moves_of_runStep ht)
  | signal =>
    cases ht
    exact ⟨hturns, h.scheduled, h.collected_eq, h.segmented⟩
  | command call fileExists now opens =>
    obtain ⟨-, rfl⟩ := command_cases ht
    obtain ⟨passed, hadded, hseg⟩ := h.segmented
    exact ⟨hturns, h.scheduled, h.collected_eq, passed, hadded,
      hseg.callExporter fileExists now opens call⟩

/-- The file of a dump that a command starts is opened. -/
def Opens (s : State) : Action → Prop
  | .command (.startDump path) fileExists now opens =>
      Exporter.Opens s.exporter (.startDump (path.map String.ofList) fileExists now opens)
  | _ => True

theorem exporter_step (h : Exporter.Inv printDouble s.exporter) {a : Action} (hok : Opens s a)
    (ht : step printDouble s a = some t) : Exporter.Inv printDouble t.exporter := by
  cases a with
  | run m =>
    cases moves_of_runStep ht with
    | dump hpc => exact h.dump _
    | endDump hpc => exact h.endDump
    | init | listen | loop | leave | collect | sleep | addMetrics => exact h
  | signal =>
    cases ht
    exact h
  | command call fileExists now opens =>
    obtain ⟨-, rfl⟩ := command_cases ht
    cases call with
    | startDump path => exact h.startDump hok
    | endDump => exact h.endDump

end Runs

/-- **A dump is a part of what the agent measured.**  In every run of the agent,
whatever commands come when: what went to the buffer is what the collectors
returned, in order, but for the batch in hand; the dumps are segments of it, the
earlier before the later, so no metric is in two of them; and if files open, each
file holds the header and the rows of the last dump to it. -/
theorem dumps_are_segments (printDouble : Double → String) (requested : List MetricType)
    (entries : List (Collector × Bool)) (dumpDir : String) (fileExists : String → Bool)
    (files : String → Option String) {as : List Action} {s : State}
    (hs : Run.exec (step printDouble) (init (CollectorRegistry.resolve requested entries)
      (Exporter.init dumpDir fileExists files)) as = some s) :
    s.collected = s.added ++ s.pc.hand ∧
      (∃ ps, Segments.InOrder ps ∧ (∀ p ∈ ps, p.1 ≤ p.2 ∧ p.2 ≤ s.added.length) ∧
        s.exporter.openings.reverse.map Exporter.Opening.metrics
          = ps.map (Segments.segment s.added)) ∧
      (s.exporter.openings.reverse.flatMap Exporter.Opening.metrics).Sublist s.added ∧
      (Run.Meets (step printDouble) Opens (init (CollectorRegistry.resolve requested entries)
          (Exporter.init dumpDir fileExists files)) as →
        ∀ path o, Exporter.lastDump s.exporter path = some o →
          s.exporter.files path = some (Exporter.contents printDouble o.metrics)) := by
  have h : Inv requested s := Run.exec_invariant (fun h ht => h.step ht)
    (inv_init requested entries dumpDir fileExists files) hs
  obtain ⟨passed, hadded, hseg⟩ := h.segmented
  -- end the dump that is on, so that all dumps have ended
  obtain ⟨ps, c, hord, hps, hc, hended, -⟩ := hseg.endDump
  have hle : passed.length ≤ s.added.length := by
    rw [hadded, List.length_append]
    omega
  have hsegments : s.exporter.openings.reverse.map Exporter.Opening.metrics
      = ps.map (Segments.segment s.added) := by
    refine hended.trans (List.map_congr_left fun p hp => ?_)
    have hp := (hps p hp).2.trans hc
    rw [Segments.segment, Segments.segment, hadded, List.take_append_of_le_length hp]
  have hbounds : ∀ p ∈ ps, p.1 ≤ p.2 ∧ p.2 ≤ s.added.length :=
    fun p hp => ⟨(hps p hp).1, ((hps p hp).2.trans hc).trans hle⟩
  refine ⟨h.collected_eq, ⟨ps, hord, hbounds, hsegments⟩, ?_, fun hopens path o hlast => ?_⟩
  · rw [List.flatMap_def, hsegments, ← List.flatMap_def]
    exact Segments.flatMap_sublist (fun p hp => (hbounds p hp).1) (fun p hp => (hbounds p hp).2)
      hord
  · have hexporter := Run.exec_invariant_of_meets
      (I := fun s => Exporter.Inv printDouble s.exporter) (fun h hok ht => exporter_step h hok ht)
      (Exporter.inv_init printDouble dumpDir fileExists files) hopens hs
    exact hexporter.sound.contents_eq path o hlast

/-- A machine whose memory can be read. -/
def memoryOnly : Machine :=
  CollectorRegistry.memoryMachine [⟨"MemTotal:", 8⟩, ⟨"MemAvailable:", 4⟩]

/-- One collector, and a command after its batch: the dump has only what comes
after it. -/
def dumpOneRound : List Action :=
  [.run memoryOnly, .run memoryOnly, .run memoryOnly, .run memoryOnly, .run memoryOnly,
    .run memoryOnly, .command (.startDump (some "/d".toList)) (fun _ => true) "1" true,
    .run memoryOnly, .run memoryOnly, .run memoryOnly, .run memoryOnly, .run memoryOnly]

theorem dumps_are_segments_dumpOneRound :
    ∃ s, Run.exec (step fun _ => "") (init
        (CollectorRegistry.resolve [metricTypeRamTotal] [(.ram {}, true)])
        (Exporter.init "d" (fun _ => true) fun _ => none)) dumpOneRound = some s ∧
      s.added.length = 2 ∧
      (s.exporter.openings.reverse.flatMap Exporter.Opening.metrics).Sublist s.added ∧
      ∀ o, Exporter.lastDump s.exporter "/d/dump_1.csv" = some o →
        s.exporter.files "/d/dump_1.csv" = some (Exporter.contents (fun _ => "") o.metrics) := by
  have hrun : (Run.exec (step fun _ => "") (init
      (CollectorRegistry.resolve [metricTypeRamTotal] [(.ram {}, true)])
      (Exporter.init "d" (fun _ => true) fun _ => none)) dumpOneRound).map
      (fun s => s.added.length) = some 2 := rfl
  obtain ⟨s, hs, hlength⟩ := Option.map_eq_some_iff.mp hrun
  obtain ⟨-, -, hsublist, hfiles⟩ := dumps_are_segments (fun _ => "") [metricTypeRamTotal]
    [(.ram {}, true)] "d" (fun _ => true) (fun _ => none) hs
  refine ⟨s, hs, hlength, hsublist, fun o ho => hfiles ?_ "/d/dump_1.csv" o ho⟩
  refine Run.meets_of_forall (fun a ha s => ?_) _
  cases a with
  | run m | signal => trivial
  | command call fileExists now opens =>
    have h : call = .startDump (some "/d".toList) ∧ fileExists = (fun _ => true) ∧ now = "1" ∧
        opens = true := by
      simpa [dumpOneRound] using ha
    obtain ⟨rfl, -, -, rfl⟩ := h
    intro dumpDirOverload fileExists now opens h _ _
    cases h
    rfl

/-! ### Turns over a run -/

section Turns

variable {printDouble : Double → String} {s t : State}

theorem collectors_length_of_moves {m : Machine} (ht : Moves printDouble s m t) :
    t.collectors.length = s.collectors.length := by
  cases ht with
  | init | collect => exact List.length_set
  | listen | loop | leave | sleep | addMetrics | dump | endDump => rfl

theorem collectors_length_of_step {a : Action} (ht : step printDouble s a = some t) :
    t.collectors.length = s.collectors.length := by
  cases a with
  | run m => exact collectors_length_of_moves (moves_of_runStep ht)
  | signal =>
    cases ht
    rfl
  | command call fileExists now opens =>
    obtain ⟨-, rfl⟩ := command_cases ht
    rfl

theorem turns_of_exec {collectors : List Collector} {exporter : Exporter.State} {as : List Action}
    (hs : Run.exec (step printDouble) (init collectors exporter) as = some s) :
    Turns s ∧ s.collectors.length = collectors.length :=
  Run.exec_invariant (I := fun s => Turns s ∧ s.collectors.length = collectors.length)
    (fun h ht => ⟨h.1.step ht, (collectors_length_of_step ht).trans h.2⟩)
    ⟨turns_init collectors exporter, rfl⟩ hs

end Turns

/-- **The collectors are called in turn.**  In every run each collector is
initialised once, in the order of the registry and before any of them is called;
then they are called one after the other, over and over, in that order. -/
theorem called_in_turn (printDouble : Double → String) (collectors : List Collector)
    (exporter : Exporter.State) {as : List Action} {s : State}
    (hs : Run.exec (step printDouble) (init collectors exporter) as = some s) :
    s.inits <+: List.range collectors.length ∧
      (s.turns ≠ [] → s.inits = List.range collectors.length) ∧
      s.turns = (List.range s.turns.length).map fun n => n % collectors.length := by
  obtain ⟨h, hlen⟩ := turns_of_exec hs
  have hinits := h.inits_eq
  have hturns := h.turns_eq
  rw [hlen] at hinits hturns
  cases hpc : s.pc with
  | init i =>
    obtain ⟨hle, hnil⟩ := h.init_le i hpc
    rw [hpc] at hinits
    refine ⟨?_, fun hne => absurd hnil hne, hturns⟩
    rw [hinits]
    exact ⟨(List.range (collectors.length - i)).map (i + ·), by
      rw [Pc.inits, ← List.range_add, Nat.add_sub_cancel' (hlen ▸ hle)]⟩
  | loop | collect | addMetrics | dump | endDump | returned =>
    rw [hpc] at hinits
    exact ⟨hinits ▸ List.prefix_refl _, fun _ => hinits, hturns⟩

theorem called_in_turn_dumpOneRound :
    ∃ s, Run.exec (step fun _ => "") (init [.ram {}]
        (Exporter.init "d" (fun _ => true) fun _ => none)) dumpOneRound = some s ∧
      s.turns.length = 2 ∧ s.turns = (List.range s.turns.length).map fun n => n % 1 := by
  have hrun : (Run.exec (step fun _ => "") (init [.ram {}]
      (Exporter.init "d" (fun _ => true) fun _ => none)) dumpOneRound).map
      (fun s => s.turns.length) = some 2 := rfl
  obtain ⟨s, hs, hlength⟩ := Option.map_eq_some_iff.mp hrun
  exact ⟨s, hs, hlength, (called_in_turn (fun _ => "") [.ram {}] _ hs).2.2⟩

/-! ### The end -/

/-- The steps that the thread still makes once `g_running` is cleared, and the
collectors that it still calls. -/
def Pc.left (k : ℕ) : Pc → ℕ
  | .init i => (k - i) + 3
  | .loop => 2
  | .collect i => 3 * (k - i) + 3
  | .addMetrics i _ => 3 * (k - i) + 2
  | .dump i _ => 3 * (k - i) + 1
  | .endDump => 1
  | .returned => 0

def Pc.calls (k : ℕ) : Pc → ℕ
  | .collect i => k - i
  | .addMetrics i _ | .dump i _ => k - (i + 1)
  | _ => 0

/-- `Run` has returned and its last call was `EndDump`. -/
def Ended (s : State) : Prop :=
  s.pc = .returned → s.exporter.isExporting = false ∧ s.exporter.dumpFile = none

/-- A dump is started after the last `EndDump`. -/
def LateStart (s : State) (a : Action) : Prop :=
  s.pc = .returned ∧ ∃ path fileExists now opens,
    a = .command (.startDump path) fileExists now opens

section End

variable {printDouble : Double → String} {s t : State}

/-- One step of the thread after the signal. -/
theorem runStep_left (h : Turns s) (hrunning : s.running = false) {m : Machine}
    (ht : Moves printDouble s m t) :
    t.running = false ∧ Ended t ∧
      s.pc.left s.collectors.length = t.pc.left t.collectors.length + 1 ∧
      s.turns.length + s.pc.calls s.collectors.length
        = t.turns.length + t.pc.calls t.collectors.length := by
  have hlen := collectors_length_of_moves ht
  have hdue := h.due
  rw [hlen]
  cases ht with
  | init hpc hc =>
    have hlt := (List.getElem?_eq_some_iff.mp hc).1
    rw [hpc]
    refine ⟨hrunning, nofun, ?_, rfl⟩
    simp only [Pc.left]
    omega
  | listen hpc hc =>
    have hge := List.getElem?_eq_none_iff.mp hc
    rw [hpc]
    refine ⟨hrunning, nofun, ?_, rfl⟩
    simp only [Pc.left]
    omega
  | loop hpc htrue => exact absurd (hrunning.symm.trans htrue) (by simp)
  | leave hpc _ =>
    rw [hpc]
    exact ⟨hrunning, nofun, rfl, rfl⟩
  | collect hpc hc =>
    have hlt := (List.getElem?_eq_some_iff.mp hc).1
    rw [hpc]
    refine ⟨hrunning, nofun, rfl, ?_⟩
    simp only [Pc.calls, List.length_append, List.length_singleton]
    omega
  | sleep hpc hc =>
    have hge := List.getElem?_eq_none_iff.mp hc
    rw [hpc]
    refine ⟨hrunning, nofun, ?_, ?_⟩
    · simp only [Pc.left]
      omega
    · simp only [Pc.calls]
      omega
  | addMetrics hpc =>
    rw [hpc]
    exact ⟨hrunning, nofun, rfl, rfl⟩
  | dump hpc =>
    rw [hpc] at hdue
    have hlt := hdue.1
    rw [hpc]
    refine ⟨hrunning, nofun, ?_, rfl⟩
    simp only [Pc.left]
    omega
  | endDump hpc =>
    rw [hpc]
    exact ⟨hrunning, fun _ => ⟨rfl, rfl⟩, rfl, rfl⟩

/-- `EndDump` is the last, unless a start comes later. -/
theorem Ended.step (h : Turns s) (hrunning : s.running = false) (hended : Ended s) {a : Action}
    (hlate : ¬ LateStart s a) (ht : step printDouble s a = some t) : Ended t := by
  cases a with
  | run m => exact (runStep_left h hrunning (moves_of_runStep ht)).2.1
  | signal =>
    cases ht
    exact hended
  | command call fileExists now opens =>
    obtain ⟨-, rfl⟩ := command_cases ht
    intro hpc
    cases call with
    | startDump path => exact absurd ⟨hpc, path, fileExists, now, opens, rfl⟩ hlate
    | endDump => exact ⟨rfl, rfl⟩

end End

end Scheduler
end Volta
