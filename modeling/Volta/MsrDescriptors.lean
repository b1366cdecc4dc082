/-
The file descriptors of the energy collector (`OpenMSR`, `ReadMSR` and the
destructor in `rapl_collector.cc`).

`Init` opens the files of the CPUs, all later reads go through the table of their
descriptors, and the destructor closes them.  A second `Init` begins with an empty
table.  The system may reply to any call with anything, but an `open` that succeeds
gives a descriptor that is not in use.

* `Ready` — the table has the descriptors that are open, but for those of an
  earlier `Init`;
* `descriptors_closed` — only open descriptors are read and closed, none is left
  open if `Init` is called once, and the collector does what `openMSR`,
  `RaplCollector.init` and `RaplCollector.collect` say.
-/
import Volta.Calls
import Volta.MsrFiles

namespace Volta

namespace MsrDescriptors

open Calls (Program Interface Safe perform safe_bind safe_perform_bind)
open RaplCollector (OpenError openMSR cpuEntries cpuEntries_eq)

/-! ### The system -/

inductive Call where
  | cpuBase
  | openMsr (name : String)
  | pread (fd : ℕ) (offset : UInt32)
  | close (fd : ℕ)

/-- `none` is a missing `/dev/cpu`, a file that cannot be opened, a short read. -/
def Reply : Call → Type
  | .cpuBase => Option CpuBase
  | .openMsr _ => Option ℕ
  | .pread _ _ => Option UInt64
  | .close _ => Unit

structure State where
  /-- The open descriptors. -/
  files : List ℕ := []
  /-- History: what was listed last, which files opened, and what was read last. -/
  base : Option CpuBase := none
  opens : String → Bool := fun _ => false
  reads : UInt32 → Option UInt64 := fun _ => none

namespace State

def allows (s : State) : Call → Prop
  | .cpuBase => True
  | .openMsr _ => True
  | .pread fd _ => fd ∈ s.files
  | .close fd => fd ∈ s.files

/-- A descriptor in use is not given again. -/
def replies (s : State) : (c : Call) → Reply c → Bool
  | .openMsr _, some fd => fd ∉ s.files
  | _, _ => true

def next (s : State) : (c : Call) → Reply c → State
  | .cpuBase, base => { s with base := base }
  | .openMsr name, fd =>
      { s with
        files := s.files ++ Option.toList fd
        opens := Function.update s.opens name (Option.isSome fd) }
  | .pread _ offset, data => { s with reads := Function.update s.reads offset data }
  | .close fd, () => { s with files := s.files.erase fd }

end State

def interface : Interface Reply State where
  allows := State.allows
  replies := State.replies
  next := State.next

def listCpuBase : Program Reply (Option CpuBase) := perform Call.cpuBase

def openMsr (name : String) : Program Reply (Option ℕ) := perform (Call.openMsr name)

def pread (fd : ℕ) (offset : UInt32) : Program Reply (Option UInt64) :=
  perform (Call.pread fd offset)

def close (fd : ℕ) : Program Reply Unit := perform (Call.close fd)

/-! ### The collector -/

/-- The collector with `MSR_files_`. -/
structure Object where
  collector : RaplCollector := {}
  files : List ℕ := []
  /-- History: how often `Init` was called, and what was in the table before that. -/
  inits : ℕ := 0
  dropped : List ℕ := []
  destroyed : Bool := false

/-- The loop that fills `MSR_files_`. -/
def openAll : List String → Program Reply (List ℕ)
  | [] => pure []
  | name :: names => do
      let fd ← openMsr name
      let rest ← openAll names
      pure (fd.toList ++ rest)

/-- `OpenMSR`. -/
def openFiles : Program Reply (Except OpenError (List ℕ)) := do
  match ← listCpuBase with
  | none => pure (.error .msrOpen)
  | some base =>
      match cpuEntries base.entries with
      | .error e => pure (.error e)
      | .ok entries => do
          let sorted := entries.insertionSort fun a b => a ≤ b
          let files ← openAll (sorted.map fun entry => (ofLex entry).2)
          if files.isEmpty then pure (.error .msrOpen) else pure (.ok files)

/-- `none` is an `MSR_Read_Exception`. -/
def readMSR (o : Object) (core : UInt8) (offset : UInt32) : Program Reply (Option UInt64) :=
  if core.toNat + 1 > o.files.length then pure none
  else pread (o.files.getD core.toNat 0) offset

/-- The result is an exception that `Init` lets through, or what it returns. -/
def init (o : Object) : Program Reply (Except OpenError Bool × Object) := do
  let o := { o with inits := o.inits + 1, dropped := o.dropped ++ o.files }
  match ← openFiles with
  | .error .stoi => pure (.error .stoi, { o with files := [], collector.msrFiles := 0 })
  | .error .msrOpen => pure (.ok false, { o with files := [], collector.msrFiles := 0 })
  | .ok files => do
      let o := { o with files := files, collector.msrFiles := files.length }
      match ← readMSR o 0 MSR_RAPL.powerUnit with
      | none => pure (.ok false, o)
      | some readout => do
          let o := { o with
            collector.powerUnits := (1 / 2) ^ (readout &&& 0xf).toNat
            collector.energyUnits := (1 / 2) ^ ((readout >>> 8) &&& 0x1f).toNat
            collector.timeUnits := (1 / 2) ^ ((readout >>> 16) &&& 0xf).toNat }
          match ← readMSR o 0 MSR_RAPL.energyStatus with
          | none => pure (.ok false, o)
          | some readout =>
              pure (.ok true, { o with
                collector.lastValue := o.collector.energyUnits * readout.toNat
                collector.initialized := true })

def collect (o : Object) (now : Int64) : Program Reply (List Metric × Object) :=
  let c := o.collector
  if !c.initialized || c.requestedMetrics.isEmpty then pure ([], o)
  else if metricTypeCpuPowerPackage ∉ c.requestedMetrics then pure ([], o)
  else do
    match ← readMSR o 0 MSR_RAPL.energyStatus with
    | none => pure ([], o)
    | some readout =>
        let value := c.energyUnits * readout.toNat
        pure ([{ type := metricTypeCpuPowerPackage
                 devId := some (.cpu { socketIndex := 0, coreIndex := 0 })
                 value := value - c.lastValue, timestamp := now }],
          { o with collector.lastValue := value })

def closeAll : List ℕ → Program Reply Unit
  | [] => pure ()
  | fd :: fds => do
      close fd
      closeAll fds

/-- `~RaplCollector`. -/
def destroy (o : Object) : Program Reply Object := do
  closeAll o.files
  pure { o with destroyed := true }

/-- What the registry, the scheduler and the end of the process do. -/
inductive Op where
  | setRequestedMetrics (metrics : List MetricType)
  | init
  | collect (now : Int64)
  | destroy

/-- Nothing is called after the destructor. -/
def program (op : Op) (o : Object) : Option (Program Reply Object) :=
  if o.destroyed then none
  else
    match op with
    | .setRequestedMetrics metrics =>
        some (pure { o with collector.requestedMetrics := metrics })
    | .init => some do
        let (_, o) ← init o
        pure o
    | .collect now => some do
        let (_, o) ← collect o now
        pure o
    | .destroy => some (destroy o)

/-! ### Opening -/

section Opening

variable {s : State} {β : Type} {Q : β → State → Prop}

theorem safe_openMsr (name : String) {f : Option ℕ → Program Reply β}
    (h : ∀ fd : Option ℕ, (∀ n ∈ fd, n ∉ s.files) →
      Safe interface (f fd) Q (s.next (.openMsr name) fd)) :
    Safe interface (openMsr name >>= f) Q s := by
  refine safe_perform_bind.mpr ⟨trivial, fun fd hfd => h fd fun n hn => ?_⟩
  cases hn
  exact of_decide_eq_true hfd

/-- The descriptors of the files that can be opened. -/
theorem safe_openAll {names : List String} (hnames : names.Nodup) (hs : s.files.Nodup) :
    Safe interface (openAll names)
      (fun fds t => t.files = s.files ++ fds ∧ t.files.Nodup ∧ t.base = s.base ∧
        fds.length = (names.filter t.opens).length ∧
        ∀ name, name ∉ names → t.opens name = s.opens name) s := by
  induction names generalizing s with
  | nil => exact ⟨(List.append_nil _).symm, hs, rfl, rfl, fun _ _ => rfl⟩
  | cons name names ih =>
    obtain ⟨hname, hnames⟩ := List.nodup_cons.mp hnames
    rw [openAll]
    refine safe_openMsr name fun fd hfd => ?_
    have hnodup : (s.next (.openMsr name) fd).files.Nodup := by
      refine hs.append (by cases fd <;> simp) ?_
      intro n hn hmem
      exact hfd n (Option.mem_toList.mp hmem) hn
    rw [safe_bind]
    refine (ih hnames hnodup).imp ?_
    rintro fds t ⟨hfiles, ht, hbase, hlength, hopens⟩
    refine ⟨?_, ht, hbase, ?_, fun other hother => ?_⟩
    · rw [hfiles, ← List.append_assoc]
      rfl
    · have hopen : t.opens name = fd.isSome :=
        (hopens name hname).trans (Function.update_self _ _ _)
      rw [List.length_append, hlength]
      cases fd with
      | none =>
        rw [List.filter_cons_of_neg (by simp [hopen])]
        exact Nat.zero_add _
      | some n =>
        rw [List.filter_cons_of_pos (by simp [hopen])]
        exact Nat.add_comm _ _
    · rw [hopens other (fun hmem => hother (List.mem_cons_of_mem _ hmem))]
      have hne : other ≠ name := fun heq => hother (by rw [heq]; exact List.mem_cons_self)
      exact Function.update_of_ne hne _ _

theorem nodup_sorted {base : CpuBase} {entries : List (ℕ ×ₗ String)}
    (h : cpuEntries base.entries = .ok entries) :
    ((entries.insertionSort fun a b => a ≤ b).map fun entry => (ofLex entry).2).Nodup := by
  refine ((entries.perm_insertionSort fun a b => a ≤ b).map _).nodup_iff.mpr ?_
  rw [cpuEntries_eq h, List.map_map]
  exact base.nodup.sublist (List.filter_sublist.map _)

/-- What `OpenMSR` has opened, beside `old`. -/
def Opened (old : List ℕ) (r : Except OpenError (List ℕ)) (t : State) : Prop :=
  t.files.Nodup ∧
    match r with
    | .error e => t.files = old ∧ openMSR t.opens t.base = .error e
    | .ok fds => t.files = old ++ fds ∧ fds ≠ [] ∧
        ∃ names, openMSR t.opens t.base = .ok names ∧ names.length = fds.length

theorem safe_listCpuBase {f : Option CpuBase → Program Reply β}
    (h : ∀ base, Safe interface (f base) Q { s with base := base }) :
    Safe interface (listCpuBase >>= f) Q s :=
  safe_perform_bind.mpr ⟨trivial, fun base _ => h base⟩

theorem safe_openFiles (hnodup : s.files.Nodup) :
    Safe interface openFiles (Opened s.files) s := by
  refine safe_listCpuBase fun base => ?_
  cases base with
  | none => exact ⟨hnodup, rfl, rfl⟩
  | some base =>
    simp only
    cases hentries : cpuEntries base.entries with
    | error e =>
      refine ⟨hnodup, rfl, ?_⟩
      rw [openMSR, hentries]
    | ok entries =>
      simp only [safe_bind]
      refine Calls.Safe.imp (safe_openAll (nodup_sorted hentries) hnodup) ?_
      rintro fds t ⟨hfiles, ht, hbase, hlength, -⟩
      have hopen : openMSR t.opens t.base = if fds.isEmpty then .error .msrOpen else
          .ok (((entries.insertionSort fun a b => a ≤ b).map fun entry =>
            (ofLex entry).2).filter t.opens) := by
        rw [hbase, openMSR, hentries]
        simp only [List.isEmpty_iff_length_eq_zero, hlength]
      by_cases hempty : fds.isEmpty = true
      · rw [if_pos hempty] at hopen ⊢
        refine ⟨ht, ?_, hopen⟩
        rw [hfiles, List.isEmpty_iff.mp hempty]
        exact List.append_nil _
      · rw [if_neg hempty] at hopen ⊢
        have hne : fds ≠ [] := fun hnil => hempty (List.isEmpty_iff.mpr hnil)
        exact ⟨ht, hfiles, hne, _, hopen, hlength.symm⟩

end Opening

/-! ### Reading -/

/-- The registers as they were last read. -/
def State.msr (s : State) : Msr := fun _ offset => s.reads offset

/-- The table has the open descriptors that have not been dropped. -/
structure Ready (o : Object) (s : State) : Prop where
  nodup : s.files.Nodup
  files_eq : s.files = o.dropped ++ if o.destroyed then [] else o.files
  msrFiles_eq : o.collector.msrFiles = o.files.length
  first : o.inits = 0 → o.files = []
  once : o.inits ≤ 1 → o.dropped = []

section Reading

variable {o : Object} {s t : State}

theorem Ready.files_live (h : Ready o s) (hlive : o.destroyed = false) :
    s.files = o.dropped ++ o.files := by
  rw [h.files_eq, hlive]
  rfl

/-- `ReadMSR` reads the file of the core, if the table has one. -/
theorem safe_readMSR (o : Object) {old : List ℕ} (hfiles : s.files = old ++ o.files)
    (hcount : o.collector.msrFiles = o.files.length) (offset : UInt32) :
    Safe interface (readMSR o 0 offset)
      (fun r t => t.files = s.files ∧ t.opens = s.opens ∧ t.base = s.base ∧
        (∀ other, other ≠ offset → t.reads other = s.reads other) ∧
        r = o.collector.readMSR t.msr 0 offset) s := by
  rw [readMSR]
  split
  · rename_i hlt
    refine ⟨rfl, rfl, rfl, fun _ _ => rfl, ?_⟩
    rw [RaplCollector.readMSR, hcount, if_pos hlt]
  · rename_i hlt
    obtain ⟨fd, rest, hcons⟩ : ∃ fd rest, o.files = fd :: rest := by
      cases hfds : o.files with
      | nil => exact absurd (by rw [hfds]; decide) hlt
      | cons fd rest => exact ⟨fd, rest, rfl⟩
    refine ⟨?_, fun r _ => ⟨rfl, rfl, rfl, fun other hne => Function.update_of_ne hne _ _, ?_⟩⟩
    · rw [hcons]
      show fd ∈ s.files
      rw [hfiles, hcons]
      exact List.mem_append_right _ List.mem_cons_self
    · rw [RaplCollector.readMSR, hcount, if_neg hlt]
      exact (Function.update_self offset r s.reads).symm

/-- What `Init` comes to for a table: an exception, or its result, and the
collector. -/
def initOf (c : RaplCollector) (pread : Msr) :
    Except OpenError (List String) → Except OpenError Bool × RaplCollector
  | .error .stoi => (.error .stoi, { c with msrFiles := 0 })
  | .error .msrOpen => (.ok (c.init 0 pread).1, (c.init 0 pread).2)
  | .ok names => (.ok (c.init names.length pread).1, (c.init names.length pread).2)

theorem powerUnit_ne : MSR_RAPL.powerUnit ≠ MSR_RAPL.energyStatus := by decide

theorem safe_init (h : Ready o s) (hlive : o.destroyed = false) :
    Safe interface (init o)
      (fun r t => Ready r.2 t ∧
        (r.1, r.2.collector) = initOf o.collector t.msr (openMSR t.opens t.base)) s := by
  -- what is open now is dropped
  have hdropped : s.files = o.dropped ++ o.files := h.files_live hlive
  have honce : o.inits + 1 ≤ 1 → o.dropped ++ o.files = [] := fun hle =>
    List.append_eq_nil_iff.mpr ⟨h.once (by omega), h.first (by omega)⟩
  have hready : ∀ {collector : RaplCollector} {fds : List ℕ} {u : State}, u.files.Nodup →
      u.files = s.files ++ fds → collector.msrFiles = fds.length →
      Ready { o with
        inits := o.inits + 1, dropped := o.dropped ++ o.files, files := fds,
        collector := collector } u := by
    intro collector fds u hnodup hfiles hcount
    refine ⟨hnodup, ?_, hcount, fun hzero => absurd hzero (Nat.succ_ne_zero _), honce⟩
    rw [hfiles, hdropped, hlive]
    rfl
  rw [init, safe_bind]
  refine (safe_openFiles h.nodup).imp ?_
  rintro r t ⟨hnodup, hopened⟩
  cases r with
  | error e =>
    obtain ⟨hfiles, hopen⟩ := hopened
    have hfiles' : t.files = s.files ++ [] := hfiles.trans (List.append_nil _).symm
    cases e with
    | stoi =>
      refine ⟨hready hnodup hfiles' rfl, ?_⟩
      rw [hopen]
      rfl
    | msrOpen =>
      refine ⟨hready hnodup hfiles' rfl, ?_⟩
      rw [hopen]
      rfl
  | ok fds =>
    obtain ⟨hfiles, hne, names, hopen, hlength⟩ := hopened
    have hpos : fds.length ≠ 0 := fun hzero => hne (List.eq_nil_of_length_eq_zero hzero)
    simp only [safe_bind]
    refine Calls.Safe.imp (safe_readMSR _ hfiles rfl MSR_RAPL.powerUnit) ?_
    rintro r t₁ ⟨hfiles₁, hopens₁, hbase₁, -, hread₁⟩
    rw [← hopens₁, ← hbase₁] at hopen
    cases r with
    | none =>
      refine ⟨hready (hfiles₁ ▸ hnodup) (hfiles₁.trans hfiles) rfl, ?_⟩
      rw [hopen, initOf, hlength, RaplCollector.init, if_neg hpos, ← hread₁]
    | some readout =>
      simp only [safe_bind]
      refine Calls.Safe.imp (safe_readMSR _ (hfiles₁.trans hfiles) rfl MSR_RAPL.energyStatus) ?_
      rintro r t₂ ⟨hfiles₂, hopens₂, hbase₂, hother, hread₂⟩
      rw [← hopens₂, ← hbase₂] at hopen
      -- the second read leaves the first as it was
      have hread₁ : RaplCollector.readMSR { o.collector with msrFiles := fds.length } t₂.msr 0
          MSR_RAPL.powerUnit = some readout := by
        rw [hread₁]
        show (if _ then none else t₂.reads _) = if _ then none else t₁.reads _
        rw [hother _ powerUnit_ne]
      have hnodup₂ : t₂.files.Nodup := hfiles₂ ▸ hfiles₁ ▸ hnodup
      have hfiles₂ := hfiles₂.trans (hfiles₁.trans hfiles)
      cases r with
      | none =>
        refine ⟨hready hnodup₂ hfiles₂ rfl, ?_⟩
        rw [hopen, initOf, hlength, RaplCollector.init, if_neg hpos]
        simp only [hread₁, ← hread₂]
      | some energy =>
        refine ⟨hready hnodup₂ hfiles₂ rfl, ?_⟩
        rw [hopen, initOf, hlength, RaplCollector.init, if_neg hpos]
        simp only [hread₁, ← hread₂]

/-- `Collect` reads through the table, and does what the collector does. -/
theorem safe_collect (h : Ready o s) (hlive : o.destroyed = false) (now : Int64) :
    Safe interface (collect o now)
      (fun r t => Ready r.2 t ∧ (r.1, r.2.collector) = o.collector.collect t.msr now) s := by
  have hfiles : s.files = o.dropped ++ o.files := h.files_live hlive
  rw [collect]
  split
  · rename_i hidle
    refine ⟨h, ?_⟩
    rw [RaplCollector.collect, if_pos hidle]
  · rename_i hready
    split
    · rename_i hother
      refine ⟨h, ?_⟩
      rw [RaplCollector.collect, if_neg hready, if_pos hother]
    · rename_i hpackage
      rw [safe_bind]
      refine (safe_readMSR o hfiles h.msrFiles_eq MSR_RAPL.energyStatus).imp ?_
      rintro r t ⟨hfiles', -, -, -, hread⟩
      have hkept : Ready o t :=
        ⟨hfiles' ▸ h.nodup, hfiles'.trans h.files_eq, h.msrFiles_eq, h.first, h.once⟩
      cases r with
      | none =>
        refine ⟨hkept, ?_⟩
        rw [RaplCollector.collect, if_neg hready, if_neg hpackage, ← hread]
      | some readout =>
        refine ⟨⟨hkept.nodup, hkept.files_eq, hkept.msrFiles_eq, hkept.first, hkept.once⟩, ?_⟩
        rw [RaplCollector.collect, if_neg hready, if_neg hpackage, ← hread]

theorem safe_closeAll {old fds : List ℕ} (h : s.files = old ++ fds) (hnodup : s.files.Nodup) :
    Safe interface (closeAll fds) (fun _ t => t.files = old) s := by
  induction fds generalizing s with
  | nil => exact h.trans (List.append_nil _)
  | cons fd fds ih =>
    have hfd : fd ∉ old := fun hmem =>
      (List.nodup_append.mp (h ▸ hnodup)).2.2 fd hmem fd List.mem_cons_self rfl
    have hfiles : s.files.erase fd = old ++ fds := by
      rw [h, List.erase_append_right _ hfd, List.erase_cons_head]
    rw [closeAll, safe_bind]
    refine ⟨?_, fun _ _ => ih hfiles (hnodup.erase fd)⟩
    show fd ∈ s.files
    rw [h]
    exact List.mem_append_right _ List.mem_cons_self

theorem safe_destroy (h : Ready o s) (hlive : o.destroyed = false) :
    Safe interface (destroy o) Ready s := by
  have hfiles : s.files = o.dropped ++ o.files := h.files_live hlive
  rw [destroy, safe_bind]
  refine (safe_closeAll hfiles h.nodup).imp fun _ t ht => ?_
  have hold : o.dropped.Nodup := (List.nodup_append.mp (hfiles ▸ h.nodup)).1
  exact ⟨ht ▸ hold, ht.trans (List.append_nil _).symm, h.msrFiles_eq, h.first, h.once⟩

theorem safe_program (op : Op) (o : Object) (p : Program Reply Object) (s : State)
    (hp : program op o = some p) (h : Ready o s) : Safe interface p Ready s := by
  cases hlive : o.destroyed with
  | true => simp [program, hlive] at hp
  | false =>
    simp only [program, hlive, Bool.false_eq_true, if_false] at hp
    cases op with
    | setRequestedMetrics metrics =>
      cases hp
      have hfiles := h.files_eq
      rw [hlive] at hfiles
      exact ⟨h.nodup, hfiles, h.msrFiles_eq, h.first, h.once⟩
    | init =>
      cases hp
      exact safe_bind.mpr ((safe_init h hlive).imp fun r t ht => ht.1)
    | collect now =>
      cases hp
      exact safe_bind.mpr ((safe_collect h hlive now).imp fun r t ht => ht.1)
    | destroy =>
      cases hp
      exact safe_destroy h hlive

end Reading

theorem ready_init : Ready {} {} where
  nodup := List.nodup_nil
  files_eq := rfl
  msrFiles_eq := rfl
  first _ := rfl
  once _ := rfl

/-- **No descriptor is used that is not open, and none is left open.**  Whatever the
system replies, in every run of the collector's operations: each call that is made is
allowed, also in an operation that is under way; what `Init` and `Collect` come to is
what the files that opened and the registers that were read make of them; and when the
collector is destroyed every descriptor has been closed but for those that were in the
table before another `Init`, so all of them if `Init` was called once. -/
theorem descriptors_closed {as : List (Op × List ((c : Call) → Reply c))} {o : Object}
    {s : State} (hs : Run.exec (Calls.operate interface program) ({}, {}) as = some (o, s)) :
    (∀ op p answers c k t, program op o = some p →
        Run.exec (Calls.step interface) (p, s) answers = some (Program.call c k, t) →
        t.allows c) ∧
      (o.destroyed = false → ∀ answers r t,
        Run.exec (Calls.step interface) (init o, s) answers = some (Program.pure r, t) →
          (r.1, r.2.collector) = initOf o.collector t.msr (openMSR t.opens t.base)) ∧
      (o.destroyed = false → ∀ now answers r t,
        Run.exec (Calls.step interface) (collect o now, s) answers = some (Program.pure r, t) →
          (r.1, r.2.collector) = o.collector.collect t.msr now) ∧
      (o.destroyed = true → s.files = o.dropped ∧ (o.inits ≤ 1 → s.files = [])) := by
  have h : Ready o s := Calls.operate_invariant safe_program ready_init hs
  refine ⟨fun op p answers c k t hp hrun => ?_, fun hlive answers r t hrun => ?_,
    fun hlive now answers r t hrun => ?_, fun hdestroyed => ?_⟩
  · exact Calls.allowed_of_exec safe_program ready_init hs hp hrun
  · exact ((safe_init h hlive).exec hrun).2
  · exact ((safe_collect h hlive now).exec hrun).2
  · have hfiles : s.files = o.dropped := by
      rw [h.files_eq, if_pos hdestroyed]
      exact List.append_nil _
    exact ⟨hfiles, fun honce => hfiles.trans (h.once honce)⟩

/-- Two CPUs, of which the file of the second cannot be opened. -/
def oneReadable : (c : Call) → Reply c
  | .cpuBase => some ⟨[⟨"1", true⟩, ⟨"microcode", false⟩, ⟨"0", true⟩], by decide⟩
  | .openMsr name => if name = "0" then some 3 else none
  | .pread _ _ => some 5
  | .close _ => ()

/-- The life of a collector there. -/
def life : List (Op × List ((c : Call) → Reply c)) :=
  [(.setRequestedMetrics [metricTypeCpuPowerPackage], []),
    (.init, List.replicate 5 oneReadable), (.collect 0, [oneReadable]),
    (.destroy, [oneReadable])]

theorem descriptors_closed_life :
    ∃ o s, Run.exec (Calls.operate interface program) ({}, {}) life = some (o, s) ∧
      o.destroyed = true ∧ s.files = [] := by
  have hrun : (Run.exec (Calls.operate interface program) ({}, {}) life).map
      (fun u => (u.1.destroyed, u.1.inits)) = some (true, 1) := by decide +kernel
  obtain ⟨⟨o, s⟩, hs, heq⟩ := Option.map_eq_some_iff.mp hrun
  obtain ⟨hdestroyed, hinits⟩ := Prod.mk.injEq _ _ _ _ ▸ heq
  exact ⟨o, s, hs, hdestroyed, ((descriptors_closed hs).2.2.2 hdestroyed).2 hinits.le⟩

end MsrDescriptors
end Volta
