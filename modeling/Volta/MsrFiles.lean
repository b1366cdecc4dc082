/-
The files of the CPUs (`OpenMSR` and `ReadMSR` in `rapl_collector.cc`).

`/dev/cpu` has a directory for each CPU, named by its number, with a file `msr`.
The table of the files that could be opened is sorted by number.

* `openMSR_eq_ok` — what is in the table;
* `OwnCore` — the file at the position of a core is that of the core;
* `ownCore_iff` — this is so exactly when the CPUs whose file can be opened are
  numbered from 0 without a gap.
-/
import Volta.Numeral
import Volta.RaplCollector
import Mathlib.Data.List.Sort
import Mathlib.Data.Prod.Lex
import Mathlib.Data.String.Basic

namespace Volta

/-- An entry of a directory. -/
structure DirectoryEntry where
  name : String
  isDirectory : Bool

/-- The entries of `/dev/cpu`, in the order in which they are listed. -/
structure CpuBase where
  entries : List DirectoryEntry
  nodup : (entries.map DirectoryEntry.name).Nodup

namespace RaplCollector

inductive OpenError where
  | msrOpen
  /-- An exception of `std::stoi`, which `Init` lets through. -/
  | stoi
  deriving DecidableEq

/-- The number that a name stands for. -/
def number (name : String) : ℕ := Numeral.value 10 name.toList

/-- `std::stoi` of a text of digits. -/
def stoi (name : String) : Option ℕ :=
  if name.isEmpty then none
  else if number name < 2 ^ 31 then some (number name) else none

/-- The loop over the directory. -/
def cpuEntries : List DirectoryEntry → Except OpenError (List (ℕ ×ₗ String))
  | [] => .ok []
  | entry :: entries =>
      if !entry.isDirectory then cpuEntries entries
      else if !entry.name.toList.all Char.isDigit then cpuEntries entries
      else
        match stoi entry.name with
        | none => .error .stoi
        | some id =>
            match cpuEntries entries with
            | .error e => .error e
            | .ok rest => .ok (toLex (id, entry.name) :: rest)

/-- The directories whose files are in the table, if `opens` says which can be
opened; `none` is a missing `/dev/cpu`. -/
def openMSR (opens : String → Bool) : Option CpuBase → Except OpenError (List String)
  | none => .error .msrOpen
  | some base =>
      match cpuEntries base.entries with
      | .error e => .error e
      | .ok cpuEntries =>
          let sorted := cpuEntries.insertionSort fun a b => a ≤ b
          -- what cannot be opened leaves no gap in the table
          let files := (sorted.map fun entry => (ofLex entry).2).filter opens
          if files.isEmpty then .error .msrOpen else .ok files

/-- What a `pread` of the file of a directory at an offset gives. -/
abbrev MsrFile := String → UInt32 → Option UInt64

/-- The reads through the table. -/
def table (files : List String) (pread : MsrFile) : Msr := fun core offset =>
  (files[core.toNat]?).bind fun name => pread name offset

/-! ### The property and the condition -/

/-- The CPUs of the directory whose file can be opened. -/
def openable (base : CpuBase) (opens : String → Bool) : List String :=
  (base.entries.filter fun entry =>
    entry.isDirectory && entry.name.toList.all Char.isDigit && opens entry.name).map
      DirectoryEntry.name

/-- A read is one of the directory named `core` or fails; so is that of the
package energy, which is labelled core 0. -/
structure OwnCore (files : List String) : Prop where
  readMSR : ∀ (c : RaplCollector) (pread : MsrFile) (core : UInt8) (offset : UInt32),
    c.msrFiles = files.length →
      c.readMSR (table files pread) core offset = none ∨
      c.readMSR (table files pread) core offset = pread core.toNat.repr offset
  package : ∀ (c : RaplCollector) (pread : MsrFile) (now : Int64), c.msrFiles = files.length →
    c.collect (table files pread) now = ([], c) ∨
    c.collect (table files pread) now = c.collect (fun _ => pread "0") now

/-- There are no gaps as far as a `uint8_t` can count. -/
structure Gapless (names : List String) : Prop where
  repr_mem : ∀ core : ℕ, core < 256 → core < names.length → core.repr ∈ names
  eq_repr : ∀ name ∈ names, number name < 256 → number name < names.length →
    name = (number name).repr

/-! ### The table -/

def keyed (name : String) : ℕ ×ₗ String := toLex (number name, name)

theorem keyed_injective : Function.Injective keyed := by
  intro a b h
  exact congrArg (fun p => (ofLex p).2) h

theorem keyed_lt_keyed {a b : String} (h : number a < number b) : keyed a < keyed b :=
  Prod.Lex.toLex_lt_toLex.mpr (.inl h)

theorem number_le_of_lt {a b : String} (h : keyed a < keyed b) : number a ≤ number b := by
  rcases Prod.Lex.toLex_lt_toLex.mp h with h | h
  · exact h.le
  · exact h.1.le

theorem stoi_eq_some {name : String} {id : ℕ} (h : stoi name = some id) : id = number name := by
  rw [stoi] at h
  split at h
  · exact absurd h (by simp)
  · split at h
    · exact (Option.some_inj.mp h).symm
    · exact absurd h (by simp)

theorem cpuEntries_eq {entries : List DirectoryEntry} {l : List (ℕ ×ₗ String)}
    (h : cpuEntries entries = .ok l) :
    l = (entries.filter fun entry =>
      entry.isDirectory && entry.name.toList.all Char.isDigit).map fun entry =>
        keyed entry.name := by
  induction entries generalizing l with
  | nil => exact (Except.ok.inj h).symm
  | cons entry entries ih =>
    rw [cpuEntries] at h
    by_cases hdir : entry.isDirectory = true
    · by_cases hdigits : entry.name.toList.all Char.isDigit = true
      · rw [List.filter_cons_of_pos (by rw [hdir, hdigits]; rfl), List.map_cons]
        rw [if_neg (by simp [hdir]), if_neg (by simp [hdigits])] at h
        split at h
        · exact absurd h (by simp)
        · rename_i id hid
          split at h
          · exact absurd h (by simp)
          · rename_i rest hrest
            rw [← ih hrest, ← Except.ok.inj h, stoi_eq_some hid]
            rfl
      · rw [List.filter_cons_of_neg (by simp [hdigits])]
        rw [if_neg (by simp [hdir]), if_pos (by simpa using hdigits)] at h
        exact ih h
    · rw [List.filter_cons_of_neg (by simp [hdir])]
      rw [if_pos (by simpa using hdir)] at h
      exact ih h

/-- The table holds the openable CPUs, in the order of their numbers. -/
theorem openMSR_eq_ok {opens : String → Bool} {base : CpuBase} {files : List String}
    (h : openMSR opens (some base) = .ok files) :
    files.Perm (openable base opens) ∧ (files.map keyed).Pairwise (· < ·) := by
  rw [openMSR] at h
  split at h
  · exact absurd h (by simp)
  · rename_i l hl
    dsimp only at h
    split at h
    · exact absurd h (by simp)
    · obtain rfl := Except.ok.inj h
      have hnames : (l.map fun entry => (ofLex entry).2) = (base.entries.filter fun entry =>
          entry.isDirectory && entry.name.toList.all Char.isDigit).map DirectoryEntry.name := by
        rw [cpuEntries_eq hl, List.map_map]
        rfl
      have hkeyed : ∀ p ∈ l, keyed (ofLex p).2 = p := by
        intro p hp
        rw [cpuEntries_eq hl] at hp
        obtain ⟨entry, -, rfl⟩ := List.mem_map.mp hp
        rfl
      have hperm := l.perm_insertionSort fun a b => a ≤ b
      constructor
      · refine ((hperm.map _).filter opens).trans (List.Perm.of_eq ?_)
        rw [hnames, List.filter_map, List.filter_filter, openable]
        refine congrArg _ (List.filter_congr fun entry _ => ?_)
        rw [Bool.and_comm]
        rfl
      · have hnodup : (l.insertionSort fun a b => a ≤ b).Nodup := by
          refine hperm.nodup_iff.mpr (List.Nodup.of_map (fun entry => (ofLex entry).2) ?_)
          rw [hnames]
          exact base.nodup.sublist (List.filter_sublist.map _)
        have hlt : (l.insertionSort fun a b => a ≤ b).Pairwise (· < ·) :=
          ((l.pairwise_insertionSort fun a b => a ≤ b).and hnodup).imp fun h =>
            lt_of_le_of_ne h.1 h.2
        rw [List.filter_map, List.map_map, List.pairwise_map]
        refine (hlt.filter fun p => opens (ofLex p).2).imp_of_mem ?_
        intro p q hp hq hpq
        have hself := hkeyed p (hperm.mem_iff.mp (List.mem_of_mem_filter hp))
        have hself' := hkeyed q (hperm.mem_iff.mp (List.mem_of_mem_filter hq))
        rw [Function.comp_apply, Function.comp_apply, hself, hself']
        exact hpq

theorem isDigit_of_mem_openable {opens : String → Bool} {base : CpuBase} {name : String}
    (h : name ∈ openable base opens) : ∀ c ∈ name.toList, c.isDigit = true := by
  obtain ⟨entry, hmem, rfl⟩ := List.mem_map.mp h
  have hcpu := (List.mem_filter.mp hmem).2
  rw [Bool.and_eq_true_iff, Bool.and_eq_true_iff] at hcpu
  exact List.all_eq_true.mp hcpu.1.2

theorem number_repr (n : ℕ) : number n.repr = n := by
  rw [number, Nat.toList_repr]
  exact Numeral.value_toDigits (by decide) (by decide) n

/-! ### Positions and numbers -/

section Table

variable {names files : List String} (hperm : files.Perm names)
  (hsorted : (files.map keyed).Pairwise (· < ·))

include hperm hsorted

/-- Without gaps, the files of the cores come first. -/
theorem Gapless.eq_range_append (h : Gapless names) :
    files = (List.range (min 256 names.length)).map Nat.repr ++
      files.filter fun name => min 256 names.length ≤ number name := by
  -- both sides are sorted and have the same members
  refine List.map_injective_iff.mpr keyed_injective (hsorted.eq_of_mem_iff ?_ ?_)
  · rw [List.map_append, List.map_map, List.pairwise_append]
    refine ⟨?_, hsorted.sublist (List.filter_sublist.map _), ?_⟩
    · refine List.pairwise_map.mpr (List.pairwise_lt_range.imp ?_)
      intro m n hmn
      refine keyed_lt_keyed ?_
      rwa [number_repr, number_repr]
    · intro a ha b hb
      obtain ⟨core, hcore, rfl⟩ := List.mem_map.mp ha
      obtain ⟨name, hname, rfl⟩ := List.mem_map.mp hb
      have hlt := List.mem_range.mp hcore
      have hle := of_decide_eq_true (List.mem_filter.mp hname).2
      refine keyed_lt_keyed ?_
      rw [number_repr]
      omega
  · intro x
    rw [List.map_append, List.mem_append]
    constructor
    · intro hx
      obtain ⟨name, hname, rfl⟩ := List.mem_map.mp hx
      by_cases hlt : number name < min 256 names.length
      · left
        have hrepr := h.eq_repr name (hperm.mem_iff.mp hname) (by omega) (by omega)
        rw [hrepr, List.mem_map_of_injective keyed_injective]
        exact List.mem_map_of_mem (List.mem_range.mpr hlt)
      · right
        refine List.mem_map_of_mem (List.mem_filter.mpr ⟨hname, decide_eq_true ?_⟩)
        omega
    · rintro (hx | hx)
      · obtain ⟨name, hname, rfl⟩ := List.mem_map.mp hx
        obtain ⟨core, hcore, rfl⟩ := List.mem_map.mp hname
        have hlt := List.mem_range.mp hcore
        exact List.mem_map_of_mem (hperm.mem_iff.mpr (h.repr_mem core (by omega) (by omega)))
      · exact (List.filter_sublist.map _).mem hx

/-- The position is the number. -/
theorem Gapless.getElem?_eq (h : Gapless names) {core : ℕ} (hcore : core < 256)
    (hlt : core < files.length) : files[core]? = some core.repr := by
  rw [hperm.length_eq] at hlt
  rw [h.eq_range_append hperm hsorted, List.getElem?_append_left, List.getElem?_map,
    List.getElem?_range]
  · rfl
  · omega
  · rw [List.length_map, List.length_range]
    omega

theorem gapless_of_getElem? (hdigits : ∀ name ∈ names, ∀ c ∈ name.toList, c.isDigit = true)
    (h : ∀ core < 256, core < files.length → files[core]? = some core.repr) : Gapless names := by
  have hcore : ∀ {core : ℕ} {name : String}, core < 256 → files[core]? = some name →
      number name = core ∧ name = core.repr := by
    intro core name hlt hname
    have hrepr := h core hlt (List.getElem?_eq_some_iff.mp hname).1
    obtain rfl : name = core.repr := Option.some_inj.mp (hname.symm.trans hrepr)
    exact ⟨number_repr core, rfl⟩
  constructor
  · intro core hlt hlt'
    exact hperm.mem_iff.mp (List.mem_of_getElem? (h core hlt (hperm.length_eq ▸ hlt')))
  · intro name hname hlt hlt'
    obtain ⟨i, hi⟩ := List.mem_iff_getElem?.mp (hperm.mem_iff.mpr hname)
    by_cases hi256 : i < 256
    · obtain ⟨hnumber, hrepr⟩ := hcore hi256 hi
      rw [hnumber]
      exact hrepr
    · -- only 255 can come again after position 255, with zeros before it
      obtain ⟨hilt, hget⟩ := List.getElem?_eq_some_iff.mp hi
      have h255 := h 255 (by decide) (by omega)
      obtain ⟨hlt255, hget255⟩ := List.getElem?_eq_some_iff.mp h255
      have hbefore : keyed (Nat.repr 255) < keyed name := by
        have hpair := List.pairwise_iff_getElem.mp hsorted 255 i (by simpa using hlt255)
          (by simpa using hilt) (by omega)
        rw [List.getElem_map, List.getElem_map, hget, hget255] at hpair
        exact hpair
      have hnumber : number name = 255 := by
        have hle := number_le_of_lt hbefore
        rw [number_repr] at hle
        omega
      obtain ⟨k, hk⟩ := Numeral.exists_zeros_append (hdigits name hname)
        (show 0 < number name by omega)
      change name.toList = _ ++ Nat.toDigits 10 (number name) at hk
      rw [hnumber] at hk ⊢
      rcases k with _ | k
      · rw [← String.toList_inj, hk, Nat.toList_repr]
        rfl
      · have hlex : Nat.repr 255 < name := by
          rcases Prod.Lex.toLex_lt_toLex.mp hbefore with hlt | hlt
          · rw [hnumber, number_repr] at hlt
            omega
          · exact hlt.2
        have hlist : Nat.toDigits 10 255 = ['2', '5', '5'] := rfl
        rw [String.lt_iff_toList_lt, hk, Nat.toList_repr, hlist, List.replicate_succ,
          List.cons_append, List.cons_lt_cons_iff] at hlex
        exact absurd hlex (by simp)

end Table

/-! ### Reads -/

theorem readMSR_table (c : RaplCollector) {files : List String} (hc : c.msrFiles = files.length)
    (pread : MsrFile) (core : UInt8) (offset : UInt32) :
    c.readMSR (table files pread) core offset
      = (files[core.toNat]?).bind fun name => pread name offset := by
  rw [readMSR]
  split
  · rw [List.getElem?_eq_none (by omega)]
    rfl
  · rfl

/-- `Init` leaves the table of `OpenMSR`, and no call changes it. -/
theorem msrFiles_init (c : RaplCollector) (opened : ℕ) (pread : Msr) :
    (c.init opened pread).2.msrFiles = opened := by
  obtain ⟨_, _, _, _, _, heq⟩ := c.exists_init_eq opened pread
  rw [heq]

theorem msrFiles_collect (c : RaplCollector) (pread : Msr) (now : Int64) :
    (c.collect pread now).2.msrFiles = c.msrFiles := by
  obtain ⟨_, heq⟩ := c.exists_collect_eq pread now
  rw [heq]

/-- A package reading is made at position 0. -/
theorem collect_congr (c : RaplCollector) {pread pread' : Msr}
    (h : c.readMSR pread 0 MSR_RAPL.energyStatus = c.readMSR pread' 0 MSR_RAPL.energyStatus)
    (now : Int64) : c.collect pread now = c.collect pread' now := by
  rw [collect, collect, h]

theorem collect_of_readMSR_none (c : RaplCollector) {pread : Msr}
    (h : c.readMSR pread 0 MSR_RAPL.energyStatus = none) (now : Int64) :
    c.collect pread now = ([], c) := by
  have hself : c.collect (fun _ _ => none) now = ([], c) := c.collect_eq_self (.inr rfl) now
  rw [← hself]
  refine c.collect_congr (h.trans ?_) now
  rw [readMSR, ite_self]

theorem ownCore_of_getElem? {files : List String}
    (h : ∀ core < 256, core < files.length → files[core]? = some core.repr) : OwnCore files := by
  constructor
  · intro c pread core offset hc
    rw [readMSR_table c hc]
    by_cases hlt : core.toNat < files.length
    · right
      rw [h core.toNat core.toNat_lt hlt]
      rfl
    · left
      rw [List.getElem?_eq_none (by omega)]
      rfl
  · intro c pread now hc
    by_cases hpos : 0 < files.length
    · right
      refine c.collect_congr ?_ now
      rw [readMSR_table c hc, readMSR, if_neg (by rw [hc]; simpa using hpos.ne')]
      exact congrArg (fun name => Option.bind name _) (h 0 (by decide) hpos)
    · left
      refine c.collect_of_readMSR_none ?_ now
      rw [readMSR_table c hc, List.eq_nil_of_length_eq_zero (Nat.eq_zero_of_not_pos hpos)]
      rfl

/-- Reads of a file give the name of its directory away. -/
theorem OwnCore.getElem?_eq {files : List String} (h : OwnCore files) {core : ℕ}
    (hcore : core < 256) (hlt : core < files.length) : files[core]? = some core.repr := by
  have hnat : (UInt8.ofNat core).toNat = core := UInt8.toNat_ofNat_of_lt' hcore
  -- a file that only fails for the directory named `core`
  have hread := h.readMSR { msrFiles := files.length }
    (fun name _ => if name = core.repr then none else some 0) (UInt8.ofNat core) 0 rfl
  rw [readMSR_table _ rfl, hnat, List.getElem?_eq_getElem hlt, Option.bind_some, if_pos rfl,
    or_self] at hread
  rw [List.getElem?_eq_getElem hlt]
  by_contra hne
  rw [if_neg fun heq => hne (congrArg some heq)] at hread
  exact absurd hread (by simp)

/-- **When a read is one of its core.**  For every content of `/dev/cpu`, every
order of its entries and every choice of the files that can be opened: after
`OpenMSR`, the file that is read for a core is that of the directory named by it,
exactly when the CPUs whose file can be opened are numbered from 0 without a gap,
as far as a `uint8_t` can count. -/
theorem ownCore_iff {opens : String → Bool} {base : CpuBase} {files : List String}
    (h : openMSR opens (some base) = .ok files) :
    OwnCore files ↔ Gapless (openable base opens) := by
  obtain ⟨hperm, hsorted⟩ := openMSR_eq_ok h
  constructor
  · intro hown
    exact gapless_of_getElem? hperm hsorted (fun _ hname => isDigit_of_mem_openable hname)
      fun core hcore hlt => hown.getElem?_eq hcore hlt
  · intro hgapless
    exact ownCore_of_getElem? fun core hcore hlt => hgapless.getElem?_eq hperm hsorted hcore hlt

/-- Two CPUs, listed in the wrong order and with the file `microcode`. -/
theorem ownCore_iff_two : OwnCore ["0", "1"] := by
  let base : CpuBase := ⟨[⟨"1", true⟩, ⟨"microcode", false⟩, ⟨"0", true⟩], by simp⟩
  have hopen : openMSR (fun _ => true) (some base) = .ok ["0", "1"] := by decide +kernel
  have hnames : openable base (fun _ => true) = ["1", "0"] := by decide +kernel
  refine (ownCore_iff hopen).mpr (hnames ▸ ⟨?_, ?_⟩)
  · decide +kernel
  · decide +kernel

/-- The file of CPU 0 cannot be opened: the energy of CPU 1 is labelled core 0. -/
theorem energy_of_another_cpu :
    ¬ ∀ (opens : String → Bool) (base : CpuBase) (files : List String),
      openMSR opens (some base) = .ok files → OwnCore files := by
  intro hall
  let base : CpuBase := ⟨[⟨"0", true⟩, ⟨"1", true⟩], by simp⟩
  have hopen : openMSR (fun name => name = "1") (some base) = .ok ["1"] := by decide +kernel
  have hown := (hall _ base _ hopen).package
    { requestedMetrics := [metricTypeCpuPowerPackage], initialized := true, energyUnits := 1
      msrFiles := 1 } (fun name _ => if name = "0" then some 5 else some 7) 0 rfl
  have hvalues := hown.imp (congrArg fun result => result.1.map Metric.value)
    (congrArg fun result => result.1.map Metric.value)
  exact absurd hvalues (by decide +kernel)

end RaplCollector
end Volta
