/-
The key `core_affinity` of `agent.conf` (`config_loader.cc`).

An entry is a CPU or a range `"X-Y"`.  The ranges are read with `sscanf`, and
numbers with the TOML library, both of which take more than that.

* `WellFormed`, `Lists` — the entries that are documented, and their CPUs;
* `Tolerated` — other entries that pass the checks;
* `isSome_addItem_iff` — no other entry does;
* `allOrNothing_iff` — an array is taken as documented exactly when no entry is
  tolerated or some entry is refused.
-/
import Volta.Numeral
import Volta.Scanf
import Volta.Toml
import Mathlib.Data.Finset.Insert
import Mathlib.Data.Fintype.Basic

namespace Volta

def cpuSetSize : ℕ := 1024

/-- `cpu_set_t`. -/
abbrev CpuSet := Finset (Fin cpuSetSize)

/-- `CPU_SET`, which ignores what does not fit. -/
def CpuSet.set (mask : CpuSet) (cpu : ℕ) : CpuSet :=
  if h : cpu < cpuSetSize then insert ⟨cpu, h⟩ mask else mask

namespace CoreAffinity

/-- `none` is false, which leaves the set alone. -/
def addCpu (mask : CpuSet) (cpu maxCpu : UInt32) : Option CpuSet :=
  if cpu ≥ maxCpu then none else some (mask.set cpu.toNat)

def addRange (mask : CpuSet) (first last maxCpu : UInt32) : Option CpuSet :=
  if first > last ∨ last ≥ maxCpu then none
  else
    some ((List.range' first.toNat (last.toNat + 1 - first.toNat)).foldl CpuSet.set mask)

/-- `sysconf(_SC_NPROCESSORS_ONLN)` for the affinity "all". -/
def kDefaultAffinity (nCpus : ℕ) : CpuSet :=
  (List.range (min nCpus cpuSetSize)).foldl CpuSet.set ∅

section Load

variable (lib : TomlLib) (maxCpu : UInt32)

/-- One turn of the loop; `none` is a return. -/
def addItem (mask : CpuSet) (item : TomlNode) : Option CpuSet :=
  match lib.valueUInt32 item with
  | some cpu => addCpu mask cpu maxCpu
  | none =>
      match item.valueString with
      | some str =>
          match Scanf.scanRange (Scanf.cStr str) with
          | some (first, last) => addRange mask first last maxCpu
          | none => none
      | none => none

/-- `core_affinity` of the configuration, and the mask of the call of
`sched_setaffinity` if there is one.  What the call answers is printed only. -/
structure Loaded where
  coreAffinity : CpuSet
  setAffinity : Option CpuSet := none

def loadCoreAffinity (nCpus : ℕ) (val : Option TomlNode) (out : CpuSet) : Loaded :=
  match val with
  | none => { coreAffinity := out }
  | some val =>
      if val.valueString = some "all" then { coreAffinity := kDefaultAffinity nCpus }
      else
        match val with
        | .array items =>
            match items.foldlM (addItem lib maxCpu) ∅ with
            | some mask => { coreAffinity := mask, setAffinity := some mask }
            | none => { coreAffinity := out }
        | _ => { coreAffinity := out }

end Load

/-! ### The documented entries -/

/-- Two decimal numbers with `-` between them, and nothing else. -/
def IsDecimalRange (s : String) (x y : ℕ) : Prop :=
  ∃ digits digits', s.toList = digits ++ '-' :: digits' ∧
    (digits ≠ [] ∧ ∀ c ∈ digits, c.isDigit) ∧ (digits' ≠ [] ∧ ∀ c ∈ digits', c.isDigit) ∧
    x = Nat.ofDigitChars 10 digits 0 ∧ y = Nat.ofDigitChars 10 digits' 0

def WellFormed (maxCpu : ℕ) : TomlNode → Prop
  | .integer n => 0 ≤ n.toInt ∧ n.toInt < maxCpu
  | .string s => ∃ x y, IsDecimalRange s x y ∧ x ≤ y ∧ y < maxCpu
  | _ => False

/-- The CPUs of an entry. -/
def Lists (cpu : ℕ) : TomlNode → Prop
  | .integer n => n.toInt = cpu
  | .string s => ∃ x y, IsDecimalRange s x y ∧ x ≤ cpu ∧ cpu ≤ y
  | _ => False

/-- Not documented, but accepted: a text that begins with two numbers, with
blanks, signs and more text around them, and which are in range as they are
stored; and a value of another type that the library converts to a number. -/
def Tolerated (lib : TomlLib) (maxCpu : UInt32) : TomlNode → Prop
  | .integer _ => False
  | .string s => ¬ WellFormed maxCpu.toNat (.string s) ∧
      ∃ first second rest, Scanf.IsRange s.toList first second rest ∧
        first.value ≤ second.value ∧ second.value < maxCpu
  | item => ∃ cpu, lib.valueUInt32 item = some cpu ∧ cpu < maxCpu

/-- Neither documented nor accepted. -/
def Refused (lib : TomlLib) (maxCpu : UInt32) (item : TomlNode) : Prop :=
  ¬ WellFormed maxCpu.toNat item ∧ ¬ Tolerated lib maxCpu item

/-- Documented entries are all taken, and any other leaves the configuration and
the process alone. -/
structure AllOrNothing (lib : TomlLib) (maxCpu : UInt32) (nCpus : ℕ) (items : List TomlNode)
    (out : CpuSet) : Prop where
  accepted : (∀ item ∈ items, WellFormed maxCpu.toNat item) →
    ∀ cpu : Fin cpuSetSize,
      cpu ∈ (loadCoreAffinity lib maxCpu nCpus (some (.array items)) out).coreAffinity ↔
        ∃ item ∈ items, Lists cpu item
  refused : (∃ item ∈ items, ¬ WellFormed maxCpu.toNat item) →
    (loadCoreAffinity lib maxCpu nCpus (some (.array items)) out).coreAffinity = out ∧
      (loadCoreAffinity lib maxCpu nCpus (some (.array items)) out).setAffinity = none

/-! ### One entry -/

theorem mem_set {mask : CpuSet} {n : ℕ} (hn : n < cpuSetSize) (cpu : Fin cpuSetSize) :
    cpu ∈ mask.set n ↔ cpu ∈ mask ∨ n = cpu := by
  rw [CpuSet.set, dif_pos hn, Finset.mem_insert, or_comm, Fin.ext_iff]
  exact or_congr_right eq_comm

theorem mem_foldl_set {l : List ℕ} (hl : ∀ n ∈ l, n < cpuSetSize) (mask : CpuSet)
    (cpu : Fin cpuSetSize) : cpu ∈ l.foldl CpuSet.set mask ↔ cpu ∈ mask ∨ (cpu : ℕ) ∈ l := by
  induction l generalizing mask with
  | nil => simp
  | cons n l ih =>
    rw [List.foldl_cons, ih (fun n hn => hl n (List.mem_cons_of_mem _ hn)),
      mem_set (hl n List.mem_cons_self), List.mem_cons, or_assoc, eq_comm (a := n)]

theorem isDecimalRange_unique {s : String} {x y x' y' : ℕ} (h : IsDecimalRange s x y)
    (h' : IsDecimalRange s x' y') : x = x' ∧ y = y' := by
  have hnotMem {l : List Char} (hl : ∀ c ∈ l, c.isDigit) : '-' ∉ l := fun hmem =>
    absurd (hl '-' hmem) (by decide)
  obtain ⟨d, e, hs, ⟨-, hd⟩, -, rfl, rfl⟩ := h
  obtain ⟨d', e', hs', ⟨-, hd'⟩, -, rfl, rfl⟩ := h'
  obtain ⟨rfl, rfl⟩ :=
    (Numeral.append_separator_inj (hnotMem hd) (hnotMem hd')).mp (hs.symm.trans hs')
  exact ⟨rfl, rfl⟩

/-- `sscanf` reads a decimal range of small numbers as it is. -/
theorem scanRange_of_isDecimalRange {s : String} {x y : ℕ} (h : IsDecimalRange s x y)
    (hx : x < 2 ^ 32) (hy : y < 2 ^ 32) :
    ∃ first last, Scanf.scanRange (Scanf.cStr s) = some (first, last) ∧ first.toNat = x ∧
      last.toNat = y := by
  obtain ⟨d, e, hs, ⟨hd, hd'⟩, ⟨he, he'⟩, rfl, rfl⟩ := h
  refine ⟨_, _, Scanf.scanRange_cStr_iff.mpr ⟨.plain d hd hd', .plain e he he', [], ⟨?_, ?_⟩, rfl,
    rfl⟩, Scanf.Unsigned.toNat_value_plain hd hd' hx, Scanf.Unsigned.toNat_value_plain he he' hy⟩
  · rw [List.append_nil]
    exact hs
  · intro c hc
    exact absurd hc (by simp)

section Items

variable {lib : TomlLib} {maxCpu : UInt32}

theorem addCpu_of_lt {cpu : UInt32} (h : cpu < maxCpu) (mask : CpuSet) :
    addCpu mask cpu maxCpu = some (mask.set cpu.toNat) :=
  if_neg (UInt32.not_le.mpr h)

theorem addRange_of_le {first last : UInt32} (hle : first ≤ last) (hlt : last < maxCpu)
    (mask : CpuSet) :
    addRange mask first last maxCpu
      = some ((List.range' first.toNat (last.toNat + 1 - first.toNat)).foldl CpuSet.set mask) := by
  refine if_neg ?_
  rintro (h | h)
  · exact UInt32.not_le.mpr h hle
  · exact UInt32.not_le.mpr hlt h

theorem isSome_addCpu_iff {cpu : UInt32} {mask : CpuSet} :
    (addCpu mask cpu maxCpu).isSome ↔ cpu < maxCpu := by
  rw [addCpu, ← UInt32.not_le]
  split
  · rename_i h
    simpa using h
  · rename_i h
    simpa using h

theorem isSome_addRange_iff {first last : UInt32} {mask : CpuSet} :
    (addRange mask first last maxCpu).isSome ↔ first ≤ last ∧ last < maxCpu := by
  rw [addRange]
  split
  · rename_i h
    rcases h with h | h
    · simp [UInt32.not_le.mpr h]
    · simp [UInt32.not_lt.mpr h]
  · rename_i h
    rw [not_or] at h
    simpa using ⟨UInt32.not_lt.mp h.1, UInt32.not_le.mp h.2⟩

/-- A documented entry adds its CPUs. -/
theorem addItem_of_wellFormed (hlib : lib.Converts) (hmax : maxCpu.toNat ≤ cpuSetSize)
    {item : TomlNode} (h : WellFormed maxCpu.toNat item) (mask : CpuSet) :
    ∃ mask', addItem lib maxCpu mask item = some mask' ∧
      ∀ cpu : Fin cpuSetSize, cpu ∈ mask' ↔ cpu ∈ mask ∨ Lists cpu item := by
  have hmax32 : maxCpu.toNat < 2 ^ 32 := maxCpu.toNat_lt
  cases item with
  | integer n =>
    obtain ⟨hnonneg, hlt⟩ := h
    have hx : (UInt32.ofNat n.toInt.toNat).toNat = n.toInt.toNat := by
      rw [UInt32.toNat_ofNat']
      exact Nat.mod_eq_of_lt (by omega)
    have hvalue : lib.valueUInt32 (.integer n) = some (UInt32.ofNat n.toInt.toNat) := by
      rw [hlib.uint32_integer, hx]
      omega
    refine ⟨mask.set n.toInt.toNat, ?_, fun cpu => ?_⟩
    · rw [addItem, hvalue]
      dsimp only
      rw [addCpu_of_lt (UInt32.lt_iff_toNat_lt.mpr (by omega)), hx]
    · rw [mem_set (by omega), Lists]
      refine or_congr_right ?_
      omega
  | string s =>
    obtain ⟨x, y, hrange, hle, hlt⟩ := h
    obtain ⟨first, last, hscan, rfl, rfl⟩ :=
      scanRange_of_isDecimalRange hrange (by omega) (by omega)
    refine ⟨(List.range' first.toNat (last.toNat + 1 - first.toNat)).foldl CpuSet.set mask, ?_,
      fun cpu => ?_⟩
    · rw [addItem, hlib.uint32_string, TomlNode.valueString]
      dsimp only
      rw [hscan]
      exact addRange_of_le (UInt32.le_iff_toNat_le.mpr hle) (UInt32.lt_iff_toNat_lt.mpr hlt) mask
    · rw [mem_foldl_set, List.mem_range'_1]
      · refine or_congr_right ⟨fun h => ⟨_, _, hrange, by omega, by omega⟩, ?_⟩
        rintro ⟨x', y', hrange', hx, hy⟩
        obtain ⟨rfl, rfl⟩ := isDecimalRange_unique hrange' hrange
        omega
      · intro n hn
        rw [List.mem_range'_1] at hn
        omega
  | floatingPoint | boolean | dateTime | array | table => exact h.elim

/-- A value that is no string passes as the number that it is converted to. -/
theorem isSome_addItem_of_not_string {item : TomlNode} (h : item.valueString = none)
    {mask : CpuSet} :
    (addItem lib maxCpu mask item).isSome ↔
      ∃ cpu, lib.valueUInt32 item = some cpu ∧ cpu < maxCpu := by
  rw [addItem, h]
  cases hvalue : lib.valueUInt32 item with
  | none => simp
  | some cpu => simp [isSome_addCpu_iff]

/-- What the checks let pass. -/
theorem isSome_addItem_iff (hlib : lib.Converts) (hmax : maxCpu.toNat ≤ cpuSetSize)
    {item : TomlNode} (mask : CpuSet) :
    (addItem lib maxCpu mask item).isSome ↔
      WellFormed maxCpu.toNat item ∨ Tolerated lib maxCpu item := by
  have hwell (h : WellFormed maxCpu.toNat item) : (addItem lib maxCpu mask item).isSome := by
    obtain ⟨mask', heq, -⟩ := addItem_of_wellFormed hlib hmax h mask
    rw [heq]
    rfl
  cases item with
  | integer n =>
    refine ⟨fun h => .inl ?_, fun h => hwell (h.resolve_right id)⟩
    obtain ⟨cpu, hvalue, hlt⟩ := (isSome_addItem_of_not_string rfl).mp h
    rw [hlib.uint32_integer] at hvalue
    rw [UInt32.lt_iff_toNat_lt] at hlt
    exact ⟨by omega, by omega⟩
  | string s =>
    have hscan : (addItem lib maxCpu mask (.string s)).isSome ↔
        ∃ first second rest, Scanf.IsRange s.toList first second rest ∧
          first.value ≤ second.value ∧ second.value < maxCpu := by
      rw [addItem, hlib.uint32_string, TomlNode.valueString]
      dsimp only
      constructor
      · intro h
        cases hscan : Scanf.scanRange (Scanf.cStr s) with
        | none =>
          rw [hscan] at h
          exact absurd h (by simp)
        | some p =>
          rw [hscan] at h
          obtain ⟨first, second, rest, hrange, hm, hn⟩ := Scanf.scanRange_cStr_iff.mp hscan
          refine ⟨first, second, rest, hrange, ?_⟩
          rw [hm, hn]
          exact isSome_addRange_iff.mp h
      · rintro ⟨first, second, rest, hrange, hle⟩
        rw [Scanf.scanRange_cStr_iff.mpr ⟨first, second, rest, hrange, rfl, rfl⟩]
        exact isSome_addRange_iff.mpr hle
    constructor
    · intro h
      by_cases hwf : WellFormed maxCpu.toNat (.string s)
      · exact .inl hwf
      · exact .inr ⟨hwf, hscan.mp h⟩
    · rintro (h | ⟨-, h⟩)
      · exact hwell h
      · exact hscan.mpr h
  | floatingPoint | boolean | dateTime | array | table =>
    exact (isSome_addItem_of_not_string rfl).trans (or_iff_right id).symm

/-! ### The array -/

theorem isSome_foldlM_iff (hlib : lib.Converts) (hmax : maxCpu.toNat ≤ cpuSetSize)
    {items : List TomlNode} (mask : CpuSet) :
    (items.foldlM (addItem lib maxCpu) mask).isSome ↔
      ∀ item ∈ items, WellFormed maxCpu.toNat item ∨ Tolerated lib maxCpu item := by
  induction items generalizing mask with
  | nil => exact iff_of_true rfl (fun _ h => absurd h List.not_mem_nil)
  | cons item items ih =>
    rw [List.foldlM_cons, List.forall_mem_cons, ← isSome_addItem_iff hlib hmax mask]
    cases addItem lib maxCpu mask item with
    | none => simp
    | some mask' => simpa using ih mask'

/-- Documented entries add up, in any order and however often. -/
theorem foldlM_of_wellFormed (hlib : lib.Converts) (hmax : maxCpu.toNat ≤ cpuSetSize)
    {items : List TomlNode} (h : ∀ item ∈ items, WellFormed maxCpu.toNat item) (mask : CpuSet) :
    ∃ mask', items.foldlM (addItem lib maxCpu) mask = some mask' ∧
      ∀ cpu : Fin cpuSetSize, cpu ∈ mask' ↔ cpu ∈ mask ∨ ∃ item ∈ items, Lists cpu item := by
  induction items generalizing mask with
  | nil => exact ⟨mask, rfl, by simp⟩
  | cons item items ih =>
    rw [List.forall_mem_cons] at h
    obtain ⟨mask₁, heq₁, hmem₁⟩ := addItem_of_wellFormed hlib hmax h.1 mask
    obtain ⟨mask₂, heq₂, hmem₂⟩ := ih h.2 mask₁
    refine ⟨mask₂, ?_, fun cpu => ?_⟩
    · rw [List.foldlM_cons, heq₁]
      exact heq₂
    · rw [hmem₂, hmem₁, or_assoc, List.exists_mem_cons_iff]

theorem not_wellFormed_of_tolerated {item : TomlNode} (h : Tolerated lib maxCpu item) :
    ¬ WellFormed maxCpu.toNat item := by
  cases item with
  | integer n => exact h.elim
  | string s => exact h.1
  | floatingPoint | boolean | dateTime | array | table => exact id

/-- The array is read to its end or not at all. -/
theorem loadCoreAffinity_array (nCpus : ℕ) (items : List TomlNode) (out : CpuSet) :
    loadCoreAffinity lib maxCpu nCpus (some (.array items)) out
      = match items.foldlM (addItem lib maxCpu) ∅ with
        | some mask => { coreAffinity := mask, setAffinity := some mask }
        | none => { coreAffinity := out } := rfl

/-- **When `core_affinity` is read as documented.**  For every array and every
number of CPUs: if all entries are documented, their union is the affinity, and
if one is not, nothing happens; exactly if no entry is tolerated unless another
one is refused. -/
theorem allOrNothing_iff (hlib : lib.Converts) (hmax : maxCpu.toNat ≤ cpuSetSize) (nCpus : ℕ)
    (items : List TomlNode) (out : CpuSet) :
    AllOrNothing lib maxCpu nCpus items out ↔
      ((∃ item ∈ items, Tolerated lib maxCpu item) → ∃ item ∈ items, Refused lib maxCpu item) := by
  have hsome : (items.foldlM (addItem lib maxCpu) ∅).isSome ↔
      ∀ item ∈ items, WellFormed maxCpu.toNat item ∨ Tolerated lib maxCpu item :=
    isSome_foldlM_iff hlib hmax ∅
  constructor
  · rintro h ⟨item, hmem, htolerated⟩
    by_contra hnone
    have hall : ∀ item ∈ items, WellFormed maxCpu.toNat item ∨ Tolerated lib maxCpu item := by
      intro item hmem
      by_contra hno
      exact hnone ⟨item, hmem, not_or.mp hno⟩
    obtain ⟨mask, hmask⟩ := Option.isSome_iff_exists.mp (hsome.mpr hall)
    have hcall := (h.refused ⟨item, hmem, not_wellFormed_of_tolerated htolerated⟩).2
    rw [loadCoreAffinity_array, hmask] at hcall
    exact absurd hcall (by simp)
  · intro hok
    refine ⟨fun hall cpu => ?_, fun ⟨item, hmem, hbad⟩ => ?_⟩
    · obtain ⟨mask, hmask, hmem⟩ := foldlM_of_wellFormed hlib hmax hall ∅
      rw [loadCoreAffinity_array, hmask]
      simpa using hmem cpu
    · -- some entry is refused, this one or another
      have hrefused : ∃ item ∈ items, Refused lib maxCpu item := by
        by_cases htolerated : Tolerated lib maxCpu item
        · exact hok ⟨item, hmem, htolerated⟩
        · exact ⟨item, hmem, hbad, htolerated⟩
      obtain ⟨item', hmem', hrefused⟩ := hrefused
      have hnone : items.foldlM (addItem lib maxCpu) ∅ = none := by
        rw [← Option.not_isSome_iff_eq_none, hsome]
        exact fun hall => (hall item' hmem').elim hrefused.1 hrefused.2
      rw [loadCoreAffinity_array, hnone]
      exact ⟨rfl, rfl⟩

end Items

/-- The array of the README on a machine with 16 CPUs. -/
theorem allOrNothing_iff_readme :
    AllOrNothing .permissive 16 16 [.integer 2, .string "3-10"] ∅ := by
  have hrange : IsDecimalRange "3-10" 3 10 :=
    ⟨['3'], ['1', '0'], rfl, by simp, by simp, rfl, rfl⟩
  refine (allOrNothing_iff TomlLib.converts_permissive (by decide) 16 _ ∅).mpr ?_
  rintro ⟨item, hmem, htolerated⟩
  rcases List.mem_cons.mp hmem with rfl | hmem
  · exact htolerated.elim
  · rw [List.mem_singleton.mp hmem] at htolerated
    exact absurd ⟨3, 10, hrange, by decide, by decide⟩ htolerated.1

/-- The typing error `"1-3x"` pins the agent to the CPUs 1 to 3. -/
theorem typo_accepted :
    ¬ ∀ (lib : TomlLib) (maxCpu : UInt32) (nCpus : ℕ) (items : List TomlNode) (out : CpuSet),
      lib.Converts → maxCpu.toNat ≤ cpuSetSize → AllOrNothing lib maxCpu nCpus items out := by
  intro hall
  have hbad : ¬ WellFormed (UInt32.toNat 8) (.string "1-3x") := by
    rintro ⟨x, y, ⟨d, e, hs, ⟨-, hd⟩, ⟨-, he⟩, -, -⟩, -⟩
    have hminus : '-' ∉ d := fun hmem => absurd (hd '-' hmem) (by decide)
    obtain ⟨-, rfl⟩ := (Numeral.append_separator_inj (l := ['1']) (r := ['3', 'x'])
      (by decide) hminus).mp hs
    exact absurd (he 'x' (by decide)) (by decide)
  have hcall := ((hall .permissive 8 8 [.string "1-3x"] ∅ TomlLib.converts_permissive
    (by decide)).refused ⟨_, List.mem_singleton_self _, hbad⟩).2
  exact absurd hcall (by decide +kernel)

end CoreAffinity
end Volta
