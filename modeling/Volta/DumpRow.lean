/-
The rows of a dump read back (`exporter.cc`).

The stream prints a `double` with six significant digits.

* `readRow_line` — a row gives the metric back, with its value rounded;
* `losesNothing_iff` — a dump loses nothing exactly when every value in it has
  at most six digits.
-/
import Volta.Exporter
import Volta.GeneralFormat

namespace Volta

namespace Exporter

open GeneralFormat

/-! ### A reader of the file -/

/-- A number that was written as an `unsigned int`. -/
def readUInt32 (l : List Char) : Option UInt32 := (readNat l).map UInt32.ofNat

/-- A number that was written as an `int`. -/
def readInt32 (l : List Char) : Option UInt32 :=
  (readInt l).map fun n => (Int32.ofInt n).toUInt32

def readGpu (l : List Char) : Option GpuID :=
  match l.splitOn ':' with
  | [domain, bus, rest] =>
      match rest.splitOn '.' with
      | [device, function] => do
          let domain ← readUInt32 domain
          let bus ← readInt32 bus
          let device ← readInt32 device
          let function ← readInt32 function
          some ⟨domain, bus, device, function⟩
      | _ => none
  | _ => none

def readCpu (l : List Char) : Option CpuID :=
  match l.splitOn '/' with
  | [socket, core] => do
      let socket ← readInt32 socket
      let core ← readUInt32 core
      some ⟨socket, core⟩
  | _ => none

def readDisk (l : List Char) : Option DiskID :=
  match l.splitOn ':' with
  | [major, minor] => do
      let major ← readUInt32 major
      let minor ← readUInt32 minor
      some ⟨major, minor⟩
  | _ => none

def readId (kind : String) (id : List Char) : Option DeviceId :=
  if kind = "gpu" then (readGpu id).map .gpu
  else if kind = "cpu" then (readCpu id).map .cpu
  else if kind = "net_ifindex" then (readUInt32 id).map fun ifindex => .network ⟨ifindex⟩
  else if kind = "disk" then (readDisk id).map .disk
  else none

def readDevice (l : List Char) : Option (Option DeviceId) :=
  match l.splitOn '=' with
  | [kind] => if kind = "system".toList then some none else none
  | [kind, id] => (readId (String.ofList kind) id).map some
  | _ => none

def readType (l : List Char) : Option MetricType :=
  (metricTypeNames.find? fun entry => entry.2 = String.ofList l).map Prod.fst

def readRow (l : List Char) : Option Metric :=
  match l.splitOn ';' with
  | [type, device, timestamp, value] => do
      let type ← readType type
      let devId ← readDevice device
      let timestamp ← readInt timestamp
      let value ← read value
      some { type := type, devId := devId, value := value, timestamp := Int64.ofInt timestamp }
  | _ => none

/-- The lines of a text, each of which ends with a newline. -/
def readRows (text : String) : List (Option Metric) :=
  (text.toList.splitOn '\n').dropLast.map readRow

/-! ### Devices -/

theorem readUInt32_toDigits (n : UInt32) : readUInt32 (Nat.toDigits 10 n.toNat) = some n := by
  rw [readUInt32, readNat_toDigits, Option.map_some, UInt32.ofNat_toNat]

theorem readInt32_repr (n : UInt32) : readInt32 n.toInt32.toInt.repr.toList = some n := by
  rw [readInt32, readInt_repr, Option.map_some, Int32.ofInt_toInt, UInt32.toUInt32_toInt32]

theorem notMem_toDigits {c : Char} (hc : c.isDigit = false) (n : ℕ) : c ∉ Nat.toDigits 10 n :=
  notMem_of_digits (fun _ => isDigit_of_mem_toDigits) hc

theorem notMem_repr {c : Char} (hc : c.isDigit = false) (hminus : c ≠ '-') (n : ℤ) :
    c ∉ n.repr.toList := by
  rw [Numeral.toList_intRepr]
  split
  · exact notMem_toDigits hc _
  · rw [List.mem_cons, not_or]
    exact ⟨hminus, notMem_toDigits hc _⟩

theorem readGpu_text (id : GpuID) :
    readGpu (Nat.toDigits 10 id.pciDomain.toNat ++ ':' :: (id.pciBus.toInt32.toInt.repr.toList ++
      ':' :: (id.pciDevice.toInt32.toInt.repr.toList ++
        '.' :: id.pciFunction.toInt32.toInt.repr.toList))) = some id := by
  have hrest : ':' ∉ id.pciDevice.toInt32.toInt.repr.toList ++
      '.' :: id.pciFunction.toInt32.toInt.repr.toList := by
    simp [notMem_repr]
  rw [readGpu, List.splitOn_append_cons_self_of_not_mem (notMem_toDigits (by decide) _),
    List.splitOn_append_cons_self_of_not_mem (notMem_repr (by decide) (by decide) _),
    List.splitOn_eq_singleton hrest]
  dsimp only
  rw [List.splitOn_append_cons_self_of_not_mem (notMem_repr (by decide) (by decide) _),
    List.splitOn_eq_singleton (notMem_repr (by decide) (by decide) _)]
  dsimp only
  rw [readUInt32_toDigits, readInt32_repr, readInt32_repr, readInt32_repr]
  rfl

theorem readCpu_text (id : CpuID) :
    readCpu (id.socketIndex.toInt32.toInt.repr.toList ++ '/' ::
      Nat.toDigits 10 id.coreIndex.toNat) = some id := by
  rw [readCpu, List.splitOn_append_cons_self_of_not_mem (notMem_repr (by decide) (by decide) _),
    List.splitOn_eq_singleton (notMem_toDigits (by decide) _)]
  dsimp only
  rw [readInt32_repr, readUInt32_toDigits]
  rfl

theorem readDisk_text (id : DiskID) :
    readDisk (Nat.toDigits 10 id.major.toNat ++ ':' :: Nat.toDigits 10 id.minor.toNat)
      = some id := by
  rw [readDisk, List.splitOn_append_cons_self_of_not_mem (notMem_toDigits (by decide) _),
    List.splitOn_eq_singleton (notMem_toDigits (by decide) _)]
  dsimp only
  rw [readUInt32_toDigits, readUInt32_toDigits]
  rfl

/-- The text of an identifier. -/
def idText : DeviceId → List Char
  | .gpu id => Nat.toDigits 10 id.pciDomain.toNat ++ ':' :: (id.pciBus.toInt32.toInt.repr.toList ++
      ':' :: (id.pciDevice.toInt32.toInt.repr.toList ++
        '.' :: id.pciFunction.toInt32.toInt.repr.toList))
  | .cpu id => id.socketIndex.toInt32.toInt.repr.toList ++ '/' ::
      Nat.toDigits 10 id.coreIndex.toNat
  | .network id => Nat.toDigits 10 id.ifindex.toNat
  | .disk id => Nat.toDigits 10 id.major.toNat ++ ':' :: Nat.toDigits 10 id.minor.toNat

def kind : DeviceId → String
  | .gpu _ => "gpu"
  | .cpu _ => "cpu"
  | .network _ => "net_ifindex"
  | .disk _ => "disk"

theorem kind_mem (id : DeviceId) : kind id ∈ ["gpu", "cpu", "net_ifindex", "disk"] := by
  cases id <;> simp [kind]

theorem toString_uint32 (n : UInt32) : toString n = n.toNat.repr := rfl

theorem toString_int32 (n : Int32) : toString n = n.toInt.repr := rfl

theorem describeDevice_of_some {m : Metric} {id : DeviceId} (h : m.devId = some id) :
    (describeDevice m).toList = (kind id).toList ++ '=' :: idText id := by
  have hcolon : ":".toList = [':'] := rfl
  have hdot : ".".toList = ['.'] := rfl
  have hslash : "/".toList = ['/'] := rfl
  rw [describeDevice, h]
  cases id with
  | gpu id =>
    have hgpu : "gpu=".toList = "gpu".toList ++ ['='] := rfl
    dsimp only
    rw [toString_uint32, toString_int32, toString_int32, toString_int32]
    simp only [String.toList_append, Nat.toList_repr, hgpu, hcolon, hdot, List.append_assoc,
      List.nil_append, List.cons_append, kind, idText]
  | cpu id =>
    have hcpu : "cpu=".toList = "cpu".toList ++ ['='] := rfl
    dsimp only
    rw [toString_uint32, toString_int32]
    simp only [String.toList_append, Nat.toList_repr, hcpu, hslash, List.append_assoc,
      List.nil_append, List.cons_append, kind, idText]
  | network id =>
    have hnet : "net_ifindex=".toList = "net_ifindex".toList ++ ['='] := rfl
    dsimp only
    rw [toString_uint32]
    simp only [String.toList_append, Nat.toList_repr, hnet, List.append_assoc, List.nil_append,
      List.cons_append, kind, idText]
  | disk id =>
    have hdisk : "disk=".toList = "disk".toList ++ ['='] := rfl
    dsimp only
    rw [toString_uint32, toString_uint32]
    simp only [String.toList_append, Nat.toList_repr, hdisk, hcolon, List.append_assoc,
      List.nil_append, List.cons_append, kind, idText]

/-- Digits, signs and separators only. -/
theorem notMem_idText {c : Char} (hc : c.isDigit = false) (hsep : c ∉ "-:./".toList)
    (id : DeviceId) : c ∉ idText id := by
  have hne (d : Char) (hd : d ∈ "-:./".toList) : c ≠ d := fun heq => hsep (heq ▸ hd)
  have hminus := hne '-' (by decide)
  have hcolon := hne ':' (by decide)
  have hdot := hne '.' (by decide)
  have hslash := hne '/' (by decide)
  cases id with
  | gpu id => simp [idText, notMem_toDigits hc, notMem_repr hc hminus, hcolon, hdot]
  | cpu id => simp [idText, notMem_toDigits hc, notMem_repr hc hminus, hslash]
  | network id => simp [idText, notMem_toDigits hc]
  | disk id => simp [idText, notMem_toDigits hc, hcolon]

theorem readId_idText (id : DeviceId) : readId (kind id) (idText id) = some id := by
  rw [readId]
  cases id with
  | gpu id =>
    rw [if_pos (by rfl), idText, readGpu_text]
    rfl
  | cpu id =>
    rw [if_neg (by simp [kind]), if_pos (by rfl), idText, readCpu_text]
    rfl
  | network id =>
    rw [if_neg (by simp [kind]), if_neg (by simp [kind]), if_pos (by rfl), idText,
      readUInt32_toDigits]
    rfl
  | disk id =>
    rw [if_neg (by simp [kind]), if_neg (by simp [kind]), if_neg (by simp [kind]), if_pos (by rfl),
      idText, readDisk_text]
    rfl

theorem readDevice_describeDevice (m : Metric) :
    readDevice (describeDevice m).toList = some m.devId := by
  cases h : m.devId with
  | none =>
    rw [describeDevice, h]
    rfl
  | some id =>
    have hkind : '=' ∉ (kind id).toList :=
      (by decide : ∀ kind ∈ ["gpu", "cpu", "net_ifindex", "disk"], '=' ∉ kind.toList) _
        (kind_mem id)
    rw [describeDevice_of_some h, readDevice, List.splitOn_append_cons_self_of_not_mem hkind,
      List.splitOn_eq_singleton (notMem_idText (by decide) (by decide) id)]
    dsimp only
    rw [String.ofList_toList, readId_idText]
    rfl

/-- A description is on one line and in one field. -/
theorem notMem_describeDevice {c : Char} (hc : c = ';' ∨ c = '\n') (m : Metric) :
    c ∉ (describeDevice m).toList := by
  have hdigit : c.isDigit = false := by
    rcases hc with rfl | rfl <;> decide
  cases h : m.devId with
  | none =>
    rw [describeDevice, h]
    rcases hc with rfl | rfl <;> decide
  | some id =>
    have hsep : c ∉ "-:./".toList := by
      rcases hc with rfl | rfl <;> decide
    have hkind : ∀ kind ∈ ["gpu", "cpu", "net_ifindex", "disk"], c ∉ kind.toList := by
      rcases hc with rfl | rfl <;> decide
    have heq : c ≠ '=' := by
      rcases hc with rfl | rfl <;> decide
    rw [describeDevice_of_some h, List.mem_append, List.mem_cons, not_or, not_or]
    exact ⟨hkind _ (kind_mem id), heq, notMem_idText hdigit hsep id⟩

/-! ### Rows -/

/-- A row without the end of the line. -/
def line (m : Metric) : List Char :=
  (metricTypeName m.type).toList ++ ';' :: ((describeDevice m).toList ++
    ';' :: (m.timestamp.toInt.repr.toList ++ ';' :: (generalFormat m.value).toList))

theorem toList_row (m : Metric) : (row generalFormat m).toList = line m ++ ['\n'] := by
  have hsep : ";".toList = [';'] := rfl
  have hend : "\n".toList = ['\n'] := rfl
  rw [row, show toString m.timestamp = m.timestamp.toInt.repr from rfl]
  simp only [String.toList_append, hsep, hend, line, List.append_assoc, List.cons_append,
    List.nil_append]

/-- A character of one byte is in a text only if the byte is. -/
theorem notMem_toList {s : String} {c : Char} (hc : c.utf8Size = 1)
    (h : c.val.toUInt8 ∉ s.toByteArray.data.toList) : c ∉ s.toList := by
  intro hmem
  refine h ?_
  rw [← String.utf8Encode_toList, List.utf8Encode, List.toList_data_toByteArray, List.mem_flatMap]
  refine ⟨c, hmem, ?_⟩
  rw [String.utf8EncodeChar_eq_singleton hc]
  exact List.mem_singleton_self _

/-- A row shows of the value its text only. -/
theorem row_congr {m : Metric} {v : ℚ} (h : generalFormat v = generalFormat m.value) :
    row generalFormat { m with value := v } = row generalFormat m := by
  rw [row, row, h]
  rfl

/-- The names are told apart, and are on one line and in one field. -/
theorem readType_metricTypeName {type : MetricType} (h : type ∈ metricTypeNames.map Prod.fst) :
    readType (metricTypeName type).toList = some type ∧ ';' ∉ (metricTypeName type).toList ∧
      '\n' ∉ (metricTypeName type).toList := by
  have hbytes : ∀ entry ∈ metricTypeNames, ';'.val.toUInt8 ∉ entry.2.toByteArray.data.toList ∧
      '\n'.val.toUInt8 ∉ entry.2.toByteArray.data.toList := by
    decide +kernel
  obtain ⟨entry, hmem, rfl⟩ := List.mem_map.mp h
  obtain ⟨hsep, hend⟩ := hbytes entry hmem
  rw [metricTypeName_of_mem hmem, readType, String.ofList_toList, find?_of_nodup nodup_names hmem]
  exact ⟨rfl, notMem_toList (by decide) hsep, notMem_toList (by decide) hend⟩

/-- A row gives the metric back, with the value that its text denotes. -/
theorem readRow_line {m : Metric} (h : m.type ∈ metricTypeNames.map Prod.fst) :
    readRow (line m)
      = (read (generalFormat m.value).toList).map fun v => { m with value := v } := by
  obtain ⟨htype, hsep, -⟩ := readType_metricTypeName h
  rw [readRow, line, List.splitOn_append_cons_self_of_not_mem hsep,
    List.splitOn_append_cons_self_of_not_mem (notMem_describeDevice (.inl rfl) m),
    List.splitOn_append_cons_self_of_not_mem (notMem_repr (by decide) (by decide) _),
    List.splitOn_eq_singleton (notMem_generalFormat (by decide) (by decide) _)]
  dsimp only
  rw [htype, readDevice_describeDevice, readInt_repr]
  cases hvalue : read (generalFormat m.value).toList with
  | none => rfl
  | some v =>
    show some _ = some _
    rw [Int64.ofInt_toInt]

theorem newline_notMem_line {m : Metric} (h : m.type ∈ metricTypeNames.map Prod.fst) :
    '\n' ∉ line m := by
  have htype := (readType_metricTypeName h).2.2
  have hdevice := notMem_describeDevice (.inr rfl) m
  have htime : '\n' ∉ m.timestamp.toInt.repr.toList := notMem_repr (by decide) (by decide) _
  have hvalue : '\n' ∉ (generalFormat m.value).toList :=
    notMem_generalFormat (by decide) (by decide) _
  simp [line, htype, hdevice, htime, hvalue]

/-! ### Dumps -/

/-- A metric of a type of the enumeration, whose value is an integer that a
`double` holds. -/
def Dumpable (m : Metric) : Prop :=
  m.type ∈ metricTypeNames.map Prod.fst ∧ ∃ n : ℤ, IsDouble n.natAbs ∧ m.value = n

/-- What was added to the file gives the metrics back, and no other metric has
the row of one of them. -/
structure LosesNothing (path text : String) (metrics : List Metric) (s : State) : Prop where
  readRows_eq : ∃ rows, s.files path = some (text ++ rows) ∧ readRows rows = metrics.map some
  row_ne : ∀ m ∈ metrics, ∀ m', Dumpable m' → m' ≠ m → row generalFormat m' ≠ row generalFormat m

theorem foldl_row (metrics : List Metric) (text : String) :
    (metrics.foldl (fun text m => text ++ row generalFormat m) text).toList
      = text.toList ++ metrics.flatMap fun m => line m ++ ['\n'] := by
  induction metrics generalizing text with
  | nil => simp
  | cons m metrics ih =>
    rw [List.foldl_cons, ih, String.toList_append, toList_row, List.flatMap_cons, List.append_assoc]

/-- The lines of a dump. -/
theorem splitOn_rows {metrics : List Metric}
    (hm : ∀ m ∈ metrics, m.type ∈ metricTypeNames.map Prod.fst) :
    (metrics.flatMap fun m => line m ++ ['\n']).splitOn '\n' = metrics.map line ++ [[]] := by
  induction metrics with
  | nil => rfl
  | cons m metrics ih =>
    rw [List.flatMap_cons, List.append_assoc, List.singleton_append,
      List.splitOn_append_cons_self_of_not_mem (newline_notMem_line (hm m List.mem_cons_self)),
      ih fun m hmem => hm m (List.mem_cons_of_mem _ hmem)]
    rfl

theorem readRows_eq {metrics : List Metric}
    (hm : ∀ m ∈ metrics, m.type ∈ metricTypeNames.map Prod.fst) :
    readRows (String.ofList (metrics.flatMap fun m => line m ++ ['\n']))
      = metrics.map fun m => readRow (line m) := by
  rw [readRows, String.toList_ofList, splitOn_rows hm, List.dropLast_concat, List.map_map]
  rfl

theorem abs_cast_lt {n : ℤ} : |(n : ℚ)| < 10 ^ 6 ↔ n.natAbs < 10 ^ 6 := by
  rw [← Int.cast_abs, Int.abs_eq_natAbs]
  exact_mod_cast Iff.rfl

/-- The row of a value of at most six digits. -/
theorem readRow_of_lt {m : Metric} (hm : Dumpable m) (h : |m.value| < 10 ^ 6) :
    readRow (line m) = some m := by
  obtain ⟨htype, n, -, hn⟩ := hm
  rw [readRow_line htype, hn, generalFormat_intCast (abs_cast_lt.mp (hn ▸ h)), read_intRepr,
    Option.map_some, ← hn]

/-- A value that is read as one of at most six digits is it. -/
theorem value_eq_of_read {n : ℤ} {v : ℚ} (hread : read (generalFormat n).toList = some v)
    (h : |v| < 10 ^ 6) : (n : ℚ) = v := by
  by_cases hlt : n.natAbs < 10 ^ 6
  · rw [generalFormat_intCast hlt, read_intRepr, Option.some_inj] at hread
    exact hread
  · have hle : 10 ^ 6 ≤ rounded n.natAbs := le_rounded (not_lt.mp hlt)
    rw [Nat.cast_natAbs, Int.cast_abs] at hle
    rw [read_generalFormat, if_neg (by rw [Int.cast_eq_zero]; omega), Option.some_inj] at hread
    subst hread
    split at h
    · rename_i hneg
      rw [abs_of_neg hneg] at hle
      rw [abs_neg, abs_of_pos (by linarith)] at h
      exact absurd h hle.not_gt
    · rename_i hnonneg
      rw [abs_of_nonneg (not_lt.mp hnonneg)] at hle
      rw [abs_of_pos (by linarith)] at h
      exact absurd h hle.not_gt

/-- **When a dump loses nothing.**  Of a dump of metrics of known types, for any
devices and times, whose values are integers: the file gives every metric back,
and no other metric has the same row, exactly if all values are below 10^6. -/
theorem losesNothing_iff {s : State} {path text : String} (h : Holds s path text)
    (hactive : s.isExporting = true) {metrics : List Metric} (hm : ∀ m ∈ metrics, Dumpable m) :
    LosesNothing path text metrics (dump generalFormat s metrics)
      ↔ ∀ m ∈ metrics, |m.value| < 10 ^ 6 := by
  constructor
  · intro hloses m hmem
    by_contra hbig
    obtain ⟨htype, n, hdouble, hn⟩ := hm m hmem
    rw [hn, abs_cast_lt] at hbig
    obtain ⟨n', hdouble', hne, hformat⟩ := exists_generalFormat_eq hdouble (not_lt.mp hbig)
    -- the metric with the other value has the same row
    refine hloses.row_ne m hmem { m with value := n' } ⟨htype, n', hdouble', rfl⟩ ?_ ?_
    · intro heq
      have hvalue : (n' : ℚ) = n := (congrArg Metric.value heq).trans hn
      exact hne (by exact_mod_cast hvalue)
    · exact row_congr (by rw [hformat, hn])
  · intro hlt
    have htype : ∀ m ∈ metrics, m.type ∈ metricTypeNames.map Prod.fst := fun m hmem =>
      (hm m hmem).1
    refine ⟨⟨String.ofList (metrics.flatMap fun m => line m ++ ['\n']), ?_, ?_⟩, ?_⟩
    · have htext : metrics.foldl (fun text m => text ++ row generalFormat m) text
          = text ++ String.ofList (metrics.flatMap fun m => line m ++ ['\n']) := by
        rw [← String.toList_inj, foldl_row, String.toList_append, String.toList_ofList]
      rw [dump, if_pos hactive, foldl_write generalFormat h, ← htext]
      exact Function.update_self _ _ _
    · rw [readRows_eq htype]
      exact List.map_congr_left fun m hmem => readRow_of_lt (hm m hmem) (hlt m hmem)
    · intro m hmem m' hm' hne heq
      obtain ⟨htype', n', -, hn'⟩ := hm'
      have hline : line m' = line m := by
        have hlist := congrArg String.toList heq
        rw [toList_row, toList_row] at hlist
        exact List.append_cancel_right hlist
      have hread := readRow_of_lt (hm m hmem) (hlt m hmem)
      rw [← hline, readRow_line htype'] at hread
      obtain ⟨v, hv, hvm⟩ := Option.map_eq_some_iff.mp hread
      have hlt' := hlt m hmem
      rw [← hvm] at hlt'
      have hvalue : (n' : ℚ) = v := value_eq_of_read (hn' ▸ hv) hlt'
      rw [← hvalue, ← hn'] at hvm
      exact hne hvm

/-- An exporter with an open file that holds the header. -/
def started : State :=
  { isExporting := true, dumpFile := some "dump.csv", files := fun _ => some header }

/-- The temperature of a GPU at 65 degrees. -/
theorem losesNothing_iff_temperature :
    let m : Metric := { type := metricTypeGpuTemperature, devId := some (.gpu { pciBus := 1 })
                        value := 65, timestamp := 1700000000000000000 }
    LosesNothing "dump.csv" header [m] (dump generalFormat started [m]) := by
  intro m
  have hm : ∀ m' ∈ [m], Dumpable m' := by
    intro m' hmem
    rw [List.mem_singleton.mp hmem]
    exact ⟨by decide, 65, ⟨65, 0, by norm_num, by norm_num, rfl⟩, by norm_num [m]⟩
  refine (losesNothing_iff ⟨rfl, rfl, rfl⟩ rfl hm).mpr fun m' hmem => ?_
  rw [List.mem_singleton.mp hmem]
  norm_num [m]

/-- 16 GB of memory, and 1 KiB more, are both printed as `1.67772e+10`. -/
theorem memory_rounded :
    ¬ ∀ (s : State) (path text : String) (metrics : List Metric), Holds s path text →
      s.isExporting = true → (∀ m ∈ metrics, Dumpable m) →
        LosesNothing path text metrics (dump generalFormat s metrics) := by
  intro hall
  let m (n : ℚ) : Metric := { type := metricTypeRamTotal, value := n }
  have hdump {n : ℕ} (hn : n < 2 ^ 53) : Dumpable (m n) :=
    ⟨(by decide : metricTypeRamTotal ∈ metricTypeNames.map Prod.fst), n,
      ⟨n, 0, hn, by norm_num, by simp⟩, rfl⟩
  have hm : ∀ m' ∈ [m (16777216000 : ℕ)], Dumpable m' := by
    intro m' hmem
    rw [List.mem_singleton.mp hmem]
    exact hdump (by norm_num)
  have hloses := hall started "dump.csv" header _ ⟨rfl, rfl, rfl⟩ rfl hm
  have hne : m (16777217024 : ℕ) ≠ m (16777216000 : ℕ) := by
    intro heq
    exact absurd (congrArg Metric.value heq) (by norm_num [m])
  have hformat : generalFormat (16777217024 : ℕ) = generalFormat (16777216000 : ℕ) := by
    decide +kernel
  have hsame := row_congr (m := m (16777216000 : ℕ)) hformat
  exact hloses.row_ne _ (List.mem_singleton_self _) _ (hdump (by norm_num)) hne hsame

end Exporter
end Volta
