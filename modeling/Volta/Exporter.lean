/-
The export of metrics to CSV files (`exporter.cc`).

What a file holds counts what the stream has not flushed yet.  Printing a
`double` and the time is left to parameters, as is what the file system answers.

* `sound_iff` — the exporter is active exactly while its file is open, and a
  failed start leaves it ready for the next, exactly in the runs in which every
  file that it tries to open is opened.
-/
import Volta.Run
import Volta.MetricType

namespace Volta

namespace Exporter

/-- A dump that was started: its file, and the metrics passed to `Dump` since. -/
structure Opening where
  path : String
  metrics : List Metric := []

structure State where
  dumpDir : String := ""
  isExporting : Bool := false
  /-- The file that `dump_file_` has open. -/
  dumpFile : Option String := none
  /-- One of the error bits of `dump_file_` is set. -/
  bad : Bool := false
  files : String → Option String
  /-- History: the dump that has not been ended. -/
  current : Option Opening := none
  /-- History: the dumps that have been ended, the last one first. -/
  ended : List Opening := []

/-- All dumps, the last one first. -/
def State.openings (s : State) : List Opening := s.current.toList ++ s.ended

/-- The constructor. -/
def init (dumpDir : String) (fileExists : String → Bool) (files : String → Option String) :
    State :=
  { dumpDir := if fileExists dumpDir then dumpDir else "", files := files }

/-- `dump_file_.open`, which truncates the file and clears the error bits. -/
def openFile (s : State) (path : String) (opens : Bool) : State :=
  if opens ∧ s.dumpFile = none then
    { s with
      dumpFile := some path
      bad := false
      files := Function.update s.files path (some "")
      current := some { path := path } }
  else { s with bad := true }

/-- `dump_file_ << text`. -/
def write (s : State) (text : String) : State :=
  if s.bad then s
  else
    match s.dumpFile with
    | some path =>
        { s with
          files :=
            Function.update s.files path ((s.files path).map fun content => content ++ text) }
    | none => { s with bad := true }

def header : String := "metric_type;device_id;timestamp;value\n"

def describeDevice (m : Metric) : String :=
  match m.devId with
  | some (.gpu id) =>
      "gpu=" ++ toString id.pciDomain ++ ":" ++ toString id.pciBus.toInt32 ++ ":" ++
        toString id.pciDevice.toInt32 ++ "." ++ toString id.pciFunction.toInt32
  | some (.cpu id) => "cpu=" ++ toString id.socketIndex.toInt32 ++ "/" ++ toString id.coreIndex
  | some (.network id) => "net_ifindex=" ++ toString id.ifindex
  | some (.disk id) => "disk=" ++ toString id.major ++ ":" ++ toString id.minor
  | none => "system"

section Printing

-- `operator<<` for `double`
variable (printDouble : Double → String)

def row (m : Metric) : String :=
  metricTypeName m.type ++ ";" ++ describeDevice m ++ ";" ++ toString m.timestamp ++ ";" ++
    printDouble m.value ++ "\n"

def dump (s : State) (metrics : List Metric) : State :=
  let written :=
    if s.isExporting then metrics.foldl (fun s m => write s (row printDouble m)) s else s
  { written with
    current := s.current.map fun o => { o with metrics := o.metrics ++ metrics } }

/-- `now` is the time in the name of the file; `opens` tells whether the file
can be opened. -/
def startDump (s : State) (dumpDirOverload : Option String) (fileExists : String → Bool)
    (now : String) (opens : Bool) : State :=
  if s.isExporting then s
  else
    let dir := dumpDirOverload.getD s.dumpDir
    if fileExists dir then
      -- the flag is set whatever became of the file
      { write (openFile s (dir ++ "/dump_" ++ now ++ ".csv") opens) header with
        isExporting := true }
    else s

def endDump (s : State) : State :=
  { s with
    dumpFile := none
    isExporting := false
    current := none
    ended := s.openings }

inductive Action where
  | startDump (dumpDirOverload : Option String) (fileExists : String → Bool) (now : String)
      (opens : Bool)
  | dump (metrics : List Metric)
  | endDump

def step (s : State) : Action → Option State
  | .startDump dumpDirOverload fileExists now opens =>
      some (startDump s dumpDirOverload fileExists now opens)
  | .dump metrics => some (dump printDouble s metrics)
  | .endDump => some (endDump s)

/-- The header, and one row for each metric. -/
def contents (metrics : List Metric) : String :=
  metrics.foldl (fun text m => text ++ row printDouble m) header

/-- The last dump to a file. -/
def lastDump (s : State) (path : String) : Option Opening :=
  s.openings.find? fun o => o.path = path

/-- The flag follows the stream, and every file that was opened holds what was
dumped to it. -/
structure Sound (s : State) : Prop where
  isExporting_eq : s.isExporting = s.dumpFile.isSome
  contents_eq : ∀ path o, lastDump s path = some o →
    s.files path = some (contents printDouble o.metrics)

/-- A start that fails leaves the exporter inactive, so that the next start with
a directory that is there and a file that opens succeeds. -/
def LeavesReady (s : State) (a : Action) : Prop :=
  ∀ dumpDirOverload fileExists now opens t,
    a = .startDump dumpDirOverload fileExists now opens → step printDouble s a = some t →
      s.isExporting = false →
        (fileExists (dumpDirOverload.getD s.dumpDir) = false ∨ opens = false) →
          t.isExporting = false ∧ ∀ dumpDirOverload' fileExists' now',
            fileExists' (dumpDirOverload'.getD t.dumpDir) = true →
              (startDump t dumpDirOverload' fileExists' now' true).dumpFile.isSome = true

end Printing

/-- The condition on a step: the file that a start tries to open is opened. -/
def Opens (s : State) (a : Action) : Prop :=
  ∀ dumpDirOverload fileExists now opens,
    a = .startDump dumpDirOverload fileExists now opens → s.isExporting = false →
      fileExists (dumpDirOverload.getD s.dumpDir) = true → opens = true

/-! ### Writing to an open file -/

/-- A file that is open and holds `text`. -/
structure Holds (s : State) (path text : String) : Prop where
  dumpFile_eq : s.dumpFile = some path
  not_bad : s.bad = false
  files_eq : s.files path = some text

theorem write_of_holds {s : State} {path text : String} (h : Holds s path text) (more : String) :
    write s more = { s with files := Function.update s.files path (some (text ++ more)) } := by
  rw [write, h.not_bad, h.dumpFile_eq]
  dsimp only
  rw [h.files_eq]
  rfl

theorem Holds.write {s : State} {path text : String} (h : Holds s path text) (more : String) :
    Holds (write s more) path (text ++ more) := by
  rw [write_of_holds h]
  exact ⟨h.dumpFile_eq, h.not_bad, Function.update_self _ _ _⟩

/-- Metrics are written row by row, and nothing else changes. -/
theorem foldl_write (printDouble : Double → String) {s : State} {path text : String}
    (h : Holds s path text) (metrics : List Metric) :
    metrics.foldl (fun s m => write s (row printDouble m)) s
      = { s with
          files := Function.update s.files path
            (some (metrics.foldl (fun text m => text ++ row printDouble m) text)) } := by
  induction metrics generalizing s text with
  | nil =>
    show s = { s with files := Function.update s.files path (some text) }
    rw [← h.files_eq, Function.update_eq_self]
  | cons m metrics ih =>
    rw [List.foldl_cons, List.foldl_cons, ih (h.write (row printDouble m)), write_of_holds h]
    dsimp only
    rw [Function.update_idem]

theorem openFile_of_opens {s : State} (hfile : s.dumpFile = none) (path : String) :
    openFile s path true
      = { s with
          dumpFile := some path
          bad := false
          files := Function.update s.files path (some "")
          current := some { path := path } } := by
  rw [openFile, if_pos ⟨rfl, hfile⟩]

section StartDump

variable {s : State} {dumpDirOverload : Option String} {fileExists : String → Bool} {now : String}

/-- A directory that is missing, and an exporter that is active. -/
theorem startDump_of_missing (hdir : fileExists (dumpDirOverload.getD s.dumpDir) = false)
    (opens : Bool) : startDump s dumpDirOverload fileExists now opens = s := by
  rw [startDump]
  split
  · rfl
  · dsimp only
    rw [hdir, if_neg (by simp)]

theorem startDump_of_active (hactive : s.isExporting = true) (opens : Bool) :
    startDump s dumpDirOverload fileExists now opens = s := by
  rw [startDump, if_pos hactive]

/-- A file that does not open. -/
theorem startDump_of_fails (hactive : s.isExporting = false)
    (hdir : fileExists (dumpDirOverload.getD s.dumpDir) = true) :
    startDump s dumpDirOverload fileExists now false
      = { s with isExporting := true, bad := true } := by
  rw [startDump, hactive, if_neg (by simp)]
  dsimp only
  rw [if_pos hdir, openFile, if_neg (by simp), write, if_pos rfl]

end StartDump

/-- A start of an inactive exporter with a file that opens. -/
theorem startDump_of_opens {s : State} (hactive : s.isExporting = false)
    (hfile : s.dumpFile = none) {dumpDirOverload : Option String} {fileExists : String → Bool}
    (hdir : fileExists (dumpDirOverload.getD s.dumpDir) = true) (now : String) :
    ∃ path, startDump s dumpDirOverload fileExists now true
      = { s with
          isExporting := true
          dumpFile := some path
          bad := false
          files := Function.update s.files path (some header)
          current := some { path := path } } := by
  set path := dumpDirOverload.getD s.dumpDir ++ "/dump_" ++ now ++ ".csv"
  refine ⟨path, ?_⟩
  have hholds : Holds (openFile s path true) path "" := by
    rw [openFile_of_opens hfile]
    exact ⟨rfl, rfl, Function.update_self _ _ _⟩
  rw [startDump, hactive, if_neg (by simp)]
  dsimp only
  rw [if_pos hdir, write_of_holds hholds, openFile_of_opens hfile]
  dsimp only
  rw [Function.update_idem, String.empty_append]

/-- The last dump to a file is the current one, or one of those that ended. -/
theorem lastDump_of_current {s : State} {o : Opening} (h : s.current = some o) (path : String) :
    lastDump s path
      = if o.path = path then some o else s.ended.find? fun o => o.path = path := by
  rw [lastDump, State.openings, h, Option.toList_some, List.singleton_append, List.find?_cons]
  by_cases hpath : o.path = path
  · rw [if_pos hpath, decide_eq_true hpath]
  · rw [if_neg hpath, decide_eq_false hpath]

theorem lastDump_of_none {s : State} (h : s.current = none) (path : String) :
    lastDump s path = s.ended.find? fun o => o.path = path := by
  rw [lastDump, State.openings, h]
  rfl

/-! ### What is not written to the history -/

theorem write_history (s : State) (text : String) :
    (write s text).current = s.current ∧ (write s text).ended = s.ended := by
  rw [write]
  split
  · exact ⟨rfl, rfl⟩
  · split <;> exact ⟨rfl, rfl⟩

theorem foldl_write_history (printDouble : Double → String) (s : State) (metrics : List Metric) :
    (metrics.foldl (fun s m => write s (row printDouble m)) s).current = s.current ∧
      (metrics.foldl (fun s m => write s (row printDouble m)) s).ended = s.ended := by
  induction metrics generalizing s with
  | nil => exact ⟨rfl, rfl⟩
  | cons m metrics ih =>
    obtain ⟨hcurrent, hended⟩ := write_history s (row printDouble m)
    rw [List.foldl_cons, (ih _).1, (ih _).2]
    exact ⟨hcurrent, hended⟩

theorem dump_history (printDouble : Double → String) (s : State) (metrics : List Metric) :
    (dump printDouble s metrics).ended = s.ended ∧
      (dump printDouble s metrics).current
        = s.current.map fun o => { o with metrics := o.metrics ++ metrics } := by
  refine ⟨?_, rfl⟩
  show (if s.isExporting then metrics.foldl (fun s m => write s (row printDouble m)) s
    else s).ended = s.ended
  split
  · exact (foldl_write_history printDouble s metrics).2
  · rfl

/-- A start ends no dump, and the dump that it starts has no metrics yet. -/
theorem startDump_history (s : State) (dumpDirOverload : Option String)
    (fileExists : String → Bool) (now : String) (opens : Bool) :
    (startDump s dumpDirOverload fileExists now opens).ended = s.ended ∧
      ((startDump s dumpDirOverload fileExists now opens).current = s.current ∨
        ∃ path, (startDump s dumpDirOverload fileExists now opens).current
          = some { path := path }) := by
  rw [startDump]
  split
  · exact ⟨rfl, .inl rfl⟩
  · dsimp only
    split
    · dsimp only
      rw [(write_history _ _).1, (write_history _ _).2, openFile]
      split
      · exact ⟨rfl, .inr ⟨_, rfl⟩⟩
      · exact ⟨rfl, .inl rfl⟩
    · exact ⟨rfl, .inl rfl⟩

/-! ### The invariant -/

section Invariant

variable (printDouble : Double → String)

/-- The dump that has not been ended is that to the open file. -/
structure Inv (s : State) : Prop where
  sound : Sound printDouble s
  current_path : s.current.map Opening.path = s.dumpFile
  not_bad : s.dumpFile.isSome = true → s.bad = false

theorem inv_init (dumpDir : String) (fileExists : String → Bool)
    (files : String → Option String) : Inv printDouble (init dumpDir fileExists files) where
  sound := ⟨rfl, fun _ _ h => nomatch h⟩
  current_path := rfl
  not_bad h := nomatch h

namespace Inv

variable {printDouble} {s : State}

theorem dumpFile_eq_none (h : Inv printDouble s) (hactive : s.isExporting = false) :
    s.dumpFile = none := by
  have hsome := h.sound.isExporting_eq
  rw [hactive] at hsome
  exact Option.not_isSome_iff_eq_none.mp (by rw [← hsome]; simp)

theorem startDump (h : Inv printDouble s) {dumpDirOverload : Option String}
    {fileExists : String → Bool} {now : String} {opens : Bool}
    (hok : Opens s (.startDump dumpDirOverload fileExists now opens)) :
    Inv printDouble (Exporter.startDump s dumpDirOverload fileExists now opens) := by
  cases hactive : s.isExporting with
  | true =>
    rw [startDump_of_active hactive]
    exact h
  | false =>
    cases hdir : fileExists (dumpDirOverload.getD s.dumpDir) with
    | false =>
      rw [startDump_of_missing hdir]
      exact h
    | true =>
      have hnone := h.dumpFile_eq_none hactive
      obtain rfl := hok dumpDirOverload fileExists now opens rfl hactive hdir
      obtain ⟨path, heq⟩ := startDump_of_opens hactive hnone hdir now
      have hcurrent : s.current = none := by
        rw [← Option.map_eq_none_iff, h.current_path, hnone]
      rw [heq]
      refine ⟨⟨rfl, fun path' o hlast => ?_⟩, rfl, fun _ => rfl⟩
      rw [lastDump_of_current rfl] at hlast
      dsimp only at hlast
      split at hlast
      · rename_i hpath
        cases hlast
        rw [← hpath]
        exact Function.update_self _ _ _
      · -- what other files hold is as it was, and so are the dumps to them
        rename_i hpath
        rw [← lastDump_of_none hcurrent] at hlast
        exact (Function.update_of_ne (Ne.symm hpath) _ _).trans
          (h.sound.contents_eq path' o hlast)

theorem dump (h : Inv printDouble s) (metrics : List Metric) :
    Inv printDouble (Exporter.dump printDouble s metrics) := by
  cases hcurrent : s.current with
  | none =>
    have hnone : s.dumpFile = none := by
      rw [← h.current_path, hcurrent]
      rfl
    have hactive : s.isExporting = false := by
      rw [h.sound.isExporting_eq, hnone]
      rfl
    rw [Exporter.dump, if_neg (by simp [hactive])]
    refine ⟨⟨h.sound.isExporting_eq, fun path o hlast => ?_⟩, ?_, h.not_bad⟩
    · rw [lastDump_of_none (by rw [hcurrent]; rfl), ← lastDump_of_none hcurrent] at hlast
      exact h.sound.contents_eq path o hlast
    · rw [← h.current_path, hcurrent]
      rfl
  | some cur =>
    have hopen : s.dumpFile = some cur.path := by
      rw [← h.current_path, hcurrent]
      rfl
    have hactive : s.isExporting = true := by
      rw [h.sound.isExporting_eq, hopen]
      rfl
    have hlast : lastDump s cur.path = some cur := by
      rw [lastDump_of_current hcurrent, if_pos rfl]
    have hholds : Holds s cur.path (contents printDouble cur.metrics) :=
      ⟨hopen, h.not_bad (by rw [hopen]; rfl), h.sound.contents_eq cur.path cur hlast⟩
    have hcontents : (contents printDouble cur.metrics |> metrics.foldl fun text m =>
        text ++ row printDouble m) = contents printDouble (cur.metrics ++ metrics) :=
      (List.foldl_append ..).symm
    rw [Exporter.dump, if_pos hactive, foldl_write printDouble hholds, hcontents, hcurrent]
    refine ⟨⟨h.sound.isExporting_eq, fun path o hdump => ?_⟩, hopen.symm, h.not_bad⟩
    rw [lastDump_of_current rfl] at hdump
    dsimp only at hdump
    split at hdump
    · rename_i hpath
      cases hdump
      rw [← hpath]
      exact Function.update_self _ _ _
    · rename_i hpath
      have hold : lastDump s path = some o := by
        rwa [lastDump_of_current hcurrent, if_neg hpath]
      exact (Function.update_of_ne (Ne.symm hpath) _ _).trans (h.sound.contents_eq path o hold)

theorem endDump (h : Inv printDouble s) : Inv printDouble (Exporter.endDump s) where
  sound := ⟨rfl, fun path o hlast => h.sound.contents_eq path o hlast⟩
  current_path := rfl
  not_bad hopen := absurd hopen (by simp [Exporter.endDump])

theorem step (h : Inv printDouble s) {a : Action} {t : State} (hok : Opens s a)
    (ht : Exporter.step printDouble s a = some t) : Inv printDouble t := by
  cases a with
  | startDump dumpDirOverload fileExists now opens =>
    cases ht
    exact h.startDump hok
  | dump metrics =>
    cases ht
    exact h.dump metrics
  | endDump =>
    cases ht
    exact h.endDump

/-- A file that cannot be opened leaves the flag without a stream. -/
theorem not_sound (h : Inv printDouble s) {a : Action} {t : State} (hok : ¬ Opens s a)
    (ht : Exporter.step printDouble s a = some t) : ¬ Sound printDouble t := by
  rw [Opens] at hok
  push Not at hok
  obtain ⟨dumpDirOverload, fileExists, now, opens, rfl, hactive, hdir, hopens⟩ := hok
  cases ht
  obtain rfl : opens = false := by simpa using hopens
  intro hsound
  have heq := hsound.isExporting_eq
  rw [startDump_of_fails hactive hdir] at heq
  exact absurd (heq.trans (congrArg Option.isSome (h.dumpFile_eq_none hactive))) (by simp)

/-- Where every file opens, only a missing directory makes a start fail. -/
theorem leavesReady (h : Inv printDouble s) {a : Action} (hok : Opens s a) :
    LeavesReady printDouble s a := by
  intro dumpDirOverload fileExists now opens t ha ht hactive hfails
  subst ha
  cases ht
  have hdir : fileExists (dumpDirOverload.getD s.dumpDir) = false := by
    rcases hfails with hdir | hopens
    · exact hdir
    · by_contra hdir
      have hopened := hok _ _ _ _ rfl hactive (by simpa using hdir)
      rw [hopens] at hopened
      exact absurd hopened (by simp)
  rw [startDump_of_missing hdir]
  refine ⟨hactive, fun dumpDirOverload' fileExists' now' hdir' => ?_⟩
  obtain ⟨path, heq⟩ := startDump_of_opens hactive (h.dumpFile_eq_none hactive) hdir' now'
  rw [heq]
  rfl

end Inv

/-- **The exporter is active exactly while a file is open, if files open.**  In
every run of starts, dumps and ends, whatever directories there are: in every
state the exporter is active if and only if its file is open, and each file that
was opened holds the header and one row for each metric passed to `Dump` in the
last dump to it, in order; and every start that fails leaves the exporter ready
for the next; exactly if every start of an inactive exporter that finds its
directory can open its file. -/
theorem sound_iff (dumpDir : String) (fileExists : String → Bool)
    (files : String → Option String) (as : List Action) :
    (Run.Along (step printDouble) (Sound printDouble) (init dumpDir fileExists files) as ∧
      Run.Meets (step printDouble) (LeavesReady printDouble) (init dumpDir fileExists files) as)
        ↔ Run.Meets (step printDouble) Opens (init dumpDir fileExists files) as := by
  have hinit := inv_init printDouble dumpDir fileExists files
  have htotal : ∀ s a, ∃ t, step printDouble s a = some t := by
    intro s a
    cases a <;> exact ⟨_, rfl⟩
  obtain ⟨s, hs⟩ := Run.exists_exec htotal (init dumpDir fileExists files) as
  have hiff := Run.along_iff_meets (I := Inv printDouble) (fun h => h.sound)
    (fun h hok ht => h.step hok ht) (fun h hok ht => h.not_sound hok ht) hinit hs
  constructor
  · intro h
    exact hiff.mp h.1
  · intro h
    exact ⟨hiff.mpr h, Run.Meets.imp (fun h hok ht => h.step hok ht)
      (fun h hok => h.leavesReady hok) hinit h⟩

end Invariant

/-- A file that cannot be opened makes the exporter active without one. -/
theorem startDump_without_file :
    ¬ ∀ (printDouble : Double → String) (dumpDir : String) (fileExists : String → Bool)
      (files : String → Option String) (as : List Action),
        Run.Along (step printDouble) (Sound printDouble) (init dumpDir fileExists files) as ∧
          Run.Meets (step printDouble) (LeavesReady printDouble)
            (init dumpDir fileExists files) as := by
  intro hall
  have hsound := ((hall (fun _ => "") "/tmp" (fun _ => true) (fun _ => none)
    [.startDump none (fun _ => true) "now" false]).1.last rfl).isExporting_eq
  exact absurd hsound (by decide)

end Exporter
end Volta
