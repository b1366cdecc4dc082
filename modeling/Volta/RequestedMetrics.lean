/-
The key `metrics` of `agent.conf` (`config_loader.cc`).

* `Names` — an entry, a number or a name with or without its prefix, names a
  metric type;
* `names_iff`, `addEntry_eq` — one turn of the loop adds the type that its entry
  names;
* `NamedBy` — the types that are named, each once, in the order in which they are
  first named;
* `loaded_loadMetrics` — the loader leaves these, or what was there if there are
  none.
-/
import Volta.MetricType
import Volta.Toml
import Mathlib.Data.List.Induction

namespace Volta

namespace RequestedMetrics

/-- `append_metric`. -/
def appendMetric (metrics : List MetricType) (metric : MetricType) : List MetricType :=
  if metric = metricTypeUnspecified then metrics
  else if metric ∈ metrics then metrics
  else metrics ++ [metric]

/-- `parse_metric_name`. -/
def parseMetricName (name : String) : Option MetricType :=
  match metricTypeParse name with
  | some metric => some metric
  | none => metricTypeParse ("METRIC_TYPE_" ++ name)

section Load

variable (lib : TomlLib)

/-- One turn of the loop over an array. -/
def addEntry (metrics : List MetricType) (item : TomlNode) : List MetricType :=
  match lib.valueInt32 item with
  -- a number is not tried as a name, valid or not
  | some metricNum =>
      if metricTypeIsValid metricNum then appendMetric metrics metricNum else metrics
  | none =>
      match item.valueString with
      | some metricName =>
          match parseMetricName metricName with
          | some metric => appendMetric metrics metric
          | none => metrics
      | none => metrics

/-- The list `metrics`; `none` is a return before it is looked at. -/
def readMetrics : TomlNode → Option (List MetricType)
  | .array items => some (items.foldl (addEntry lib) [])
  | val =>
      match val.valueString with
      | some name =>
          match parseMetricName name with
          | some metric => some (appendMetric [] metric)
          | none => some []
      | none => none

def loadMetrics (val : Option TomlNode) (out : List MetricType) : List MetricType :=
  match val with
  | none => out
  | some val =>
      match readMetrics lib val with
      | some metrics => if metrics.isEmpty then out else metrics
      | none => out

/-! ### What is named -/

/-- The entries of the value: those of an array, or a single string. -/
def entries : Option TomlNode → List TomlNode
  | some (.array items) => items
  | some (.string s) => [.string s]
  | _ => []

/-- A number of the enumeration, or one of its names. -/
inductive Names : TomlNode → MetricType → Prop
  | number {item : TomlNode} {type : MetricType} {name : String}
      (h : lib.valueInt32 item = some type) (hmem : (type, name) ∈ metricTypeNames) :
      Names item type
  | name {s name : String} {type : MetricType} (hmem : (type, name) ∈ metricTypeNames)
      (hs : s = name ∨ "METRIC_TYPE_" ++ s = name) : Names (.string s) type

/-- Some entry names `a` before any names `b`. -/
def NamedBefore (items : List TomlNode) (a b : MetricType) : Prop :=
  ∃ before item after, items = before ++ item :: after ∧ Names lib item a ∧
    ∀ item' ∈ before ++ [item], ¬ Names lib item' b

/-- The types named by the entries, each once, in the order of the entries. -/
structure NamedBy (items : List TomlNode) (types : List MetricType) : Prop where
  nodup : types.Nodup
  mem_iff : ∀ type, type ∈ types ↔
    type ≠ metricTypeUnspecified ∧ ∃ item ∈ items, Names lib item type
  ordered : types.Pairwise (NamedBefore lib items)

/-- Some entry names a type. -/
def NamesSome (val : Option TomlNode) : Prop :=
  ∃ type, type ≠ metricTypeUnspecified ∧ ∃ item ∈ entries val, Names lib item type

/-- The types that are named, or `out` if there are none. -/
structure Loaded (val : Option TomlNode) (out types : List MetricType) : Prop where
  named : NamesSome lib val → NamedBy lib (entries val) types
  unchanged : ¬ NamesSome lib val → types = out

end Load

/-! ### Names -/

/-- No name of the enumeration is another one with the prefix put before it. -/
theorem prefixed_notMem {type type' : MetricType} {s : String}
    (h : (type, s) ∈ metricTypeNames) : (type', "METRIC_TYPE_" ++ s) ∉ metricTypeNames := by
  have hfirst : ∀ entry ∈ metricTypeNames, entry.2.toByteArray.data.toList[0]? = some 77 := by
    decide +kernel
  have hthirteenth : ∀ entry ∈ metricTypeNames,
      entry.2.toByteArray.data.toList[12]? ≠ some 77 := by
    decide +kernel
  intro hmem
  refine hthirteenth _ hmem ?_
  rw [String.toByteArray_append, ByteArray.data_append, Array.toList_append,
    List.getElem?_append_right (by decide +kernel), ← hfirst _ h]
  rfl

theorem parseMetricName_eq_some_iff {s : String} {type : MetricType} :
    parseMetricName s = some type ↔
      ∃ name, (type, name) ∈ metricTypeNames ∧ (s = name ∨ "METRIC_TYPE_" ++ s = name) := by
  rw [parseMetricName]
  constructor
  · intro h
    split at h
    · rename_i metric hparse
      obtain rfl := Option.some_inj.mp h
      exact ⟨s, metricTypeParse_eq_some_iff.mp hparse, .inl rfl⟩
    · exact ⟨_, metricTypeParse_eq_some_iff.mp h, .inr rfl⟩
  · rintro ⟨name, hmem, rfl | rfl⟩
    · rw [metricTypeParse_eq_some_iff.mpr hmem]
    · -- the name without the prefix is tried first, and is none
      have hnone : metricTypeParse s = none := by
        cases hparse : metricTypeParse s with
        | none => rfl
        | some type' =>
          exact absurd hmem (prefixed_notMem (metricTypeParse_eq_some_iff.mp hparse))
      rw [hnone]
      exact metricTypeParse_eq_some_iff.mpr hmem

/-! ### The loop -/

section Load

variable {lib : TomlLib}

/-- The type that a turn adds, if it is specified and new. -/
def named (lib : TomlLib) (item : TomlNode) : Option MetricType :=
  match lib.valueInt32 item with
  | some metricNum => if metricTypeIsValid metricNum then some metricNum else none
  | none => item.valueString.bind parseMetricName

theorem addEntry_eq (metrics : List MetricType) (item : TomlNode) :
    addEntry lib metrics item = ((named lib item).map (appendMetric metrics)).getD metrics := by
  rw [addEntry, named]
  cases lib.valueInt32 item with
  | some metricNum =>
    dsimp only
    split
    · rfl
    · rfl
  | none =>
    cases item.valueString with
    | none => rfl
    | some metricName =>
      dsimp only [Option.bind_some]
      cases parseMetricName metricName with
      | none => rfl
      | some metric => rfl

theorem names_iff (hlib : lib.Converts) {item : TomlNode} {type : MetricType} :
    Names lib item type ↔ named lib item = some type := by
  constructor
  · intro h
    rw [named]
    cases h with
    | number h hmem =>
      rw [h]
      exact if_pos (metricTypeIsValid_iff.mpr ⟨_, hmem⟩)
    | name hmem hs =>
      rw [hlib.int32_string]
      exact parseMetricName_eq_some_iff.mpr ⟨_, hmem, hs⟩
  · intro h
    rw [named] at h
    split at h
    · rename_i metricNum hnum
      rw [Option.ite_none_right_eq_some, metricTypeIsValid_iff] at h
      obtain ⟨⟨name, hmem⟩, htype⟩ := h
      obtain rfl := Option.some_inj.mp htype
      exact .number hnum hmem
    · rw [Option.bind_eq_some_iff] at h
      obtain ⟨s, hs, hparse⟩ := h
      obtain ⟨name, hmem, hname⟩ := parseMetricName_eq_some_iff.mp hparse
      rw [TomlNode.valueString_eq_some_iff.mp hs]
      exact .name hmem hname

theorem NamedBefore.append {items : List TomlNode} {a b : MetricType}
    (h : NamedBefore lib items a b) (item : TomlNode) : NamedBefore lib (items ++ [item]) a b := by
  obtain ⟨before, item', after, rfl, hname, hno⟩ := h
  exact ⟨before, item', after ++ [item], by simp, hname, hno⟩

/-- Every type named so far comes before one that is not. -/
theorem namedBefore_of_mem {items : List TomlNode} {a b : MetricType} {item item' : TomlNode}
    (hmem : item' ∈ items) (ha : Names lib item' a) (hb : ∀ item' ∈ items, ¬ Names lib item' b) :
    NamedBefore lib (items ++ [item]) a b := by
  obtain ⟨before, after, rfl⟩ := List.append_of_mem hmem
  refine ⟨before, item', after ++ [item], by simp, ha, fun x hx => hb x ?_⟩
  rcases List.mem_append.mp hx with hx | hx
  · exact List.mem_append_left _ hx
  · rw [List.mem_singleton.mp hx]
    exact List.mem_append_right _ List.mem_cons_self

theorem namedBy_nil : NamedBy lib [] [] where
  nodup := List.nodup_nil
  mem_iff _ := by simp
  ordered := .nil

/-- An entry that names nothing, or what is there already. -/
theorem NamedBy.append_self {items : List TomlNode} {types : List MetricType}
    (h : NamedBy lib items types) {item : TomlNode}
    (hitem : ∀ type, type ≠ metricTypeUnspecified → Names lib item type → type ∈ types) :
    NamedBy lib (items ++ [item]) types where
  nodup := h.nodup
  mem_iff type := by
    constructor
    · intro hmem
      obtain ⟨hspec, item', hmem', hname⟩ := (h.mem_iff type).mp hmem
      exact ⟨hspec, item', List.mem_append_left _ hmem', hname⟩
    · rintro ⟨hspec, item', hmem', hname⟩
      rcases List.mem_append.mp hmem' with hmem' | hmem'
      · exact (h.mem_iff type).mpr ⟨hspec, item', hmem', hname⟩
      · rw [List.mem_singleton.mp hmem'] at hname
        exact hitem type hspec hname
  ordered := h.ordered.imp fun hbefore => hbefore.append item

/-- An entry that names a new type. -/
theorem NamedBy.append_new {items : List TomlNode} {types : List MetricType}
    (h : NamedBy lib items types) {item : TomlNode} {type : MetricType}
    (hspec : type ≠ metricTypeUnspecified) (hnew : type ∉ types)
    (hitem : ∀ type', Names lib item type' ↔ type = type') :
    NamedBy lib (items ++ [item]) (types ++ [type]) where
  nodup := by
    refine List.nodup_append.mpr ⟨h.nodup, List.nodup_singleton _, fun a ha b hb => ?_⟩
    rw [List.mem_singleton.mp hb]
    exact ne_of_mem_of_not_mem ha hnew
  mem_iff type' := by
    rw [List.mem_append, List.mem_singleton, h.mem_iff]
    constructor
    · rintro (⟨hspec', item', hmem, hname⟩ | rfl)
      · exact ⟨hspec', item', List.mem_append_left _ hmem, hname⟩
      · exact ⟨hspec, item, List.mem_append_right _ (List.mem_singleton_self _),
          (hitem _).mpr rfl⟩
    · rintro ⟨hspec', item', hmem, hname⟩
      rcases List.mem_append.mp hmem with hmem | hmem
      · exact .inl ⟨hspec', item', hmem, hname⟩
      · rw [List.mem_singleton.mp hmem, hitem] at hname
        exact .inr hname.symm
  ordered := by
    refine List.pairwise_append.mpr ⟨h.ordered.imp fun hbefore => hbefore.append item,
      List.pairwise_singleton _ _, fun a ha b hb => ?_⟩
    obtain rfl := List.mem_singleton.mp hb
    obtain ⟨-, item', hmem, hname⟩ := (h.mem_iff a).mp ha
    exact namedBefore_of_mem hmem hname fun x hx hx' =>
      hnew ((h.mem_iff _).mpr ⟨hspec, x, hx, hx'⟩)

theorem NamedBy.addEntry (hlib : lib.Converts) {items : List TomlNode}
    {types : List MetricType} (h : NamedBy lib items types) (item : TomlNode) :
    NamedBy lib (items ++ [item]) (addEntry lib types item) := by
  rw [addEntry_eq]
  cases hitem : named lib item with
  | none =>
    refine h.append_self fun type _ hname => ?_
    rw [names_iff hlib, hitem] at hname
    exact absurd hname (by simp)
  | some type =>
    have hnames : ∀ type', Names lib item type' ↔ type = type' := by
      intro type'
      rw [names_iff hlib, hitem, Option.some_inj]
    rw [Option.map_some, Option.getD_some, appendMetric]
    split
    · rename_i hunspec
      refine h.append_self fun type' hspec hname => ?_
      exact absurd (((hnames type').mp hname).symm.trans hunspec) hspec
    · rename_i hspec
      split
      · -- named before: the order of the first entries does not change
        rename_i hmem
        exact h.append_self fun type' _ hname => (hnames type').mp hname ▸ hmem
      · rename_i hnew
        exact h.append_new hspec hnew hnames

/-- The loop over an array of any length. -/
theorem namedBy_foldl (hlib : lib.Converts) (items : List TomlNode) :
    NamedBy lib items (items.foldl (addEntry lib) []) := by
  induction items using List.reverseRecOn with
  | nil => exact namedBy_nil
  | append_singleton items item ih =>
    rw [List.foldl_append]
    exact ih.addEntry hlib item

/-- A single string is read as an array with this string. -/
theorem loadMetrics_eq (hlib : lib.Converts) (val : Option TomlNode) (out : List MetricType) :
    loadMetrics lib val out
      = if ((entries val).foldl (addEntry lib) []).isEmpty then out
        else (entries val).foldl (addEntry lib) [] := by
  cases val with
  | none => rfl
  | some val =>
    cases val with
    | array items => rfl
    | string s =>
      have hread : readMetrics lib (.string s) = some (addEntry lib [] (.string s)) := by
        rw [addEntry_eq, named, hlib.int32_string]
        dsimp only [readMetrics, TomlNode.valueString, Option.bind_some]
        cases parseMetricName s with
        | none => rfl
        | some metric => rfl
      rw [loadMetrics, hread]
      rfl
    | integer | floatingPoint | boolean | dateTime | table => rfl

/-- The loader leaves the types that are named, or what was there. -/
theorem loaded_loadMetrics (hlib : lib.Converts) (val : Option TomlNode)
    (out : List MetricType) : Loaded lib val out (loadMetrics lib val out) := by
  have hfold := namedBy_foldl hlib (entries val)
  rw [loadMetrics_eq hlib]
  constructor
  · rintro ⟨type, hspec, hname⟩
    have htype := (hfold.mem_iff type).mpr ⟨hspec, hname⟩
    rw [if_neg (by simpa using List.ne_nil_of_mem htype)]
    exact hfold
  · intro hnone
    refine if_pos (List.isEmpty_iff.mpr (List.eq_nil_iff_forall_not_mem.mpr ?_))
    intro type hmem
    exact hnone ⟨type, (hfold.mem_iff type).mp hmem⟩

end Load

end RequestedMetrics
end Volta
