/-
The dashboard page (`app/pages/dashboard-page.tsx`).

The page takes the series of the store in the order in which their keys were added,
groups them by category, sorts each group by label and device, and shows the groups in
the order of `CATEGORIES`.

* `values_toRecord` — the store as a list is the store;
* `byCategory_eq` — the loop of the page makes the groups;
* `page_shows` — every live series is shown once, in its place.
-/
import Volta.Grouping
import Volta.MetricsStore
import Volta.MetricStreamHook
import Mathlib.Data.List.Sort

namespace Volta

namespace Dashboard

/-! ### The store in its order -/

/-- The first series of a list with a key. -/
def toRecord (l : List LiveSeries) : SeriesRecord := fun key => l.find? fun s => s.key = key

/-- `{ ...series, [key]: next }`; no key looks like an index, so a new one comes last. -/
def put (l : List LiveSeries) (next : LiveSeries) : List LiveSeries :=
  if l.any fun s => s.key = next.key then l.map fun s => if s.key = next.key then next else s
  else l ++ [next]

def ingestValues (l : List LiveSeries) (batch : MetricBatch) : List LiveSeries :=
  match batchKey batch with
  | none => l
  | some key =>
      if min batch.timestampsNs.length batch.values.length = 0 then l
      else
        match (toRecord l).ingest batch key with
        | none => l
        | some next => put l next

def callValues (l : List LiveSeries) : StoreCall → List LiveSeries
  | .ingest batch => ingestValues l batch
  | .reset => []

/-- `Object.values(series)` after calls of the store. -/
def valuesAfter (calls : List StoreCall) : List LiveSeries := calls.foldl callValues []

/-! ### The page -/

def categories : List MetricCategory := [.cpu, .gpu, .memory, .disk, .network]

/-- How two texts compare; the sign is all that counts. -/
structure Collation where
  localeCompare : String → String → ℤ
  swap : ∀ a b, 0 ≤ localeCompare a b ↔ localeCompare b a ≤ 0
  trans : ∀ a b c, localeCompare a b ≤ 0 → localeCompare b c ≤ 0 → localeCompare a c ≤ 0

/-- The comparison that the page sorts by. -/
def Collation.compare (C : Collation) (a b : LiveSeries) : ℤ :=
  let byLabel := C.localeCompare a.label b.label
  if byLabel ≠ 0 then byLabel
  else C.localeCompare (a.deviceLabel.getD "") (b.deviceLabel.getD "")

/-- The loop that fills the map; no series yet is no entry. -/
def byCategory (series : List LiveSeries) : MetricCategory → List LiveSeries :=
  series.foldl (fun m s => Function.update m s.category (m s.category ++ [s])) fun _ => []

def grouped (C : Collation) (series : List LiveSeries) (category : MetricCategory) :
    List LiveSeries :=
  (byCategory series category).insertionSort fun a b => C.compare a b ≤ 0

/-- A category without series has no section. -/
def sectionOf (C : Collation) (series : List LiveSeries) (category : MetricCategory) :
    Option (MetricCategory × List LiveSeries) :=
  let list := grouped C series category
  if list.isEmpty then none else some (category, list)

def sections (C : Collation) (series : List LiveSeries) (l : List MetricCategory) :
    List (MetricCategory × List LiveSeries) :=
  l.filterMap (sectionOf C series)

inductive Page where
  | noAgent
  | skeleton
  | waiting
  | sections (sections : List (MetricCategory × List LiveSeries))

def page (C : Collation) (selectedAgentId : Option String) (status : StreamStatus)
    (series : List LiveSeries) : Page :=
  if selectedAgentId.getD "" = "" then .noAgent
  else if categories.all fun category => (grouped C series category).isEmpty then
    if status = .opened then .skeleton else .waiting
  else .sections (sections C series categories)

/-! ### The list and the record -/

/-- A list in which each key is once. -/
def KeysNodup (l : List LiveSeries) : Prop := (l.map LiveSeries.key).Nodup

theorem keys_put (l : List LiveSeries) (next : LiveSeries) :
    (put l next).map LiveSeries.key
      = if next.key ∈ l.map LiveSeries.key then l.map LiveSeries.key
        else l.map LiveSeries.key ++ [next.key] := by
  have hany : (l.any fun s => s.key = next.key) = true ↔ next.key ∈ l.map LiveSeries.key := by
    rw [List.any_eq_true, List.mem_map]
    simp only [decide_eq_true_eq]
  rw [put]
  by_cases hmem : next.key ∈ l.map LiveSeries.key
  · rw [if_pos (hany.mpr hmem), if_pos hmem, List.map_map]
    refine List.map_congr_left fun s _ => ?_
    show (if s.key = next.key then next else s).key = s.key
    split
    · rename_i heq
      exact heq.symm
    · rfl
  · rw [if_neg (fun h => hmem (hany.mp h)), if_neg hmem, List.map_append]
    rfl

theorem KeysNodup.put {l : List LiveSeries} (h : KeysNodup l) (next : LiveSeries) :
    KeysNodup (put l next) := by
  rw [KeysNodup, keys_put]
  split
  · exact h
  · rename_i hmem
    exact h.append (List.nodup_singleton _) (List.disjoint_singleton.mpr hmem)

theorem toRecord_eq_some {l : List LiveSeries} {key : String} {s : LiveSeries}
    (h : toRecord l key = some s) : s ∈ l ∧ s.key = key :=
  ⟨List.mem_of_find?_eq_some h,
    of_decide_eq_true (List.find?_some (p := fun s : LiveSeries => decide (s.key = key)) h)⟩

theorem toRecord_eq_none {l : List LiveSeries} {key : String} :
    toRecord l key = none ↔ key ∉ l.map LiveSeries.key := by
  rw [toRecord, List.find?_eq_none, List.mem_map]
  constructor
  · rintro h ⟨s, hs, rfl⟩
    exact h s hs (decide_eq_true rfl)
  · intro h s hs hkey
    exact h ⟨s, hs, of_decide_eq_true hkey⟩

theorem toRecord_put (l : List LiveSeries) (next : LiveSeries) :
    toRecord (put l next) = Function.update (toRecord l) next.key (some next) := by
  have hany : (l.any fun s => s.key = next.key) = true ↔ toRecord l next.key ≠ none := by
    rw [List.any_eq_true, Ne, toRecord_eq_none, not_not, List.mem_map]
    simp only [decide_eq_true_eq]
  funext key
  rw [put]
  split
  · rename_i h
    have hfind : toRecord (l.map fun s => if s.key = next.key then next else s) key
        = (toRecord l key).map fun s => if s.key = next.key then next else s := by
      rw [toRecord, List.find?_map]
      have hsame : ((fun s : LiveSeries => decide (s.key = key)) ∘
          fun s => if s.key = next.key then next else s) = fun s => decide (s.key = key) := by
        funext s
        show decide ((if s.key = next.key then next else s).key = key) = _
        split
        · rename_i heq
          rw [heq]
        · rfl
      rw [hsame]
      rfl
    rw [hfind]
    by_cases hkey : key = next.key
    · subst hkey
      obtain ⟨s, hs⟩ := Option.ne_none_iff_exists'.mp (hany.mp h)
      rw [hs, Function.update_self, Option.map_some, if_pos (toRecord_eq_some hs).2]
    · rw [Function.update_of_ne hkey]
      cases hs : toRecord l key with
      | none => rfl
      | some s =>
        rw [Option.map_some, if_neg (fun heq => hkey ((toRecord_eq_some hs).2.symm.trans heq))]
  · rename_i h
    rw [toRecord, List.find?_append]
    by_cases hkey : key = next.key
    · subst hkey
      have hnone : l.find? (fun s => s.key = next.key) = none := by
        by_contra hne
        exact h (hany.mpr hne)
      rw [hnone, Function.update_self, Option.none_or]
      exact List.find?_cons_of_pos (decide_eq_true rfl)
    · rw [Function.update_of_ne hkey, List.find?_cons_of_neg
        (fun heq => hkey (of_decide_eq_true heq).symm), List.find?_nil, Option.or_none]
      rfl

theorem toRecord_ingestValues (l : List LiveSeries) (batch : MetricBatch) :
    toRecord (ingestValues l batch) = (toRecord l).ingest batch := by
  rcases hheader : batch.header with _ | header
  · rw [ingest_of_no_header hheader, ingestValues, batchKey, hheader]
    rfl
  have hkey : batchKey batch = some (seriesKey header.metricType.toInt header.deviceId) := by
    rw [batchKey, hheader]
    rfl
  rw [ingestValues, hkey]
  dsimp only
  by_cases hpairs : pairs batch = []
  · rw [if_pos ((pairs_eq_nil_iff batch).mp hpairs), ingest_of_no_pairs hpairs]
  rw [if_neg (fun h => hpairs ((pairs_eq_nil_iff batch).mpr h)),
    ingest_of_pairs hheader rfl hpairs, Function.update_self]
  exact toRecord_put l _

theorem KeysNodup.ingestValues {l : List LiveSeries} (h : KeysNodup l) (batch : MetricBatch) :
    KeysNodup (ingestValues l batch) := by
  rw [Dashboard.ingestValues]
  split
  · exact h
  · split
    · exact h
    · split
      · exact h
      · exact h.put _

/-- A series is stored under its key. -/
theorem key_of_storeAfter {calls : List StoreCall} {key : String} {s : LiveSeries}
    (h : storeAfter calls key = some s) : s.key = key := by
  rw [storeAfter_eq_window, window] at h
  obtain ⟨header, -, rfl⟩ := Option.map_eq_some_iff.mp h
  rfl

theorem category_of_storeAfter {calls : List StoreCall} {key : String} {s : LiveSeries}
    (h : storeAfter calls key = some s) : s.category = (getMetricMeta s.type).category := by
  rw [storeAfter_eq_window, window] at h
  obtain ⟨header, -, rfl⟩ := Option.map_eq_some_iff.mp h
  rfl

/-- **The list is the store**, with each key once. -/
theorem values_toRecord (calls : List StoreCall) :
    toRecord (valuesAfter calls) = storeAfter calls ∧ KeysNodup (valuesAfter calls) := by
  induction calls using List.reverseRecOn with
  | nil => exact ⟨rfl, List.nodup_nil⟩
  | append_singleton calls call ih =>
    have hvalues : valuesAfter (calls ++ [call]) = callValues (valuesAfter calls) call := by
      rw [valuesAfter, List.foldl_append]
      rfl
    have hstore : storeAfter (calls ++ [call]) = (storeAfter calls).call call := by
      rw [storeAfter, List.foldl_append]
      rfl
    rw [hvalues, hstore]
    cases call with
    | reset => exact ⟨rfl, List.nodup_nil⟩
    | ingest batch =>
      refine ⟨?_, ih.2.ingestValues batch⟩
      rw [← ih.1]
      exact toRecord_ingestValues (valuesAfter calls) batch

theorem mem_valuesAfter {calls : List StoreCall} {s : LiveSeries} :
    s ∈ valuesAfter calls ↔ storeAfter calls s.key = some s := by
  obtain ⟨hrecord, hnodup⟩ := values_toRecord calls
  rw [← hrecord]
  constructor
  · intro hs
    cases hfind : toRecord (valuesAfter calls) s.key with
    | none => exact absurd (List.mem_map_of_mem hs) (toRecord_eq_none.mp hfind)
    | some s' =>
      obtain ⟨hs', hkey⟩ := toRecord_eq_some hfind
      rw [List.inj_on_of_nodup_map hnodup hs' hs hkey]
  · exact fun h => (toRecord_eq_some h).1

/-! ### The groups -/

theorem byCategory_eq (series : List LiveSeries) (category : MetricCategory) :
    byCategory series category = Grouping.group LiveSeries.category category series := by
  induction series using List.reverseRecOn with
  | nil => rfl
  | append_singleton series s ih =>
    rw [byCategory, List.foldl_append, ← byCategory, List.foldl_cons, List.foldl_nil,
      Grouping.group_concat]
    split
    · rename_i heq
      rw [← heq, Function.update_self, heq, ih]
    · rename_i hne
      rw [Function.update_of_ne (Ne.symm hne), ih]

theorem mem_grouped {C : Collation} {series : List LiveSeries} {category : MetricCategory}
    {s : LiveSeries} : s ∈ grouped C series category ↔ s ∈ series ∧ s.category = category := by
  rw [grouped, List.mem_insertionSort, byCategory_eq, Grouping.mem_group]

theorem Collation.compare_total (C : Collation) (a b : LiveSeries) :
    C.compare a b ≤ 0 ∨ C.compare b a ≤ 0 := by
  have hlabel := C.swap a.label b.label
  have hlabel' := C.swap b.label a.label
  have hdevice := C.swap (a.deviceLabel.getD "") (b.deviceLabel.getD "")
  simp only [Collation.compare]
  split <;> split <;> omega

theorem Collation.compare_trans (C : Collation) {a b c : LiveSeries} (hab : C.compare a b ≤ 0)
    (hbc : C.compare b c ≤ 0) : C.compare a c ≤ 0 := by
  have habc := C.trans a.label b.label c.label
  have hdevice := C.trans (a.deviceLabel.getD "") (b.deviceLabel.getD "") (c.deviceLabel.getD "")
  -- labels that do not differ from end to end do not differ on the way
  have hbca := C.trans b.label c.label a.label
  have hcab := C.trans c.label a.label b.label
  have hswap := C.swap a.label c.label
  have hswap' := C.swap a.label b.label
  have hswap'' := C.swap b.label c.label
  simp only [Collation.compare] at hab hbc ⊢
  split at hab <;> split at hbc <;> split <;> omega

theorem pairwise_grouped (C : Collation) (series : List LiveSeries) (category : MetricCategory) :
    (grouped C series category).Pairwise fun a b => C.compare a b ≤ 0 := by
  have htotal : Std.Total fun a b : LiveSeries => C.compare a b ≤ 0 := ⟨C.compare_total⟩
  have htrans : IsTrans LiveSeries fun a b => C.compare a b ≤ 0 :=
    ⟨fun _ _ _ hab hbc => C.compare_trans hab hbc⟩
  exact List.pairwise_insertionSort _ _

/-! ### What is shown -/

/-- The cards of a page, from the first section to the last. -/
def cards (sections : List (MetricCategory × List LiveSeries)) : List LiveSeries :=
  sections.flatMap Prod.snd

theorem mem_categories (category : MetricCategory) : category ∈ categories := by
  cases category <;> decide

theorem nodup_categories : categories.Nodup := by decide

theorem mem_sections {C : Collation} {series : List LiveSeries} {l : List MetricCategory}
    {p : MetricCategory × List LiveSeries} (h : p ∈ sections C series l) :
    p.2 = grouped C series p.1 ∧ p.2 ≠ [] := by
  obtain ⟨category, -, h⟩ := List.mem_filterMap.mp h
  rw [sectionOf] at h
  split at h
  · exact absurd h (by simp)
  · rename_i hne
    cases h
    exact ⟨rfl, fun hnil => hne (List.isEmpty_iff.mpr hnil)⟩

theorem sections_cons (C : Collation) (series : List LiveSeries) (category : MetricCategory)
    (l : List MetricCategory) :
    sections C series (category :: l)
      = if (grouped C series category).isEmpty then sections C series l
        else (category, grouped C series category) :: sections C series l := by
  rw [sections, List.filterMap_cons, sectionOf]
  by_cases hempty : (grouped C series category).isEmpty = true
  · rw [if_pos hempty, if_pos hempty]
    rfl
  · rw [if_neg hempty, if_neg hempty]
    rfl

/-- Nothing is lost where a category has no section. -/
theorem cards_sections (C : Collation) (series : List LiveSeries) (l : List MetricCategory) :
    cards (sections C series l) = l.flatMap (grouped C series) := by
  induction l with
  | nil => rfl
  | cons category l ih =>
    rw [sections_cons, List.flatMap_cons, ← ih]
    split
    · rename_i hempty
      rw [List.isEmpty_iff.mp hempty]
      rfl
    · rfl

theorem cards_perm (C : Collation) (series : List LiveSeries) :
    (cards (sections C series categories)).Perm series := by
  have hgroup : ∀ category ∈ categories, (grouped C series category).Perm
      (Grouping.group LiveSeries.category category series) := by
    intro category _
    rw [← byCategory_eq]
    exact List.perm_insertionSort _ _
  rw [cards_sections]
  exact (List.Perm.flatMap_left _ hgroup).trans
    (Grouping.perm_flatMap_group nodup_categories fun s _ => mem_categories s.category)

theorem sublist_sections (C : Collation) (series : List LiveSeries) (l : List MetricCategory) :
    ((sections C series l).map Prod.fst).Sublist l := by
  induction l with
  | nil => exact List.Sublist.slnil
  | cons category l ih =>
    rw [sections_cons]
    split
    · exact ih.cons category
    · exact ih.cons_cons category

/-- A page has what the store has, and has it in its place. -/
def Shows (C : Collation) (series : SeriesRecord) : Page → Prop
  | .noAgent => False
  | .skeleton | .waiting => ∀ key, series key = none
  | .sections l =>
      (∀ s, s ∈ cards l ↔ series s.key = some s) ∧
      ((cards l).map LiveSeries.key).Nodup ∧
      (l.map Prod.fst).Sublist categories ∧
      ∀ p ∈ l, p.2 ≠ [] ∧ (∀ s ∈ p.2, (getMetricMeta s.type).category = p.1) ∧
        p.2.Pairwise fun a b => C.compare a b ≤ 0

theorem shows_sections (C : Collation) (calls : List StoreCall) :
    Shows C (storeAfter calls) (.sections (sections C (valuesAfter calls) categories)) := by
  have hperm := cards_perm C (valuesAfter calls)
  refine ⟨fun s => ?_, ?_, sublist_sections C _ _, fun p hp => ?_⟩
  · rw [hperm.mem_iff, mem_valuesAfter]
  · exact (hperm.map LiveSeries.key).nodup_iff.mpr (values_toRecord calls).2
  · obtain ⟨hgroup, hne⟩ := mem_sections hp
    refine ⟨hne, fun s hs => ?_, ?_⟩
    · rw [hgroup] at hs
      obtain ⟨hmem, hcategory⟩ := mem_grouped.mp hs
      rw [← hcategory, ← category_of_storeAfter (mem_valuesAfter.mp hmem)]
    · rw [hgroup]
      exact pairwise_grouped C (valuesAfter calls) p.1

/-- When all groups are empty, so is the store. -/
theorem storeAfter_eq_none {C : Collation} {calls : List StoreCall}
    (h : (categories.all fun category =>
      (grouped C (valuesAfter calls) category).isEmpty) = true) (key : String) :
    storeAfter calls key = none := by
  cases hs : storeAfter calls key with
  | none => rfl
  | some s =>
    have hkey : s.key = key := key_of_storeAfter hs
    have hmem : s ∈ grouped C (valuesAfter calls) s.category :=
      mem_grouped.mpr ⟨mem_valuesAfter.mpr (hkey.symm ▸ hs), rfl⟩
    have hnil := List.isEmpty_iff.mp (List.all_eq_true.mp h s.category (mem_categories _))
    rw [hnil] at hmem
    exact absurd hmem List.not_mem_nil

/-- **Every live series is shown once, in its place.**  After any calls of the store, with
an agent selected: the page has a card for every series that the store has and no
other, each once; the sections are in the order of the categories, none of them empty,
and each has the series of the types of its category, sorted by label and device.  There
is no section only when there is no series. -/
theorem page_shows (C : Collation) (calls : List StoreCall) {agentId : String}
    (hagent : agentId ≠ "") (status : StreamStatus) :
    Shows C (storeAfter calls) (page C (some agentId) status (valuesAfter calls)) := by
  rw [page, Option.getD_some, if_neg hagent]
  split
  · rename_i hempty
    split
    · exact storeAfter_eq_none hempty
    · exact storeAfter_eq_none hempty
  · exact shows_sections C calls

/-- Shorter texts first. -/
def byLength : Collation where
  localeCompare a b := (a.length : ℤ) - b.length
  swap a b := by omega
  trans a b c := by omega

/-- A batch of a type. -/
def oneSample (type : MetricType) : StoreCall :=
  .ingest { header := some { metricType := type }, timestampsNs := [0], values := [1] }

def threeSamples : List StoreCall :=
  [oneSample metricTypeRamUsed, oneSample metricTypeCpuUtilization, oneSample metricTypeCpuIowait]

theorem page_shows_threeSamples :
    ∃ l, page byLength (some "a") .opened (valuesAfter threeSamples) = .sections l ∧
      l.map (fun p => (p.1, p.2.map LiveSeries.label))
        = [(.cpu, ["IO Wait", "Utilization"]), (.memory, ["Used"])] ∧
      ((cards l).map LiveSeries.key).Nodup := by
  have hpage : page byLength (some "a") .opened (valuesAfter threeSamples)
      = .sections (sections byLength (valuesAfter threeSamples) categories) := by
    rw [page, if_neg (by decide), if_neg (by decide +kernel)]
  have hlabels : (sections byLength (valuesAfter threeSamples) categories).map
      (fun p => (p.1, p.2.map LiveSeries.label))
        = [(.cpu, ["IO Wait", "Utilization"]), (.memory, ["Used"])] := by decide +kernel
  have hshown := page_shows byLength threeSamples (by decide : "a" ≠ "") .opened
  rw [hpage] at hshown
  exact ⟨_, hpage, hlabels, hshown.2.1⟩

end Dashboard
end Volta
