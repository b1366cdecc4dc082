/-
The charts of the dashboard (`lib/uplot-react/react-uplot.tsx`, `wrappers-common.ts`,
`components/charts/detailed-chart.tsx`).

A component makes a chart when it is mounted and changes it after a render, in four
effects.  React first cleans up the effects whose dependencies have changed and then
runs them, each time in their order.  Objects are compared by their identity; what they
hold never changes.

* `oneChart_iff` — a component always has one chart that shows its properties exactly
  if the target never changes together with the options or the data;
* `detailedChart_shows` — the detail page always shows the series it has.
-/
import Volta.Run
import Volta.MetricsStore
import Mathlib.Data.List.Perm.Subperm

namespace Volta

namespace UplotReact

/-! ### Options and data -/

/-- `rest` has the properties other than `width` and `height`; `none` is `undefined`. -/
structure Options (V : Type) where
  width : ℕ
  height : ℕ
  rest : List (String × Option V)
  nodup : (rest.map Prod.fst).Nodup

inductive OptionsUpdateState where
  | keep
  | update
  | create
  deriving DecidableEq

section Options

variable {V : Type} [DecidableEq V]

/-- The value of a property. -/
def Options.get (o : Options V) (key : String) : Option V := (o.rest.lookup key).join

def optionsUpdateState (lhs rhs : Options V) : OptionsUpdateState :=
  let state :=
    if lhs.height ≠ rhs.height ∨ lhs.width ≠ rhs.width then OptionsUpdateState.update else .keep
  if lhs.rest.length ≠ rhs.rest.length then .create
  else if lhs.rest.any fun p => rhs.get p.1 ≠ p.2 then .create
  else state

end Options

/-- A number may be `NaN`, which is not equal to itself. -/
inductive Entry where
  | null
  | nan
  | number (x : Double)
  deriving DecidableEq

/-- `===`. -/
def Entry.same : Entry → Entry → Bool
  | .null, .null => true
  | .number x, .number y => x = y
  | _, _ => false

abbrev AlignedData := List (List Entry)

def seriesMatch (lhs rhs : List Entry) : Bool :=
  lhs.length = rhs.length && (lhs.zip rhs).all fun p => p.1.same p.2

def dataMatch (lhs rhs : AlignedData) : Bool :=
  lhs.length = rhs.length && (lhs.zip rhs).all fun p => seriesMatch p.1 p.2

/-! ### The component -/

/-- What the objects hold. -/
structure Heap (O D V : Type) where
  options : O → Options V
  data : D → AlignedData

/-- `target` is `none` for the component's own element. -/
structure Props (O D T : Type) where
  options : O
  data : D
  target : Option T

/-- A chart that has not been destroyed. -/
structure Chart (T V : Type) where
  options : Options V
  data : AlignedData
  target : Option T

/-- The references of the component, with all its charts. -/
structure State (O D T V : Type) where
  chartRef : Option ℕ := none
  propOptions : O
  propData : D
  propTarget : Option T
  charts : List (ℕ × Chart T V) := []
  created : ℕ := 0

section Effects

variable {O D T V : Type} [DecidableEq O] [DecidableEq D] [DecidableEq T] [DecidableEq V]

namespace State

def destroy (s : State O D T V) : State O D T V :=
  match s.chartRef with
  | none => s
  | some id => { s with charts := s.charts.filter fun c => c.1 ≠ id, chartRef := none }

/-- The chart that is made from the references. -/
def chart (H : Heap O D V) (s : State O D T V) : Chart T V where
  options := H.options s.propOptions
  data := H.data s.propData
  target := s.propTarget

def create (H : Heap O D V) (s : State O D T V) : State O D T V :=
  { s with
    charts := s.charts ++ [(s.created, s.chart H)]
    chartRef := some s.created
    created := s.created + 1 }

def modify (s : State O D T V) (id : ℕ) (f : Chart T V → Chart T V) : State O D T V :=
  { s with charts := s.charts.map fun c => if c.1 = id then (c.1, f c.2) else c }

end State

def Chart.setSize (c : Chart T V) (width height : ℕ) : Chart T V :=
  { c with options := { c.options with width := width, height := height } }

def Chart.setData (c : Chart T V) (data : AlignedData) : Chart T V := { c with data := data }

namespace State

/-- The effect that depends on `options`. -/
def optionsEffect (H : Heap O D V) (p : Props O D T) (s : State O D T V) : State O D T V :=
  if s.propOptions = p.options then s
  else
    let state := optionsUpdateState (H.options s.propOptions) (H.options p.options)
    let s := { s with propOptions := p.options }
    match s.chartRef, state with
    | none, _ => s.destroy.create H
    | some _, .create => s.destroy.create H
    | some id, .update =>
        s.modify id fun c => c.setSize (H.options p.options).width (H.options p.options).height
    | some _, .keep => s

/-- The effect that depends on `data`. -/
def dataEffect (H : Heap O D V) (p : Props O D T) (s : State O D T V) : State O D T V :=
  if s.propData = p.data then s
  else
    match s.chartRef with
    | none => create H { s with propData := p.data }
    | some id =>
        let s' :=
          if dataMatch (H.data s.propData) (H.data p.data) then s
          else s.modify id fun c => c.setData (H.data p.data)
        { s' with propData := p.data }

/-- The effect that depends on `target`. -/
def targetEffect (H : Heap O D V) (p : Props O D T) (s : State O D T V) : State O D T V :=
  if s.propTarget = p.target then s else create H { s with propTarget := p.target }

/-- All effects, as when the component is mounted. -/
def effects (H : Heap O D V) (p : Props O D T) (s : State O D T V) : State O D T V :=
  targetEffect H p (dataEffect H p (optionsEffect H p (create H s)))

/-- All their cleanups: of the effect that creates and of the one on `target`. -/
def cleanups (s : State O D T V) : State O D T V := s.destroy.destroy

/-- What is done after a render with other properties. -/
def update (H : Heap O D V) (old p : Props O D T) (s : State O D T V) : State O D T V :=
  let s := if p.target ≠ old.target then s.destroy else s
  let s := if p.options ≠ old.options then optionsEffect H p s else s
  let s := if p.data ≠ old.data then dataEffect H p s else s
  if p.target ≠ old.target then targetEffect H p s else s

end State

/-- A component that is mounted, with its last properties; else what it has left. -/
inductive Component (O D T V : Type) where
  | mounted (props : Props O D T) (s : State O D T V)
  | unmounted (charts : List (ℕ × Chart T V)) (created : ℕ)

inductive Action (O D T : Type) where
  | mount (props : Props O D T)
  | render (props : Props O D T)
  /-- In development React cleans all effects up and runs them again. -/
  | remount
  | unmount

def step (H : Heap O D V) : Component O D T V → Action O D T → Option (Component O D T V)
  | .unmounted charts created, .mount p => some
      (.mounted p (State.effects H p
        { propOptions := p.options, propData := p.data, propTarget := p.target
          charts := charts, created := created }))
  | .mounted old s, .render p => some (.mounted p (s.update H old p))
  | .mounted p s, .remount => some (.mounted p (s.cleanups.effects H p))
  | .mounted _ s, .unmount => some (.unmounted s.cleanups.charts s.created)
  | _, _ => none

end Effects

/-! ### Comparing options and data -/

section Comparing

variable {V : Type}

structure Options.Same (a b : Options V) : Prop where
  width : a.width = b.width
  height : a.height = b.height
  get : ∀ key, a.get key = b.get key

theorem Options.get_of_mem {o : Options V} {p : String × Option V} (h : p ∈ o.rest) :
    o.get p.1 = p.2 := by
  obtain ⟨l₁, l₂, hl⟩ := List.append_of_mem h
  have hfirst : ∀ q ∈ l₁, (p.1 != q.1) = true := by
    intro q hq
    have hnodup := o.nodup
    rw [hl, List.map_append, List.map_cons] at hnodup
    have hne := (List.nodup_append.mp hnodup).2.2 q.1 (List.mem_map_of_mem hq) p.1
      List.mem_cons_self
    exact bne_iff_ne.mpr hne.symm
  have hlookup : o.rest.lookup p.1 = some p.2 := List.lookup_eq_some_iff.mpr ⟨l₁, l₂, hl, hfirst⟩
  rw [Options.get, hlookup]
  rfl

theorem Options.get_of_not_mem {o : Options V} {key : String} (h : key ∉ o.rest.map Prod.fst) :
    o.get key = none := by
  have hlookup : o.rest.lookup key = none := by
    rw [List.lookup_eq_none_iff]
    intro p hp
    exact bne_iff_ne.mpr fun heq => h (List.mem_map.mpr ⟨p, hp, heq.symm⟩)
  rw [Options.get, hlookup]
  rfl

/-- No property is there with the value `undefined`. -/
def Options.Defined (o : Options V) : Prop := ∀ p ∈ o.rest, p.2 ≠ none

/-- Options that do not ask for another chart have the same properties. -/
theorem get_eq_of_ne_create [DecidableEq V] {lhs rhs : Options V} (hdef : lhs.Defined)
    (h : optionsUpdateState lhs rhs ≠ .create) (key : String) : lhs.get key = rhs.get key := by
  rw [optionsUpdateState] at h
  split at h
  · exact absurd rfl h
  · rename_i hlength
    split at h
    · exact absurd rfl h
    · rename_i hvalues
      have heq : ∀ p ∈ lhs.rest, rhs.get p.1 = p.2 := by
        intro p hp
        by_contra hne
        exact hvalues (List.any_eq_true.mpr ⟨p, hp, decide_eq_true hne⟩)
      -- as all values are defined, the keys are those of the other side
      have hsub : lhs.rest.map Prod.fst ⊆ rhs.rest.map Prod.fst := by
        intro k hk
        obtain ⟨p, hp, rfl⟩ := List.mem_map.mp hk
        by_contra hno
        exact hdef p hp ((heq p hp).symm.trans (Options.get_of_not_mem hno))
      have hperm : (lhs.rest.map Prod.fst).Perm (rhs.rest.map Prod.fst) := by
        refine (lhs.nodup.subperm hsub).perm_of_length_le ?_
        rw [List.length_map, List.length_map]
        omega
      by_cases hkey : key ∈ lhs.rest.map Prod.fst
      · obtain ⟨p, hp, rfl⟩ := List.mem_map.mp hkey
        exact (Options.get_of_mem hp).trans (heq p hp).symm
      · have hother : key ∉ rhs.rest.map Prod.fst := fun hk => hkey (hperm.mem_iff.mpr hk)
        exact (Options.get_of_not_mem hkey).trans (Options.get_of_not_mem hother).symm

theorem size_eq_of_keep [DecidableEq V] {lhs rhs : Options V}
    (h : optionsUpdateState lhs rhs = .keep) : lhs.width = rhs.width ∧ lhs.height = rhs.height := by
  rw [optionsUpdateState] at h
  split at h
  · exact absurd h (by simp)
  · split at h
    · exact absurd h (by simp)
    · split at h
      · exact absurd h (by simp)
      · rename_i hsize
        push Not at hsize
        exact ⟨hsize.2, hsize.1⟩

theorem Entry.eq_of_same {x y : Entry} (h : x.same y = true) : x = y := by
  cases x <;> cases y <;> simp_all [Entry.same]

/-- A pointwise test that holds of equal elements only. -/
theorem eq_of_zip_all {α : Type} {test : α → α → Bool} (htest : ∀ x y, test x y = true → x = y) :
    ∀ {l r : List α}, l.length = r.length → (l.zip r).all (fun p => test p.1 p.2) = true → l = r
  | [], [], _, _ => rfl
  | x :: l, y :: r, hlength, h => by
    rw [List.zip_cons_cons, List.all_cons, Bool.and_eq_true] at h
    rw [htest x y h.1, eq_of_zip_all htest (Nat.succ.inj hlength) h.2]

theorem eq_of_dataMatch {lhs rhs : AlignedData} (h : dataMatch lhs rhs = true) : lhs = rhs := by
  rw [dataMatch, Bool.and_eq_true, decide_eq_true_iff] at h
  refine eq_of_zip_all (fun l r hlr => ?_) h.1 h.2
  rw [seriesMatch, Bool.and_eq_true, decide_eq_true_iff] at hlr
  exact eq_of_zip_all (fun _ _ => Entry.eq_of_same) hlr.1 hlr.2

end Comparing

/-! ### One chart -/

section OneChart

variable {O D T V : Type} {H : Heap O D V}

/-- A chart is what the properties ask for. -/
structure Shows (H : Heap O D V) (p : Props O D T) (c : Chart T V) : Prop where
  options : c.options.Same (H.options p.options)
  data : c.data = H.data p.data
  target : c.target = p.target

/-- A mounted component has one chart, and one that is not has none. -/
def OneChart (H : Heap O D V) : Component O D T V → Prop
  | .mounted p s => ∃ id c, s.charts = [(id, c)] ∧ s.chartRef = some id ∧ Shows H p c
  | .unmounted charts _ => charts = []

/-- The target changes by itself. -/
def Separate : Component O D T V → Action O D T → Prop
  | .mounted old _, .render p =>
      p.target ≠ old.target → p.options = old.options ∧ p.data = old.data
  | _, _ => True

/-- The references have the last properties. -/
structure Current (p : Props O D T) (s : State O D T V) : Prop where
  options : s.propOptions = p.options
  data : s.propData = p.data
  target : s.propTarget = p.target

/-- What the effects of a component see that has one chart for `p`. -/
structure Showing (H : Heap O D V) (p : Props O D T) (s : State O D T V) : Prop where
  current : Current p s
  chart : ∃ id c, s.charts = [(id, c)] ∧ s.chartRef = some id ∧ Shows H p c

def Inv (H : Heap O D V) : Component O D T V → Prop
  | .mounted p s => Showing H p s
  | .unmounted charts _ => charts = []

theorem Options.Same.refl (o : Options V) : o.Same o := ⟨rfl, rfl, fun _ => rfl⟩

variable {p old : Props O D T} {s : State O D T V}

theorem Current.destroy (h : Current p s) : Current p s.destroy := by
  rw [State.destroy]
  split
  · exact h
  · exact ⟨h.options, h.data, h.target⟩

theorem charts_destroy {id : ℕ} {c : Chart T V} (hcharts : s.charts = [(id, c)])
    (href : s.chartRef = some id) : s.destroy.charts = [] ∧ s.destroy.chartRef = none := by
  rw [State.destroy, href]
  refine ⟨?_, rfl⟩
  show s.charts.filter _ = []
  rw [hcharts, List.filter_cons_of_neg (by simp), List.filter_nil]

/-- A chart that is made when there is none. -/
theorem showing_create (hcharts : s.charts = []) (h : Current p s) : Showing H p (s.create H) := by
  refine ⟨⟨h.options, h.data, h.target⟩, s.created, s.chart H, ?_, rfl, ?_⟩
  · show s.charts ++ _ = _
    rw [hcharts, List.nil_append]
  · exact ⟨h.options ▸ .refl _, h.data ▸ rfl, h.target⟩

theorem Showing.cleanups (h : Showing H p s) :
    s.cleanups.charts = [] ∧ Current p s.cleanups := by
  obtain ⟨hcurrent, id, c, hcharts, href, -⟩ := h
  obtain ⟨hempty, hnone⟩ := charts_destroy hcharts href
  have hagain : s.cleanups = s.destroy := by rw [State.cleanups, State.destroy.eq_1, hnone]
  rw [hagain]
  exact ⟨hempty, hcurrent.destroy⟩

/-- The component after a change of the chart it has. -/
theorem showing_modify {id : ℕ} {c : Chart T V} {f : Chart T V → Chart T V}
    (hcharts : s.charts = [(id, c)]) (href : s.chartRef = some id) (h : Current p s)
    (hf : Shows H p (f c)) : Showing H p (s.modify id f) := by
  refine ⟨⟨h.options, h.data, h.target⟩, id, f c, ?_, href, hf⟩
  show s.charts.map _ = _
  rw [hcharts, List.map_singleton, if_pos rfl]

/-- The options effect leaves a chart with the new options. -/
theorem Showing.optionsEffect [DecidableEq O] [DecidableEq V]
    (hdef : ∀ o, (H.options o).Defined) (h : Showing H old s) (p : Props O D T) :
    Showing H { old with options := p.options } (s.optionsEffect H p) := by
  rw [State.optionsEffect]
  split
  · rename_i hsame
    have heq : { old with options := p.options } = old := by rw [← hsame, h.current.options]
    rw [heq]
    exact h
  · obtain ⟨hcurrent, id, c, hcharts, href, hshows⟩ := h
    have hcurrent' : Current { old with options := p.options }
        { s with propOptions := p.options } := ⟨rfl, hcurrent.data, hcurrent.target⟩
    have hget : optionsUpdateState (H.options s.propOptions) (H.options p.options) ≠ .create →
        ∀ key, c.options.get key = (H.options p.options).get key := by
      intro hne key
      rw [hshows.options.get key, ← hcurrent.options]
      exact get_eq_of_ne_create (hdef s.propOptions) hne key
    dsimp only
    split
    · rename_i hnone
      exact absurd (href.symm.trans hnone) (Option.some_ne_none id)
    · obtain ⟨hempty, -⟩ := charts_destroy (s := { s with propOptions := p.options }) hcharts href
      exact showing_create hempty hcurrent'.destroy
    · rename_i hid hupdate
      cases href.symm.trans hid
      refine showing_modify hcharts href hcurrent' ⟨⟨rfl, rfl, fun key => ?_⟩, ?_, ?_⟩
      · exact hget (by rw [hupdate]; simp) key
      · exact hshows.data
      · exact hshows.target
    · rename_i hkeep
      obtain ⟨hwidth, hheight⟩ := size_eq_of_keep hkeep
      rw [hcurrent.options] at hwidth hheight
      refine ⟨hcurrent', id, c, hcharts, href, ⟨?_, ?_, fun key => ?_⟩, hshows.data, hshows.target⟩
      · exact hshows.options.width.trans hwidth
      · exact hshows.options.height.trans hheight
      · exact hget (by rw [hkeep]; simp) key

/-- The data effect leaves a chart with the new data. -/
theorem Showing.dataEffect [DecidableEq D] (h : Showing H old s) (p : Props O D T) :
    Showing H { old with data := p.data } (s.dataEffect H p) := by
  rw [State.dataEffect]
  split
  · rename_i hsame
    have heq : { old with data := p.data } = old := by rw [← hsame, h.current.data]
    rw [heq]
    exact h
  · obtain ⟨hcurrent, id, c, hcharts, href, hshows⟩ := h
    split
    · rename_i hnone
      exact absurd (href.symm.trans hnone) (Option.some_ne_none id)
    rename_i hid
    cases href.symm.trans hid
    dsimp only
    split
    · rename_i hmatch
      refine ⟨⟨hcurrent.options, rfl, hcurrent.target⟩, id, c, hcharts, href, hshows.options, ?_,
        hshows.target⟩
      rw [hshows.data, ← hcurrent.data]
      exact eq_of_dataMatch hmatch
    · exact showing_modify (s := { s with propData := p.data })
        (f := fun c => c.setData (H.data p.data)) hcharts href
        ⟨hcurrent.options, rfl, hcurrent.target⟩ ⟨hshows.options, rfl, hshows.target⟩

theorem length_create (s : State O D T V) :
    (s.create H).charts.length = s.charts.length + 1 := by
  rw [State.create, List.length_append, List.length_singleton]

theorem length_dataEffect [DecidableEq D] (p : Props O D T) (s : State O D T V) :
    s.charts.length ≤ (s.dataEffect H p).charts.length := by
  rw [State.dataEffect]
  split
  · exact le_rfl
  · split
    · rw [length_create]
      exact Nat.le_succ _
    · dsimp only
      split
      · exact le_rfl
      · exact (List.length_map _).ge

/-- An effect that finds no chart makes one. -/
theorem length_optionsEffect [DecidableEq O] [DecidableEq V] (hnone : s.chartRef = none)
    (hne : s.propOptions ≠ p.options) : 1 ≤ (s.optionsEffect H p).charts.length := by
  rw [State.optionsEffect, if_neg hne]
  dsimp only
  rw [hnone]
  rw [length_create]
  omega

theorem length_dataEffect_of_none [DecidableEq D] (hnone : s.chartRef = none)
    (hne : s.propData ≠ p.data) : 1 ≤ (s.dataEffect H p).charts.length := by
  rw [State.dataEffect, if_neg hne]
  rw [hnone]
  rw [length_create]
  omega

theorem propTarget_destroy (s : State O D T V) : s.destroy.propTarget = s.propTarget := by
  rw [State.destroy]
  split <;> rfl

theorem propTarget_optionsEffect [DecidableEq O] [DecidableEq V] (p : Props O D T)
    (s : State O D T V) :
    (s.optionsEffect H p).propTarget = s.propTarget := by
  rw [State.optionsEffect]
  split
  · rfl
  · dsimp only
    split
    · exact propTarget_destroy { s with propOptions := p.options }
    · exact propTarget_destroy { s with propOptions := p.options }
    · rfl
    · rfl

theorem propTarget_dataEffect [DecidableEq D] (p : Props O D T) (s : State O D T V) :
    (s.dataEffect H p).propTarget = s.propTarget := by
  rw [State.dataEffect]
  split
  · rfl
  · split
    · rfl
    · dsimp only
      split <;> rfl

theorem Inv.oneChart {c : Component O D T V} (h : Inv H c) : OneChart H c := by
  cases c with
  | unmounted charts created => exact h
  | mounted p s => exact h.chart

variable [DecidableEq O] [DecidableEq D] [DecidableEq T] [DecidableEq V]

/-- When a component is mounted, only the first effect does anything. -/
theorem showing_effects (hcharts : s.charts = []) (h : Current p s) :
    Showing H p (s.effects H p) := by
  have hcreate : Showing H p (s.create H) := showing_create hcharts h
  obtain ⟨hoptions, hdata, htarget⟩ := hcreate.current
  rw [State.effects, State.optionsEffect, if_pos hoptions, State.dataEffect, if_pos hdata,
    State.targetEffect, if_pos htarget]
  exact hcreate

/-- A render that does not change the target. -/
theorem Showing.update (hdef : ∀ o, (H.options o).Defined) (h : Showing H old s)
    (htarget : p.target = old.target) : Showing H p (s.update H old p) := by
  have hoptions : Showing H { old with options := p.options }
      (if p.options ≠ old.options then s.optionsEffect H p else s) := by
    split
    · exact h.optionsEffect hdef p
    · rename_i hsame
      rw [not_not.mp hsame]
      exact h
  have hdata : Showing H { old with options := p.options, data := p.data }
      (if p.data ≠ old.data then
        (if p.options ≠ old.options then s.optionsEffect H p else s).dataEffect H p
      else if p.options ≠ old.options then s.optionsEffect H p else s) := by
    split
    · exact hoptions.dataEffect p
    · rename_i hsame
      rw [not_not.mp hsame]
      exact hoptions
  have heq : { old with options := p.options, data := p.data } = p := by rw [← htarget]
  rw [heq] at hdata
  simp only [State.update, htarget, ne_eq, not_true_eq_false, if_false]
  exact hdata

/-- A render that changes the target and nothing else: the chart is made again. -/
theorem Showing.retarget (h : Showing H old s) (htarget : p.target ≠ old.target)
    (hoptions : p.options = old.options) (hdata : p.data = old.data) :
    Showing H p (s.update H old p) := by
  obtain ⟨hcurrent, id, c, hcharts, href, -⟩ := h
  obtain ⟨hempty, -⟩ := charts_destroy hcharts href
  have hold := hcurrent.destroy
  simp only [State.update, htarget, hoptions, hdata, ne_eq, not_true_eq_false, if_false,
    not_false_eq_true, if_true]
  rw [State.targetEffect, if_neg (fun heq => htarget (heq.symm.trans hold.target))]
  exact showing_create hempty ⟨hold.options.trans hoptions.symm, hold.data.trans hdata.symm, rfl⟩

/-- A render that changes the target and something else: an effect on the options or
the data finds no chart and makes one, and the effect on the target makes another. -/
theorem two_le_length (h : Showing H old s) (htarget : p.target ≠ old.target)
    (hother : ¬ (p.options = old.options ∧ p.data = old.data)) :
    2 ≤ (s.update H old p).charts.length := by
  obtain ⟨hcurrent, id, c, hcharts, href, -⟩ := h
  obtain ⟨hempty, hnone⟩ := charts_destroy hcharts href
  have hold := hcurrent.destroy
  have hone : ∀ t : State O D T V, t = (if p.options ≠ old.options then
      s.destroy.optionsEffect H p else s.destroy) →
      1 ≤ (if p.data ≠ old.data then t.dataEffect H p else t).charts.length ∧
        (if p.data ≠ old.data then t.dataEffect H p else t).propTarget = old.target := by
    rintro t rfl
    refine ⟨?_, ?_⟩
    · by_cases hoptions : p.options = old.options
      · have hdata : p.data ≠ old.data := fun heq => hother ⟨hoptions, heq⟩
        rw [if_neg (not_not.mpr hoptions), if_pos hdata]
        exact length_dataEffect_of_none hnone fun heq => hdata (heq.symm.trans hold.data)
      · rw [if_pos hoptions]
        have hcreated : 1 ≤ (s.destroy.optionsEffect H p).charts.length :=
          length_optionsEffect hnone fun heq => hoptions (heq.symm.trans hold.options)
        split
        · exact hcreated.trans (length_dataEffect p _)
        · exact hcreated
    · split <;> split <;>
        simp only [propTarget_dataEffect, propTarget_optionsEffect, hold.target]
  obtain ⟨hlength, hlast⟩ := hone _ rfl
  simp only [State.update, htarget, ne_eq, not_false_eq_true, if_true] at hlength hlast ⊢
  rw [State.targetEffect, if_neg (fun heq => htarget (heq.symm.trans hlast)), length_create]
  exact Nat.succ_le_succ hlength

theorem Inv.step (hdef : ∀ o, (H.options o).Defined) {c d : Component O D T V}
    {a : Action O D T} (h : Inv H c) (hok : Separate c a) (hd : step H c a = some d) :
    Inv H d := by
  cases c with
  | unmounted charts created =>
    cases a with
    | mount p =>
      cases hd
      exact showing_effects h ⟨rfl, rfl, rfl⟩
    | render | remount | unmount => exact absurd hd (by simp [UplotReact.step])
  | mounted old s =>
    cases a with
    | mount p => exact absurd hd (by simp [UplotReact.step])
    | render p =>
      cases hd
      by_cases htarget : p.target = old.target
      · exact h.update hdef htarget
      · obtain ⟨hoptions, hdata⟩ := hok htarget
        exact h.retarget htarget hoptions hdata
    | remount =>
      cases hd
      exact showing_effects h.cleanups.1 h.cleanups.2
    | unmount =>
      cases hd
      exact h.cleanups.1

/-- **One chart.**  In every run of a component it has one chart all the time it is
mounted, with the options, the data and the target of the last render, and none
afterwards, exactly if no render changes the target together with the options or the
data. -/
theorem oneChart_iff (hdef : ∀ o, (H.options o).Defined) {as : List (Action O D T)}
    {c : Component O D T V} (hs : Run.exec (step H) (.unmounted [] 0) as = some c) :
    Run.Along (step H) (OneChart H) (.unmounted [] 0) as ↔
      Run.Meets (step H) Separate (.unmounted [] 0) as := by
  refine Run.along_iff_meets (I := Inv H) (fun h => h.oneChart) (fun h hok hd => h.step hdef hok hd)
    (fun {c a d} h hno hd hone => ?_) rfl hs
  cases c with
  | unmounted charts created => exact hno trivial
  | mounted old s =>
    cases a with
    | mount | remount | unmount => exact hno trivial
    | render p =>
      cases hd
      simp only [Separate, Classical.not_imp] at hno
      have hlength := two_le_length (H := H) h hno.1 hno.2
      obtain ⟨id, c, hcharts, -⟩ := hone
      rw [hcharts] at hlength
      exact absurd hlength (by simp)

/-- Options of a width, and a series of one number. -/
def oneNumber : Heap ℕ ℕ ℕ where
  options width := ⟨width, 100, [("series", some 0)], by simp⟩
  data x := [[.number x]]

theorem oneChart_iff_render :
    Run.Along (step oneNumber) (OneChart oneNumber) (.unmounted [] 0)
      [.mount ⟨300, 1, (none : Option ℕ)⟩, .remount, .render ⟨400, 2, none⟩, .unmount] := by
  have hdef : ∀ width, (oneNumber.options width).Defined := by
    intro width p hp
    cases List.mem_singleton.mp hp
    exact Option.some_ne_none 0
  refine (oneChart_iff hdef rfl).mpr ⟨trivial, fun c hc => ?_⟩
  cases hc
  refine ⟨trivial, fun c hc => ?_⟩
  cases hc
  refine ⟨fun htarget => absurd rfl htarget, fun c hc => ?_⟩
  exact ⟨by cases hc; trivial, fun _ _ => trivial⟩

end OneChart

end UplotReact

/-! ### The chart of the detail page -/

namespace DetailedChart

open UplotReact (Options Heap Props Component AlignedData Entry)

variable {A B : Type}

/-- The properties of `baseOptions`. -/
def baseKeys : List String := ["scales", "legend", "plugins", "hooks", "cursor", "axes", "series"]

/-- What `useMemo` makes of `baseOptions` and a size, each time with other objects for
other `baseOptions`. -/
def options (o : B × ℕ × ℕ) : Options (B × String) where
  width := max o.2.1 1
  height := o.2.2
  rest := baseKeys.map fun key => (key, some (o.1, key))
  nodup := by
    rw [List.map_map]
    exact (List.map_id baseKeys).symm ▸ by decide

def data (series : Dashboard.LiveSeries) : AlignedData :=
  [series.times.map fun t : ℕ => .number ((t : Double) / 1000), series.values.map .number]

/-- `series` gives the series that the store had at some time. -/
def heap (series : A → Dashboard.LiveSeries) : Heap (B × ℕ × ℕ) A (B × String) where
  options := options
  data a := data (series a)

/-- What a render of `DetailedChart` sees. -/
structure View (A B : Type) where
  width : ℕ
  height : ℕ
  baseOptions : B
  series : A

def View.props (v : View A B) : Props (B × ℕ × ℕ) A Unit where
  options := (v.baseOptions, v.width, v.height)
  data := v.series
  target := none

/-- The chart is there when its place has a width and there are two points. -/
def View.ready (series : A → Dashboard.LiveSeries) (v : View A B) : Bool :=
  0 < v.width && 1 < (series v.series).times.length && 1 < (series v.series).values.length

inductive Action (A B : Type) where
  | render (v : View A B)
  | remount
  | leave

theorem defined_heap (series : A → Dashboard.LiveSeries) (o : B × ℕ × ℕ) :
    ((heap series).options o).Defined := by
  intro p hp
  obtain ⟨key, -, rfl⟩ := List.mem_map.mp hp
  exact Option.some_ne_none (o.1, key)

/-- No target is ever given. -/
def NoTarget : Component (B × ℕ × ℕ) A Unit (B × String) → Prop
  | .mounted p _ => p.target = none
  | .unmounted _ _ => True

structure Inv (series : A → Dashboard.LiveSeries)
    (c : Component (B × ℕ × ℕ) A Unit (B × String)) : Prop where
  chart : UplotReact.Inv (heap series) c
  noTarget : NoTarget c

def charts : Component (B × ℕ × ℕ) A Unit (B × String) →
    List (ℕ × UplotReact.Chart Unit (B × String))
  | .mounted _ s => s.charts
  | .unmounted charts _ => charts

theorem Inv.length_charts {series : A → Dashboard.LiveSeries}
    {c : Component (B × ℕ × ℕ) A Unit (B × String)} (h : Inv series c) : (charts c).length ≤ 1 := by
  cases c with
  | unmounted l created =>
    have hempty : l = [] := h.chart
    exact (congrArg List.length hempty).le.trans (Nat.zero_le 1)
  | mounted p s =>
    obtain ⟨id, chart, hcharts, -⟩ := h.chart.chart
    exact (congrArg List.length hcharts).le

/-- A chart with these points. -/
def points (pairs : List (ℕ × Double)) : AlignedData :=
  [pairs.map fun p => .number ((p.1 : Double) / 1000), pairs.map fun p => .number p.2]

theorem data_of_storeAfter {calls : List Dashboard.StoreCall} {key : String}
    {live : Dashboard.LiveSeries} (h : Dashboard.storeAfter calls key = some live) :
    data live = points ((Dashboard.received key (Dashboard.sinceReset calls)).rtake
      Dashboard.maxPoints) := by
  rw [Dashboard.storeAfter_eq_window, Dashboard.window] at h
  obtain ⟨header, -, rfl⟩ := Option.map_eq_some_iff.mp h
  simp only [data, points, List.map_map, Function.comp_def]

/-- What a view asks for. -/
def Displays (v : View A B) (pairs : List (ℕ × Double)) :
    Component (B × ℕ × ℕ) A Unit (B × String) → Prop
  | .mounted _ s => ∃ id chart, s.charts = [(id, chart)] ∧
      chart.options.Same (options (v.baseOptions, v.width, v.height)) ∧ chart.data = points pairs
  | .unmounted _ _ => False

theorem Inv.displays {series : A → Dashboard.LiveSeries} {v : View A B}
    {s : UplotReact.State (B × ℕ × ℕ) A Unit (B × String)} (h : Inv series (.mounted v.props s))
    {calls : List Dashboard.StoreCall} {key : String}
    (hseries : Dashboard.storeAfter calls key = some (series v.series)) :
    Displays v ((Dashboard.received key (Dashboard.sinceReset calls)).rtake Dashboard.maxPoints)
      (.mounted v.props s) := by
  obtain ⟨id, chart, hcharts, -, hshows⟩ := h.chart.chart
  exact ⟨id, chart, hcharts, hshows.options, hshows.data.trans (data_of_storeAfter hseries)⟩

section Step

variable [DecidableEq A] [DecidableEq B]

def step (series : A → Dashboard.LiveSeries) (c : Component (B × ℕ × ℕ) A Unit (B × String)) :
    Action A B → Option (Component (B × ℕ × ℕ) A Unit (B × String))
  | .render v =>
      match c, v.ready series with
      | .unmounted _ _, true => UplotReact.step (heap series) c (.mount v.props)
      | .unmounted _ _, false => some c
      | .mounted _ _, true => UplotReact.step (heap series) c (.render v.props)
      | .mounted _ _, false => UplotReact.step (heap series) c .unmount
  | .remount => UplotReact.step (heap series) c .remount
  | .leave =>
      match c with
      | .unmounted _ _ => some c
      | .mounted _ _ => UplotReact.step (heap series) c .unmount

variable {series : A → Dashboard.LiveSeries} {c d : Component (B × ℕ × ℕ) A Unit (B × String)}

/-- A step of the component below that gives it no target. -/
theorem Inv.below {a : UplotReact.Action (B × ℕ × ℕ) A Unit} (h : Inv series c)
    (ha : ∀ p, a = .mount p ∨ a = .render p → p.target = none)
    (hd : UplotReact.step (heap series) c a = some d) : Inv series d := by
  have hok : UplotReact.Separate c a := by
    cases c with
    | unmounted charts created => trivial
    | mounted old s =>
      cases a with
      | render p => exact fun hne => absurd ((ha p (.inr rfl)).trans h.noTarget.symm) hne
      | mount | remount | unmount => trivial
  refine ⟨h.chart.step (defined_heap series) hok hd, ?_⟩
  cases c with
  | unmounted charts created =>
    cases a with
    | mount p =>
      cases hd
      exact ha p (.inl rfl)
    | render | remount | unmount => exact absurd hd (by simp [UplotReact.step])
  | mounted old s =>
    cases a with
    | mount p => exact absurd hd (by simp [UplotReact.step])
    | render p =>
      cases hd
      exact ha p (.inr rfl)
    | remount =>
      cases hd
      exact h.noTarget
    | unmount =>
      cases hd
      trivial

theorem Inv.step {a : Action A B} (h : Inv series c) (hd : step series c a = some d) :
    Inv series d := by
  cases a with
  | render v =>
    simp only [DetailedChart.step] at hd
    split at hd
    · exact h.below (by rintro p (hp | hp) <;> cases hp; rfl) hd
    · cases hd
      exact h
    · exact h.below (by rintro p (hp | hp) <;> cases hp; rfl) hd
    · exact h.below (by rintro p (hp | hp) <;> cases hp) hd
  | remount => exact h.below (by rintro p (hp | hp) <;> cases hp) hd
  | leave =>
    simp only [DetailedChart.step] at hd
    split at hd
    · cases hd
      exact h
    · exact h.below (by rintro p (hp | hp) <;> cases hp) hd

/-- **The detail page shows the series.**  After any renders, of this series or of
others, in places of any size, and any unmounting: there is never more than one chart;
and when a series of the store is rendered, the chart has the size of its place and the
last 600 pairs received for the series since the store was reset, unless there is no
room or only one pair, and then there is none. -/
theorem detailedChart_shows {as : List (Action A B)}
    (hs : Run.exec (step series) (.unmounted [] 0) as = some c) (v : View A B)
    {calls : List Dashboard.StoreCall} {key : String}
    (hseries : Dashboard.storeAfter calls key = some (series v.series)) :
    (charts c).length ≤ 1 ∧ ∃ d, step series c (.render v) = some d ∧
      if v.ready series then
        Displays v ((Dashboard.received key (Dashboard.sinceReset calls)).rtake
          Dashboard.maxPoints) d
      else charts d = [] := by
  have hinit : Inv series
      (.unmounted [] 0 : Component (B × ℕ × ℕ) A Unit (B × String)) := ⟨rfl, trivial⟩
  have h : Inv series c := Run.exec_invariant (fun hs ht => Inv.step hs ht) hinit hs
  refine ⟨h.length_charts, ?_⟩
  cases hready : v.ready series with
  | true =>
    have hmounted : ∃ s, step series c (.render v) = some (.mounted v.props s) := by
      cases c with
      | unmounted l created => exact ⟨_, by simp only [step, hready]; rfl⟩
      | mounted old s => exact ⟨_, by simp only [step, hready]; rfl⟩
    obtain ⟨s, hd⟩ := hmounted
    exact ⟨.mounted v.props s, hd, (h.step hd).displays hseries⟩
  | false =>
    cases c with
    | unmounted l created =>
      have hd : step series (.unmounted l created) (.render v) = some (.unmounted l created) := by
        simp only [step, hready]
      exact ⟨_, hd, h.chart⟩
    | mounted old s =>
      have hd : step series (.mounted old s) (.render v)
          = some (.unmounted s.cleanups.charts s.created) := by
        simp only [step, hready]
        rfl
      exact ⟨_, hd, (h.step hd).chart⟩

end Step

def twoSamples : MetricBatch where
  header := some { metricType := metricTypeCpuUtilization }
  timestampsNs := [1000000000, 2000000000]
  values := [10, 20]

/-- The series of these samples. -/
def twoPoints : Dashboard.LiveSeries where
  key := "103::"
  type := metricTypeCpuUtilization
  category := .cpu
  label := "Utilization"
  deviceLabel := none
  times := [1000, 2000]
  values := [10, 20]
  last := some 20

/-- These, or another series at the same times. -/
def twoSeries (other : Bool) : Dashboard.LiveSeries :=
  if other then { twoPoints with key := "301::", values := [1, 2] } else twoPoints

/-- A view of one of them. -/
def twoPointsView (width : ℕ) (other : Bool) : View Bool Unit := ⟨width, 320, (), other⟩

/-- The other series is shown, its place becomes wider, and the page is left. -/
def otherBefore : List (Action Bool Unit) :=
  [.render (twoPointsView 300 true), .render (twoPointsView 400 true), .leave]

theorem detailedChart_shows_twoSamples :
    ∃ c d, Run.exec (step twoSeries) (.unmounted [] 0) otherBefore = some c ∧
      step twoSeries c (.render (twoPointsView 400 false)) = some d ∧
      Displays (twoPointsView 400 false) [(1000, 10), (2000, 20)] d := by
  have hrun : (Run.exec (step twoSeries) (.unmounted [] 0) otherBefore).isSome = true := by
    decide +kernel
  obtain ⟨c, hs⟩ := Option.isSome_iff_exists.mp hrun
  have hstore : Dashboard.storeAfter [.ingest twoSamples] "103::" = some twoPoints := by
    decide +kernel
  obtain ⟨-, d, hd, hshown⟩ := detailedChart_shows hs (twoPointsView 400 false) hstore
  have hpairs : (Dashboard.received "103::" (Dashboard.sinceReset [.ingest twoSamples])).rtake
      Dashboard.maxPoints = [(1000, 10), (2000, 20)] := by decide +kernel
  rw [hpairs] at hshown
  exact ⟨c, d, hs, hd, hshown⟩

end DetailedChart
end Volta
