/-
Runs of a step function.

A system is a function `step : σ → α → Option σ`: `step s a` is the state
after action `a` in state `s`, and `none` when `a` is not enabled there.  All
nondeterminism (who moves next, what the environment does) is in the list of
actions, so "for every interleaving" is "for every list of actions".

* `exec_invariant` — what every step keeps, every run keeps;
* `exec_rel` — two systems that move in lock step stay related;
* `Meets` — every action of the run is taken where a condition holds;
* `Along` — a property holds in every state the run goes through;
* `Reaches` — one party alone can bring the system from one state to another, and
  does so as long as it can lower a measure;
* `along_iff_meets` — when a condition on the steps decides the property:
  kept while the condition is met, lost by the first step that breaks it.
-/
import Mathlib.Data.Option.Basic
import Mathlib.Data.List.Basic
import Mathlib.Tactic.Common

namespace Run

variable {σ τ α : Type*} {step : σ → α → Option σ}

/-- The state after a list of actions, `none` if one of them is not enabled. -/
def exec (step : σ → α → Option σ) : σ → List α → Option σ
  | s, [] => some s
  | s, a :: as => (step s a).bind fun t => exec step t as

@[simp] theorem exec_nil (s : σ) : exec step s [] = some s := rfl

theorem exec_cons_eq_some {s u : σ} {a : α} {as : List α} :
    exec step s (a :: as) = some u ↔ ∃ t, step s a = some t ∧ exec step t as = some u := by
  simp only [exec, Option.bind_eq_some_iff]

theorem exec_append (s : σ) (as bs : List α) :
    exec step s (as ++ bs) = (exec step s as).bind fun t => exec step t bs := by
  induction as generalizing s with
  | nil => rfl
  | cons a as ih =>
    simp only [List.cons_append, exec]
    cases step s a with
    | none => rfl
    | some t => exact ih t

theorem exec_append_eq_some {s u : σ} {as bs : List α} :
    exec step s (as ++ bs) = some u ↔
      ∃ t, exec step s as = some t ∧ exec step t bs = some u := by
  simp only [exec_append, Option.bind_eq_some_iff]

/-- Where every action is enabled, every run goes through. -/
theorem exists_exec (h : ∀ s a, ∃ t, step s a = some t) (s : σ) (as : List α) :
    ∃ u, exec step s as = some u := by
  induction as generalizing s with
  | nil => exact ⟨s, rfl⟩
  | cons a as ih =>
    obtain ⟨t, ht⟩ := h s a
    obtain ⟨u, hu⟩ := ih t
    exact ⟨u, exec_cons_eq_some.mpr ⟨t, ht, hu⟩⟩

/-- Every action of the run is taken in a state where `ok` allows it. -/
def Meets (step : σ → α → Option σ) (ok : σ → α → Prop) : σ → List α → Prop
  | _, [] => True
  | s, a :: as => ok s a ∧ ∀ t, step s a = some t → Meets step ok t as

/-- `P` holds in every state the run goes through, the first and the last
included. -/
def Along (step : σ → α → Option σ) (P : σ → Prop) : σ → List α → Prop
  | s, [] => P s
  | s, a :: as => P s ∧ ∀ t, step s a = some t → Along step P t as

theorem Along.head {P : σ → Prop} {s : σ} {as : List α} (h : Along step P s as) : P s := by
  cases as with
  | nil => exact h
  | cons a as => exact h.1

/-- A property that holds along a run holds at its end. -/
theorem Along.last {P : σ → Prop} {s u : σ} {as : List α} (h : Along step P s as)
    (hu : exec step s as = some u) : P u := by
  induction as generalizing s with
  | nil =>
    rw [exec_nil, Option.some_inj] at hu
    exact hu ▸ h
  | cons a as ih =>
    obtain ⟨t, ht, htu⟩ := exec_cons_eq_some.mp hu
    exact ih (h.2 t ht) htu

/-- **Guarded invariant rule**: what every allowed step keeps holds at the end
of every run whose steps are all allowed. -/
theorem exec_invariant_of_meets {I : σ → Prop} {ok : σ → α → Prop}
    (hstep : ∀ {s a t}, I s → ok s a → step s a = some t → I t) :
    ∀ {as : List α} {s u : σ}, I s → Meets step ok s as → exec step s as = some u → I u := by
  intro as
  induction as with
  | nil =>
    intro s u hs _ hu
    rw [exec_nil, Option.some_inj] at hu
    exact hu ▸ hs
  | cons a as ih =>
    intro s u hs hm hu
    obtain ⟨t, ht, htu⟩ := exec_cons_eq_some.mp hu
    exact ih (hstep hs hm.1 ht) (hm.2 t ht) htu

/-- **Invariant rule**: what every step keeps holds at the end of every run. -/
theorem exec_invariant {I : σ → Prop} (hstep : ∀ {s a t}, I s → step s a = some t → I t)
    {as : List α} {s u : σ} (hs : I s) (hu : exec step s as = some u) : I u := by
  have hm : ∀ (as : List α) (s : σ), Meets step (fun _ _ => True) s as := by
    intro as
    induction as with
    | nil => exact fun _ => trivial
    | cons a as ih => exact fun _ => ⟨trivial, fun t _ => ih t⟩
  exact exec_invariant_of_meets (fun hs _ ht => hstep hs ht) hs (hm as s) hu

/-- What an invariant implies holds in every state of every run. -/
theorem along_of_invariant {I P : σ → Prop} (hP : ∀ {s}, I s → P s)
    (hstep : ∀ {s a t}, I s → step s a = some t → I t) :
    ∀ (as : List α) {s : σ}, I s → Along step P s as := by
  intro as
  induction as with
  | nil => exact fun hs => hP hs
  | cons a as ih => exact fun hs => ⟨hP hs, fun t ht => ih (hstep hs ht)⟩

/-- **Lock-step rule**: systems whose steps keep a relation, and are enabled
together in related states, stay related along every run. -/
theorem exec_rel {step' : τ → α → Option τ} {R : σ → τ → Prop}
    (hstep : ∀ {s t} (a : α), R s t → Option.Rel R (step s a) (step' t a)) :
    ∀ (as : List α) {s : σ} {t : τ}, R s t →
      Option.Rel R (exec step s as) (exec step' t as) := by
  intro as
  induction as with
  | nil => exact fun h => .some h
  | cons a as ih =>
    intro s t h
    have ha := hstep a h
    simp only [exec]
    revert ha
    cases step s a <;> cases step' t a <;> intro ha <;> cases ha
    · exact .none
    · rename_i h'
      exact ih h'

/-- Related results look the same through observations the relation equates. -/
theorem map_eq_of_rel {β : Type*} {R : σ → τ → Prop} {f : σ → β} {g : τ → β}
    (h : ∀ {s t}, R s t → f s = g t) {x : Option σ} {y : Option τ} (hxy : Option.Rel R x y) :
    x.map f = y.map g := by
  cases hxy with
  | none => rfl
  | some hst => exact congrArg some (h hst)

theorem exists_of_rel_some {R : σ → τ → Prop} {s : σ} {y : Option τ}
    (h : Option.Rel R (some s) y) : ∃ t, y = some t ∧ R s t := by
  cases h with
  | some hst => exact ⟨_, rfl, hst⟩

/-- **Deciding condition**: if allowed steps keep `I`, `I` gives `P`, and a
step that is not allowed loses `P`, then a run keeps `P` throughout exactly
when all its steps are allowed. -/
theorem along_iff_meets {I P : σ → Prop} {ok : σ → α → Prop}
    (hP : ∀ {s}, I s → P s)
    (hkeep : ∀ {s a t}, I s → ok s a → step s a = some t → I t)
    (hlose : ∀ {s a t}, I s → ¬ ok s a → step s a = some t → ¬ P t) :
    ∀ {as : List α} {s u : σ}, I s → exec step s as = some u →
      (Along step P s as ↔ Meets step ok s as) := by
  intro as
  induction as with
  | nil => exact fun hs _ => ⟨fun _ => trivial, fun _ => hP hs⟩
  | cons a as ih =>
    intro s u hs hu
    obtain ⟨t, ht, htu⟩ := exec_cons_eq_some.mp hu
    -- every other successor is this one, `step` being a function
    have huniq : ∀ t', step s a = some t' → t' = t := by
      intro t' ht'
      rw [ht, Option.some_inj] at ht'
      exact ht'.symm
    constructor
    · rintro ⟨_, hal⟩
      have hPt : P t := (hal t ht).head
      have hok : ok s a := by
        by_contra hno
        exact hlose hs hno ht hPt
      refine ⟨hok, fun t' ht' => ?_⟩
      rw [huniq t' ht']
      exact (ih (hkeep hs hok ht) htu).mp (hal t ht)
    · rintro ⟨hok, hm⟩
      refine ⟨hP hs, fun t' ht' => ?_⟩
      rw [huniq t' ht']
      exact (ih (hkeep hs hok ht) htu).mpr (hm t ht)

/-- A condition that does not depend on the state is met by every run. -/
theorem meets_of_forall {ok : σ → α → Prop} {as : List α} (h : ∀ a ∈ as, ∀ s, ok s a) (s : σ) :
    Meets step ok s as := by
  induction as generalizing s with
  | nil => exact trivial
  | cons a as ih =>
    exact ⟨h a List.mem_cons_self s, fun t _ => ih (fun b hb => h b (List.mem_cons_of_mem a hb)) t⟩

theorem meets_append {ok : σ → α → Prop} {as bs : List α} {s : σ} :
    Meets step ok s (as ++ bs) ↔
      Meets step ok s as ∧ ∀ t, exec step s as = some t → Meets step ok t bs := by
  induction as generalizing s with
  | nil => simp [Meets]
  | cons a as ih =>
    simp only [List.cons_append, Meets, ih, and_assoc]
    refine and_congr_right fun _ => ⟨fun h => ⟨fun t ht => (h t ht).1, ?_⟩, fun h t ht => ?_⟩
    · intro u hu
      obtain ⟨t, ht, htu⟩ := exec_cons_eq_some.mp hu
      exact (h t ht).2 u htu
    · exact ⟨h.1 t ht, fun u hu => h.2 u (exec_cons_eq_some.mpr ⟨t, ht, hu⟩)⟩

/-- A condition that follows from another wherever an invariant holds is met by
the runs that meet the other, where these keep the invariant. -/
theorem Meets.imp {I : σ → Prop} {ok ok' : σ → α → Prop}
    (hI : ∀ {s a t}, I s → ok s a → step s a = some t → I t)
    (h : ∀ {s a}, I s → ok s a → ok' s a) :
    ∀ {as : List α} {s : σ}, I s → Meets step ok s as → Meets step ok' s as := by
  intro as
  induction as with
  | nil => exact fun _ _ => trivial
  | cons a as ih =>
    intro s hs hm
    exact ⟨h hs hm.1, fun t ht => ih (hI hs hm.1 ht) (hm.2 t ht)⟩

/-- Two conditions that agree wherever an invariant holds are met by the same
runs. -/
theorem meets_congr {I : σ → Prop} {ok ok' : σ → α → Prop}
    (hI : ∀ {s a t}, I s → step s a = some t → I t)
    (h : ∀ {s a t}, I s → step s a = some t → (ok s a ↔ ok' s a)) :
    ∀ {as : List α} {s u : σ}, I s → exec step s as = some u →
      (Meets step ok s as ↔ Meets step ok' s as) := by
  intro as
  induction as with
  | nil => exact fun _ _ => Iff.rfl
  | cons a as ih =>
    intro s u hs hu
    obtain ⟨t, ht, htu⟩ := exec_cons_eq_some.mp hu
    refine and_congr (h hs ht) (forall₂_congr fun t' ht' => ?_)
    have htt : t' = t := by
      rw [ht, Option.some_inj] at ht'
      exact ht'.symm
    exact ih (hI hs ht') (htt ▸ htu)

/-- A run of one party's own actions leads from `s` to `t`. -/
def Reaches (step : σ → α → Option σ) (own : α → Prop) (s t : σ) : Prop :=
  ∃ as, (∀ a ∈ as, own a) ∧ exec step s as = some t

namespace Reaches

variable {own : α → Prop} {s t u : σ}

theorem refl (s : σ) : Reaches step own s s := ⟨[], fun _ h => absurd h List.not_mem_nil, rfl⟩

theorem trans (h : Reaches step own s t) (h' : Reaches step own t u) : Reaches step own s u := by
  obtain ⟨as, has, hs⟩ := h
  obtain ⟨bs, hbs, ht⟩ := h'
  refine ⟨as ++ bs, fun a ha => ?_, exec_append_eq_some.mpr ⟨t, hs, ht⟩⟩
  exact (List.mem_append.mp ha).elim (has a) (hbs a)

theorem single {a : α} (ha : own a) (h : step s a = some t) : Reaches step own s t := by
  refine ⟨[a], fun b hb => ?_, exec_cons_eq_some.mpr ⟨t, h, rfl⟩⟩
  rw [List.mem_singleton.mp hb]
  exact ha

/-- What the party's own actions cannot leave, it does not leave. -/
theorem invariant {I : σ → Prop} (hstep : ∀ {s a t}, own a → I s → step s a = some t → I t)
    (h : Reaches step own s t) (hs : I s) : I t := by
  obtain ⟨as, has, ht⟩ := h
  have hmeets : Meets step (fun _ a => own a) s as := meets_of_forall (fun a ha _ => has a ha) s
  exact exec_invariant_of_meets (fun hs ha ht => hstep ha hs ht) hs hmeets ht

/-- **Progress rule**: where a party that is not done can always take a step that
lowers a measure, it comes to be done on its own. -/
theorem of_measure {I done : σ → Prop} (μ : σ → ℕ)
    (hstep : ∀ s, I s → ¬ done s → ∃ a t, own a ∧ step s a = some t ∧ I t ∧ μ t < μ s) :
    ∀ s, I s → ∃ t, Reaches step own s t ∧ I t ∧ done t := by
  suffices h : ∀ n s, μ s = n → I s → ∃ t, Reaches step own s t ∧ I t ∧ done t from
    fun s hs => h (μ s) s rfl hs
  intro n
  induction n using Nat.strongRecOn with
  | ind n ih =>
    intro s hn hs
    by_cases hdone : done s
    · exact ⟨s, refl s, hs, hdone⟩
    · obtain ⟨a, t, ha, ht, hI, hlt⟩ := hstep s hs hdone
      obtain ⟨u, hu, hIu, hdoneu⟩ := ih (μ t) (hn ▸ hlt) t rfl hI
      exact ⟨u, (single ha ht).trans hu, hIu, hdoneu⟩

end Reaches

end Run
