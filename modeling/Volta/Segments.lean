/-
Segments of a list, given by the index of their first item and the index after
their last.

* `flatMap_sublist` — segments that follow one another without overlap are, one
  after the other, a sublist;
* `flatMap_eq_take` — if no index before them is left out, they are the
  beginning of the list.
-/
import Mathlib.Data.List.Basic
import Mathlib.Data.List.Induction
import Mathlib.Order.Nat

namespace Segments

variable {α : Type*} {xs : List α} {l : List (ℕ × ℕ)}

/-- The items number `p.1, …, p.2 - 1`. -/
def segment (xs : List α) (p : ℕ × ℕ) : List α := (xs.take p.2).drop p.1

theorem segment_append_drop {p : ℕ × ℕ} (hle : p.1 ≤ p.2) (hlen : p.2 ≤ xs.length) :
    segment xs p ++ xs.drop p.2 = xs.drop p.1 := by
  have hp : p.1 ≤ (xs.take p.2).length := by
    rw [List.length_take]
    omega
  rw [segment, ← List.drop_append_of_le_length hp, List.take_append_drop]

theorem take_append_segment {p : ℕ × ℕ} (hle : p.1 ≤ p.2) :
    xs.take p.1 ++ segment xs p = xs.take p.2 := by
  have htake : xs.take p.1 = (xs.take p.2).take p.1 := by
    rw [List.take_take, Nat.min_eq_left hle]
  rw [segment, htake, List.take_append_drop]

/-- Each segment ends where the next begins, or before. -/
abbrev InOrder (l : List (ℕ × ℕ)) : Prop := l.Pairwise fun p q => p.2 ≤ q.1

theorem flatMap_sublist_drop (hle : ∀ p ∈ l, p.1 ≤ p.2) (hlen : ∀ p ∈ l, p.2 ≤ xs.length)
    (hord : InOrder l) {c : ℕ} (hc : ∀ p ∈ l, c ≤ p.1) :
    (l.flatMap (segment xs)).Sublist (xs.drop c) := by
  induction l generalizing c with
  | nil => exact List.nil_sublist _
  | cons p l ih =>
    obtain ⟨hp, hord⟩ := List.pairwise_cons.mp hord
    have hrest : (l.flatMap (segment xs)).Sublist (xs.drop p.2) :=
      ih (fun q hq => hle q (List.mem_cons_of_mem p hq))
        (fun q hq => hlen q (List.mem_cons_of_mem p hq)) hord hp
    have hhead : segment xs p ++ xs.drop p.2 = xs.drop p.1 :=
      segment_append_drop (hle p List.mem_cons_self) (hlen p List.mem_cons_self)
    have hskip : (xs.drop p.1).Sublist (xs.drop c) :=
      List.drop_sublist_drop_left xs (hc p List.mem_cons_self)
    rw [List.flatMap_cons]
    exact ((List.Sublist.refl _).append hrest).trans (hhead ▸ hskip)

theorem flatMap_sublist (hle : ∀ p ∈ l, p.1 ≤ p.2) (hlen : ∀ p ∈ l, p.2 ≤ xs.length)
    (hord : InOrder l) : (l.flatMap (segment xs)).Sublist xs :=
  flatMap_sublist_drop hle hlen hord (c := 0) fun p _ => Nat.zero_le p.1

/-- The index lies in one of the segments. -/
def Covers (l : List (ℕ × ℕ)) (i : ℕ) : Prop := ∃ p ∈ l, p.1 ≤ i ∧ i < p.2

variable (xs) in
/-- The end of the last segment is the length of what they cover. -/
theorem flatMap_eq_take (hle : ∀ p ∈ l, p.1 ≤ p.2) (hord : InOrder l)
    (hcov : ∀ p ∈ l, ∀ i < p.1, Covers l i) :
    ∃ n, l.flatMap (segment xs) = xs.take n ∧ (∀ p ∈ l, p.2 ≤ n) ∧ ∀ i < n, Covers l i := by
  induction l using List.reverseRecOn with
  | nil => exact ⟨0, List.take_zero.symm, nofun, nofun⟩
  | append_singleton l p ih =>
    obtain ⟨hord', -, hlast⟩ := List.pairwise_append.mp hord
    have hlast : ∀ q ∈ l, q.2 ≤ p.1 := fun q hq => hlast q hq p (List.mem_singleton_self p)
    have hle' : ∀ q ∈ l, q.1 ≤ q.2 := fun q hq => hle q (List.mem_append_left _ hq)
    -- what lies before a segment of `l` is not in the last one
    have hcov' : ∀ q ∈ l, ∀ i < q.1, Covers l i := by
      intro q hq i hi
      obtain ⟨r, hr, hri, hir⟩ := hcov q (List.mem_append_left _ hq) i hi
      rcases List.mem_append.mp hr with hr | hr
      · exact ⟨r, hr, hri, hir⟩
      · rw [List.mem_singleton.mp hr] at hri
        have hq1 := hle' q hq
        have hq2 := hlast q hq
        omega
    obtain ⟨n, hn, hends, hupto⟩ := ih hle' hord' hcov'
    have hp : p ∈ l ++ [p] := List.mem_concat_self
    have hpn : p.1 = n := by
      rcases Nat.lt_trichotomy p.1 n with hlt | heq | hgt
      · obtain ⟨q, hq, -, hqi⟩ := hupto p.1 hlt
        have hq2 := hlast q hq
        omega
      · exact heq
      · obtain ⟨q, hq, hqn, hnq⟩ := hcov p hp n hgt
        rcases List.mem_append.mp hq with hq | hq
        · have hq2 := hends q hq
          omega
        · rw [List.mem_singleton.mp hq] at hqn
          omega
    have hpe := hle p hp
    refine ⟨p.2, ?_, fun q hq => ?_, fun i hi => ?_⟩
    · rw [List.flatMap_append, hn, List.flatMap_singleton, ← hpn, take_append_segment hpe]
    · rcases List.mem_append.mp hq with hq | hq
      · exact (hlast q hq).trans hpe
      · exact (List.mem_singleton.mp hq) ▸ Nat.le_refl q.2
    · by_cases hin : i < p.1
      · exact hcov p hp i hin
      · exact ⟨p, hp, Nat.le_of_not_lt hin, hi⟩

end Segments
