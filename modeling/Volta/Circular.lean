/-
Circular stores.

`cells` is a fixed list of slots; item number `i` of a growing history goes to
slot `i % cells.length`, over what the slot held before.

* `Holds cells xs` — the last `cells.length` items of the history `xs` are in
  their slots;
* `Holds.push` — writing the next item keeps it;
* `Holds.readFrom_eq` — reading the slots of the items `a, a+1, …` in turn
  gives the history from item `a` on, as long as `a` is not overwritten yet.
-/
import Mathlib.Data.List.Basic
import Mathlib.Data.List.GetD
import Mathlib.Data.Nat.Basic

namespace Circular

variable {α : Type*} {cells xs : List α}

/-- The slots of the last `cells.length` items of `xs` hold these items. -/
def Holds (cells xs : List α) : Prop :=
  ∀ i, i < xs.length → xs.length ≤ i + cells.length → cells[i % cells.length]? = xs[i]?

/-- The items number `a, …, b - 1`, each read from its slot. -/
def readFrom (d : α) (cells : List α) (a b : ℕ) : List α :=
  (List.range' a (b - a)).map fun i => cells.getD (i % cells.length) d

theorem holds_nil (cells : List α) : Holds cells [] := by
  intro i hi
  exact absurd hi (Nat.not_lt_zero i)

/-- Two items less than one turn apart do not share a slot. -/
theorem mod_ne_mod {n i j : ℕ} (hij : i < j) (hj : j < i + n) : i % n ≠ j % n := by
  intro h
  have hdvd : n ∣ j - i := Nat.dvd_of_mod_eq_zero (Nat.sub_mod_eq_zero_of_mod_eq h.symm)
  have hle : n ≤ j - i := Nat.le_of_dvd (by omega) hdvd
  omega

theorem Holds.push (h : Holds cells xs) (hc : 0 < cells.length) (x : α) :
    Holds (cells.set (xs.length % cells.length) x) (xs ++ [x]) := by
  intro i hi hlast
  simp only [List.length_set, List.length_append, List.length_singleton] at hi hlast ⊢
  rcases Nat.lt_succ_iff_lt_or_eq.mp hi with hlt | rfl
  · -- an older item: its slot is not the one just written
    have hne : xs.length % cells.length ≠ i % cells.length :=
      (mod_ne_mod hlt (by omega)).symm
    rw [List.getElem?_set_ne hne, List.getElem?_append_left hlt]
    exact h i hlt (by omega)
  · rw [List.getElem?_set_self (Nat.mod_lt _ hc), List.getElem?_concat_length]

theorem readFrom_length (d : α) (cells : List α) (a b : ℕ) :
    (readFrom d cells a b).length = b - a := by
  simp [readFrom]

theorem Holds.getD_eq (h : Holds cells xs) (d : α) {i : ℕ} (hi : i < xs.length)
    (hlast : xs.length ≤ i + cells.length) : cells.getD (i % cells.length) d = xs[i] := by
  rw [List.getD_eq_getElem?_getD, h i hi hlast, List.getElem?_eq_getElem hi, Option.getD_some]

theorem Holds.readFrom_eq (h : Holds cells xs) (d : α) {a : ℕ}
    (hlast : xs.length ≤ a + cells.length) :
    readFrom d cells a xs.length = xs.drop a := by
  apply List.ext_getElem
  · rw [readFrom_length, List.length_drop]
  · intro i h1 h2
    rw [List.length_drop] at h2
    simp only [readFrom, List.getElem_map, List.getElem_range', Nat.one_mul, List.getElem_drop]
    have hi : a + i < xs.length := by omega
    exact h.getD_eq d hi (by omega)

end Circular
