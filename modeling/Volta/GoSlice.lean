/-
A slice variable of Go, with the backing arrays it has had.

Copying a slice copies only its header: which array, and how many elements.
The copy keeps reading the array, so it sees what the variable does in place.

* `append` writes the next free slot of the array, or moves to a new array;
* `removeAt` is `append(s[:i], s[i+1:]...)`: it shifts the array in place and
  leaves the last slot as it was;
* `window_append`, `window_removeAt_of_gen`, `window_eq` — what a copied header
  sees after either.
-/
import Mathlib.Data.List.Basic
import Mathlib.Logic.Function.Basic

/-- `cells g i` is element `i` of the `g`-th backing array, the zero value
where nothing was written.  The variable is the header of array `gen`. -/
structure GoSlice (α : Type*) where
  cells : ℕ → ℕ → α
  gen : ℕ
  len : ℕ
  cap : ℕ
  len_le : len ≤ cap

namespace GoSlice

variable {α : Type*}

/-- The nil slice. -/
def nil [Inhabited α] : GoSlice α where
  cells _ _ := default
  gen := 0
  len := 0
  cap := 0
  len_le := Nat.le_refl 0

/-- The elements that a header of array `gen` with length `len` reads from
index `next` on. -/
def window (s : GoSlice α) (gen next len : ℕ) : List α :=
  (List.range' next (len - next)).map (s.cells gen)

/-- The elements of the variable. -/
def contents (s : GoSlice α) : List α := s.window s.gen 0 s.len

/-- A new array has room for `spare` more elements than it needs to. -/
def append [Inhabited α] (s : GoSlice α) (x : α) (spare : ℕ) : GoSlice α :=
  if h : s.len < s.cap then
    { s with
      cells := Function.update s.cells s.gen (Function.update (s.cells s.gen) s.len x)
      len := s.len + 1
      len_le := h }
  else
    { cells := Function.update s.cells (s.gen + 1) fun k =>
        if k < s.len then s.cells s.gen k else if k = s.len then x else default
      gen := s.gen + 1
      len := s.len + 1
      cap := s.len + 1 + spare
      len_le := Nat.le_add_right _ _ }

def removeAt (s : GoSlice α) (i : ℕ) : GoSlice α :=
  { s with
    cells := Function.update s.cells s.gen fun k =>
      if i ≤ k ∧ k + 1 < s.len then s.cells s.gen (k + 1) else s.cells s.gen k
    len := s.len - 1
    len_le := Nat.le_trans (Nat.sub_le _ _) s.len_le }

/-! ### What a header reads -/

theorem window_eq_nil (s : GoSlice α) {gen next len : ℕ} (h : len ≤ next) :
    s.window gen next len = [] := by
  rw [window, Nat.sub_eq_zero_of_le h]
  rfl

theorem window_cons (s : GoSlice α) {gen next len : ℕ} (h : next < len) :
    s.window gen next len = s.cells gen next :: s.window gen (next + 1) len := by
  obtain ⟨n, hn⟩ : ∃ n, len - next = n + 1 := ⟨len - next - 1, by omega⟩
  have hn' : len - (next + 1) = n := by omega
  rw [window, window, hn, hn']
  rfl

@[simp] theorem length_contents (s : GoSlice α) : s.contents.length = s.len := by
  simp [contents, window]

theorem getElem_contents (s : GoSlice α) {i : ℕ} (h : i < s.contents.length) :
    s.contents[i] = s.cells s.gen i := by
  simp [contents, window]

/-- A header of the variable's own array that is not longer than the variable
reads the variable's elements. -/
theorem window_eq (s : GoSlice α) {next len : ℕ} (h : len ≤ s.len) :
    s.window s.gen next len = (s.contents.take len).drop next := by
  refine List.ext_getElem ?_ fun k hk hk' => ?_
  · simp [window, h]
  · simp [window, getElem_contents]

/-! ### Appending -/

section
variable [Inhabited α]

theorem append_gen_le (s : GoSlice α) (x : α) (spare : ℕ) : s.gen ≤ (s.append x spare).gen := by
  rw [append]
  split
  · exact Nat.le_refl _
  · exact Nat.le_succ _

theorem append_len (s : GoSlice α) (x : α) (spare : ℕ) : (s.append x spare).len = s.len + 1 := by
  rw [append]
  split <;> rfl

theorem contents_append (s : GoSlice α) (x : α) (spare : ℕ) :
    (s.append x spare).contents = s.contents ++ [x] := by
  have hcells : ∀ k, k < s.len + 1 → (s.append x spare).cells (s.append x spare).gen k
      = if k < s.len then s.cells s.gen k else x := by
    intro k hk
    rw [append]
    split
    · by_cases h : k = s.len
      · simp [h]
      · simp [h, show k < s.len by omega]
    · by_cases h : k < s.len
      · simp [h]
      · simp [show k = s.len by omega]
  refine List.ext_getElem ?_ fun k hk hk' => ?_
  · simp [append_len]
  · rw [length_contents, append_len] at hk
    rw [getElem_contents, hcells k hk]
    by_cases h : k < s.len
    · rw [if_pos h, List.getElem_append_left (by rwa [length_contents]), getElem_contents]
    · rw [if_neg h, List.getElem_append_right (by rw [length_contents]; omega)]
      simp

/-- A header that reads below the end of the variable does not see an append. -/
theorem window_append (s : GoSlice α) (x : α) (spare : ℕ) {gen next len : ℕ}
    (hgen : gen ≤ s.gen) (hlen : gen = s.gen → next < len → len ≤ s.len) :
    (s.append x spare).window gen next len = s.window gen next len := by
  refine List.map_congr_left fun k hk => ?_
  rw [List.mem_range'_1] at hk
  rw [append]
  split
  · by_cases hg : gen = s.gen
    · have hle := hlen hg (by omega)
      have hk' : k ≠ s.len := by omega
      simp [hg, hk']
    · simp [hg]
  · have hg : gen ≠ s.gen + 1 := by omega
    simp [hg]

end

/-! ### Removing -/

theorem contents_removeAt (s : GoSlice α) {i : ℕ} (h : i < s.len) :
    (s.removeAt i).contents = s.contents.eraseIdx i := by
  refine List.ext_getElem ?_ fun k hk hk' => ?_
  · rw [length_contents, List.length_eraseIdx_of_lt (by rwa [length_contents]), length_contents]
    rfl
  · rw [length_contents] at hk
    have hk1 : k + 1 < s.len := by
      have hk0 : k < s.len - 1 := hk
      omega
    rw [getElem_contents, List.getElem_eraseIdx]
    simp only [getElem_contents, removeAt, Function.update_self]
    by_cases hik : i ≤ k
    · rw [if_pos ⟨hik, hk1⟩, dif_neg (by omega)]
    · rw [if_neg (by omega), dif_pos (by omega)]

/-- A header of an older array does not see a removal. -/
theorem window_removeAt_of_gen (s : GoSlice α) (i : ℕ) {gen : ℕ} (hgen : gen ≠ s.gen)
    (next len : ℕ) : (s.removeAt i).window gen next len = s.window gen next len := by
  refine List.map_congr_left fun k _ => ?_
  simp only [removeAt]
  rw [Function.update_of_ne hgen]

end GoSlice
