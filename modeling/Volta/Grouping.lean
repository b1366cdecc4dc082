/-
Grouping a list by a key.

* `keys` — the keys that occur, in order of first appearance;
* `group` — the items of one key, in order;
* `keys_concat`, `group_concat` — what one more item does to them;
* `perm_flatMap_group` — the groups together have each item once.
-/
import Mathlib.Data.List.Perm.Basic

namespace Grouping

variable {α κ : Type*} [DecidableEq κ] (keyOf : α → κ)

/-- The keys of the items, each where it appears first. -/
def keys (xs : List α) : List κ := (xs.map keyOf).eraseDups

def group (key : κ) (xs : List α) : List α := xs.filter fun x => keyOf x = key

variable {keyOf} {xs : List α} {key : κ}

theorem mem_keys : key ∈ keys keyOf xs ↔ ∃ x ∈ xs, keyOf x = key := by
  rw [keys, List.mem_eraseDups, List.mem_map]

theorem mem_group {x : α} : x ∈ group keyOf key xs ↔ x ∈ xs ∧ keyOf x = key := by
  rw [group, List.mem_filter, decide_eq_true_iff]

theorem keys_concat (xs : List α) (x : α) :
    keys keyOf (xs ++ [x])
      = if keyOf x ∈ keys keyOf xs then keys keyOf xs else keys keyOf xs ++ [keyOf x] := by
  rw [keys, List.map_append, List.eraseDups_append, ← keys, List.map_singleton]
  by_cases h : keyOf x ∈ xs.map keyOf
  · rw [if_pos (by rwa [keys, List.mem_eraseDups]), List.removeAll,
      List.filter_cons_of_neg (by simpa using h)]
    exact List.append_nil _
  · rw [if_neg (by rwa [keys, List.mem_eraseDups]), List.removeAll,
      List.filter_cons_of_pos (by simpa using h)]
    rfl

theorem group_concat (key : κ) (xs : List α) (x : α) :
    group keyOf key (xs ++ [x])
      = if keyOf x = key then group keyOf key xs ++ [x] else group keyOf key xs := by
  rw [group, List.filter_append, ← group, List.filter_singleton]
  by_cases h : keyOf x = key
  · rw [if_pos h, decide_eq_true h]
    rfl
  · rw [if_neg h, decide_eq_false h]
    exact List.append_nil _

theorem group_ne_nil_iff : group keyOf key xs ≠ [] ↔ key ∈ keys keyOf xs := by
  rw [mem_keys]
  constructor
  · intro h
    obtain ⟨x, hx⟩ := List.exists_mem_of_ne_nil _ h
    exact ⟨x, mem_group.mp hx⟩
  · rintro ⟨x, hx⟩
    exact List.ne_nil_of_mem (mem_group.mpr hx)

theorem perm_flatMap_group {ks : List κ} (hks : ks.Nodup) (h : ∀ x ∈ xs, keyOf x ∈ ks) :
    (ks.flatMap fun key => group keyOf key xs).Perm xs := by
  induction ks generalizing xs with
  | nil =>
    have hnil : xs = [] := List.eq_nil_iff_forall_not_mem.mpr fun x hx => by simpa using h x hx
    rw [hnil]
    rfl
  | cons key ks ih =>
    obtain ⟨hkey, hks⟩ := List.nodup_cons.mp hks
    -- the other groups are those of the other items
    have hrest : ∀ k ∈ ks, group keyOf k xs
        = group keyOf k (xs.filter fun x => !decide (keyOf x = key)) := by
      intro k hk
      rw [group, group, List.filter_filter]
      refine List.filter_congr fun x _ => ?_
      by_cases hx : keyOf x = k
      · have hne : keyOf x ≠ key := fun heq => hkey (heq ▸ hx ▸ hk)
        simp [hx, hx ▸ hne]
      · simp [hx]
    have hmem : ∀ x ∈ xs.filter fun x => !decide (keyOf x = key), keyOf x ∈ ks := by
      intro x hx
      obtain ⟨hx, hne⟩ := List.mem_filter.mp hx
      exact (List.mem_cons.mp (h x hx)).resolve_left (by simpa using hne)
    rw [List.flatMap_cons, List.flatMap_congr hrest]
    exact ((ih hks hmem).append_left _).trans (List.filter_append_perm _ xs)

end Grouping
