/-
Numbers printed in a base of at most 16, padded with zeros or not.

* `value_toDigits` — the digits can be read back;
* `padStart_toDigits_inj` — so a padded numeral, of whatever length, names one
  number;
* `exists_zeros_append` — a text of digits is a padded numeral;
* `notMem_toDigits`, `append_separator_inj` — a character that is no digit
  separates numerals;
* `span_append` — what is read up to a character that ends it;
* `intRepr_inj`, `notMem_intRepr` — the same for integers with a sign.
-/
import Mathlib.Data.Int.Init
import Mathlib.Data.List.Basic
import Mathlib.Data.List.Induction
import Mathlib.Tactic.IntervalCases

namespace Numeral

variable {b n : ℕ}

def digitVal (c : Char) : ℕ := if c.isDigit then c.toNat - 48 else c.toNat - 87

theorem digitVal_digitChar {d : ℕ} (h : d < 16) : digitVal d.digitChar = d := by
  interval_cases d <;> rfl

/-- The number a text of digits stands for. -/
def value (b : ℕ) (l : List Char) : ℕ := l.foldl (fun n c => b * n + digitVal c) 0

theorem value_concat (b : ℕ) (l : List Char) (c : Char) :
    value b (l ++ [c]) = b * value b l + digitVal c := by
  rw [value, List.foldl_append]
  rfl

theorem value_toDigits (hb : 1 < b) (hb' : b ≤ 16) (n : ℕ) : value b (Nat.toDigits b n) = n := by
  induction n using Nat.strongRecOn with
  | ind n ih =>
    have hmod : n % b < 16 := (Nat.mod_lt n (by omega)).trans_le hb'
    rw [Nat.toDigits_eq_if hb]
    split
    · rename_i hlt
      show b * 0 + digitVal n.digitChar = n
      rw [digitVal_digitChar (hlt.trans_le hb'), Nat.mul_zero, Nat.zero_add]
    · rename_i hle
      have hdiv : n / b < n := Nat.div_lt_self (by omega) hb
      rw [value_concat, ih _ hdiv, digitVal_digitChar hmod]
      exact Nat.div_add_mod n b

def padStart (w : ℕ) (l : List Char) : List Char := List.replicate (w - l.length) '0' ++ l

theorem value_zeros_append (b k : ℕ) (l : List Char) :
    value b (List.replicate k '0' ++ l) = value b l := by
  induction k with
  | zero => rfl
  | succ k ih =>
    have hzero : b * 0 + digitVal '0' = 0 := by rw [Nat.mul_zero]; rfl
    rw [← ih, value, List.replicate_succ, List.cons_append, List.foldl_cons, hzero]
    rfl

theorem value_padStart (b w : ℕ) (l : List Char) : value b (padStart w l) = value b l :=
  value_zeros_append b (w - l.length) l

theorem toDigits_inj (hb : 1 < b) (hb' : b ≤ 16) {m n : ℕ} :
    Nat.toDigits b m = Nat.toDigits b n ↔ m = n := by
  refine ⟨fun h => ?_, fun h => h ▸ rfl⟩
  rw [← value_toDigits hb hb' m, h, value_toDigits hb hb' n]

theorem padStart_toDigits_inj (hb : 1 < b) (hb' : b ≤ 16) {w m n : ℕ} :
    padStart w (Nat.toDigits b m) = padStart w (Nat.toDigits b n) ↔ m = n := by
  refine ⟨fun h => ?_, fun h => h ▸ rfl⟩
  have hval := congrArg (value b) h
  rwa [value_padStart, value_padStart, value_toDigits hb hb', value_toDigits hb hb'] at hval

/-! ### Digits -/

theorem digitChar_digitVal {c : Char} (h : c.isDigit = true) :
    (digitVal c).digitChar = c ∧ digitVal c < 10 := by
  obtain ⟨hle, hle'⟩ : 48 ≤ c.toNat ∧ c.toNat ≤ 57 := Char.isDigit_iff_toNat.mp h
  rw [digitVal, if_pos h, ← Char.ofNat_toNat c]
  generalize c.toNat = n at hle hle'
  interval_cases n <;> decide

theorem eq_zeros_of_value {l : List Char} (hd : ∀ c ∈ l, c.isDigit = true)
    (hzero : value 10 l = 0) : l = List.replicate l.length '0' := by
  induction l using List.reverseRecOn with
  | nil => rfl
  | append_singleton l c ih =>
    obtain ⟨hchar, -⟩ := digitChar_digitVal (hd c (by simp))
    have hd' : ∀ c ∈ l, c.isDigit = true := fun c hc => hd c (List.mem_append_left _ hc)
    rw [value_concat] at hzero
    have hc : c = '0' := by
      rw [← hchar, show digitVal c = 0 by omega]
      rfl
    rw [List.length_append, List.length_singleton, List.replicate_succ', ← ih hd' (by omega), hc]

/-- A text of digits is a numeral with zeros before it. -/
theorem exists_zeros_append {l : List Char} (hd : ∀ c ∈ l, c.isDigit = true)
    (hpos : 0 < value 10 l) : ∃ k, l = List.replicate k '0' ++ Nat.toDigits 10 (value 10 l) := by
  induction l using List.reverseRecOn with
  | nil => exact absurd hpos (by decide)
  | append_singleton l c ih =>
    have hd' : ∀ c ∈ l, c.isDigit = true := fun c hc => hd c (List.mem_append_left _ hc)
    obtain ⟨hchar, hlt⟩ := digitChar_digitVal (hd c (by simp))
    rw [value_concat] at hpos ⊢
    rw [Nat.toDigits_eq_if (by decide)]
    by_cases hzero : value 10 l = 0
    · refine ⟨l.length, ?_⟩
      rw [if_pos (by omega), hzero, Nat.mul_zero, Nat.zero_add, hchar,
        ← eq_zeros_of_value hd' hzero]
    · obtain ⟨k, hk⟩ := ih hd' (Nat.pos_of_ne_zero hzero)
      have hdiv : (10 * value 10 l + digitVal c) / 10 = value 10 l := by omega
      have hmod : (10 * value 10 l + digitVal c) % 10 = digitVal c := by omega
      refine ⟨k, ?_⟩
      rw [if_neg (by omega), hdiv, hmod, hchar, ← List.append_assoc, ← hk]

/-! ### Separators -/

/-- The character is no digit of any base. -/
def Separates (c : Char) : Prop := ∀ d : ℕ, d.digitChar ≠ c

theorem notMem_toDigits {c : Char} (hc : Separates c) (hb : 1 < b) (n : ℕ) :
    c ∉ Nat.toDigits b n := by
  induction n using Nat.strongRecOn with
  | ind n ih =>
    rw [Nat.toDigits_eq_if hb]
    split
    · intro hmem
      exact hc n (List.mem_singleton.mp hmem).symm
    · intro hmem
      have hdiv : n / b < n := Nat.div_lt_self (by omega) hb
      rcases List.mem_append.mp hmem with hmem | hmem
      · exact ih _ hdiv hmem
      · exact hc _ (List.mem_singleton.mp hmem).symm

theorem notMem_padStart {c : Char} (hc : Separates c) (hb : 1 < b) (w n : ℕ) :
    c ∉ padStart w (Nat.toDigits b n) := by
  intro hmem
  rcases List.mem_append.mp hmem with hmem | hmem
  · exact hc 0 (List.eq_of_mem_replicate hmem).symm
  · exact notMem_toDigits hc hb n hmem

/-- Texts that end at the first separator are read off a longer text. -/
theorem append_separator_inj {c : Char} {l l' r r' : List Char} (hl : c ∉ l) (hl' : c ∉ l') :
    l ++ c :: r = l' ++ c :: r' ↔ l = l' ∧ r = r' := by
  refine ⟨fun h => ?_, fun h => by rw [h.1, h.2]⟩
  induction l generalizing l' with
  | nil =>
    cases l' with
    | nil => exact ⟨rfl, (List.cons.inj h).2⟩
    | cons a l' => exact absurd (List.cons.inj h).1 fun heq => hl' (heq ▸ List.mem_cons_self)
  | cons a l ih =>
    cases l' with
    | nil => exact absurd (List.cons.inj h).1 fun heq => hl (heq ▸ List.mem_cons_self)
    | cons a' l' =>
      obtain ⟨ha, hrest⟩ := List.cons.inj h
      obtain ⟨htail, hr⟩ := ih (fun hc => hl (List.mem_cons_of_mem a hc))
        (fun hc => hl' (List.mem_cons_of_mem a' hc)) hrest
      exact ⟨by rw [ha, htail], hr⟩

/-- A part of a text is read up to the first character that ends it. -/
theorem span_append {p : Char → Bool} {l r : List Char} (hl : ∀ c ∈ l, p c = true)
    (hr : ∀ c ∈ r.head?, p c = false) :
    (l ++ r).takeWhile p = l ∧ (l ++ r).dropWhile p = r := by
  rw [List.takeWhile_append_of_pos hl, List.dropWhile_append_of_pos hl]
  cases r with
  | nil => exact ⟨List.append_nil l, rfl⟩
  | cons c r =>
    have hc := hr c rfl
    rw [List.takeWhile_cons_of_neg (by simp [hc]), List.dropWhile_cons_of_neg (by simp [hc])]
    exact ⟨List.append_nil l, rfl⟩

theorem separates_minus : Separates '-' := fun d => by simp

/-! ### Integers -/

theorem toList_intRepr (a : ℤ) :
    a.repr.toList
      = if 0 ≤ a then Nat.toDigits 10 a.toNat else '-' :: Nat.toDigits 10 (-a).toNat := by
  rw [Int.repr_eq_if]
  split
  · exact Nat.toList_repr
  · rw [String.toList_append, Nat.toList_repr]
    rfl

theorem intRepr_inj {a b : ℤ} : a.repr = b.repr ↔ a = b := by
  refine ⟨fun h => ?_, fun h => h ▸ rfl⟩
  have hminus (n : ℕ) (l : List Char) : Nat.toDigits 10 n ≠ '-' :: l := by
    intro heq
    exact notMem_toDigits separates_minus (by decide : 1 < 10) n (heq ▸ List.mem_cons_self)
  have hlist := congrArg String.toList h
  rw [toList_intRepr, toList_intRepr] at hlist
  split at hlist <;> split at hlist
  · have hnat := (toDigits_inj (by decide) (by decide)).mp hlist
    omega
  · exact absurd hlist (hminus _ _)
  · exact absurd hlist.symm (hminus _ _)
  · have hnat := (toDigits_inj (by decide) (by decide)).mp (List.cons.inj hlist).2
    omega

theorem notMem_intRepr {c : Char} (hc : Separates c) (hminus : c ≠ '-') (a : ℤ) :
    c ∉ a.repr.toList := by
  rw [toList_intRepr]
  split
  · exact notMem_toDigits hc (by decide) _
  · intro hmem
    rcases List.mem_cons.mp hmem with rfl | hmem
    · exact hminus rfl
    · exact notMem_toDigits hc (by decide) _ hmem

end Numeral
