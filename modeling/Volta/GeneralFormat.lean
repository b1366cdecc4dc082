/-
Numbers as a C++ stream prints a `double` by default: the general format with
six significant digits.

* `generalFormat` — the text;
* `read_generalFormat` — it denotes the number rounded to six digits;
* `generalFormat_intCast` — an integer of at most six digits is printed as it is;
* `exists_generalFormat_eq` — every larger integer that a `double` can hold has
  another one that is printed the same.
-/
import Volta.Numeral
import Mathlib.Data.Int.Log
import Mathlib.Data.List.DropRight
import Mathlib.Data.Rat.Floor
import Mathlib.Tactic.FieldSimp
import Mathlib.Tactic.Linarith
import Mathlib.Tactic.NormNum
import Mathlib.Tactic.Positivity
import Mathlib.Tactic.Ring

namespace GeneralFormat

open Numeral (padStart)

/-- The nearest integer, the even one of two. -/
def roundHalfEven (q : ℚ) : ℕ :=
  let n := ⌊q⌋₊
  if q - n < 1 / 2 then n else if 1 / 2 < q - n then n + 1 else n + n % 2

/-- A seventh digit that comes of rounding up. -/
def carry (n : ℕ) (e : ℤ) : ℕ × ℤ := if n = 10 ^ 6 then (10 ^ 5, e + 1) else (n, e)

/-- The six significant digits of a positive number, as an integer, and the
exponent of the first one. -/
def sixDigits (q : ℚ) : ℕ × ℤ :=
  let e := Int.log 10 q
  carry (roundHalfEven (q / 10 ^ (e - 5))) e

/-- `n / 10 ^ p`, without zeros at the end of its decimals. -/
def decimal (n p : ℕ) : List Char :=
  let frac := (padStart p (Nat.toDigits 10 (n % 10 ^ p))).rdropWhile fun c => c = '0'
  Nat.toDigits 10 (n / 10 ^ p) ++ if frac = [] then [] else '.' :: frac

/-- An exponent has a sign and two digits or more. -/
def exponent (e : ℤ) : List Char :=
  'e' :: (if e < 0 then '-' else '+') :: padStart 2 (Nat.toDigits 10 e.natAbs)

/-- `%g` for a positive number. -/
def unsignedFormat (q : ℚ) : List Char :=
  let (n, e) := sixDigits q
  if -4 ≤ e ∧ e < 6 then decimal n (5 - e).toNat else decimal n 5 ++ exponent e

def generalFormat (q : ℚ) : String :=
  if q = 0 then "0"
  else if q < 0 then String.ofList ('-' :: unsignedFormat (-q))
  else String.ofList (unsignedFormat q)

/-! ### Reading numbers -/

def readNat (l : List Char) : Option ℕ :=
  if l ≠ [] ∧ l.all Char.isDigit then some (Nat.ofDigitChars 10 l 0) else none

def readInt : List Char → Option ℤ
  | '-' :: l => (readNat l).map fun n : ℕ => -(n : ℤ)
  | l => (readNat l).map Int.ofNat

def readFixed (l : List Char) : Option ℚ :=
  match l.splitOn '.' with
  | [whole] => (readNat whole).map fun n : ℕ => (n : ℚ)
  | [whole, frac] => (readNat (whole ++ frac)).map fun n : ℕ => (n : ℚ) / 10 ^ frac.length
  | _ => none

def readExponent : List Char → Option ℤ
  | '-' :: l => (readNat l).map fun n : ℕ => -(n : ℤ)
  | '+' :: l => (readNat l).map Int.ofNat
  | _ => none

def readUnsigned (l : List Char) : Option ℚ :=
  match l.splitOn 'e' with
  | [m] => readFixed m
  | [m, x] => (readFixed m).bind fun q => (readExponent x).map fun e => q * 10 ^ e
  | _ => none

def read : List Char → Option ℚ
  | '-' :: l => (readUnsigned l).map fun q => -q
  | l => readUnsigned l

theorem readNat_of_digits {l : List Char} (hne : l ≠ []) (hl : ∀ c ∈ l, c.isDigit) :
    readNat l = some (Nat.ofDigitChars 10 l 0) :=
  if_pos ⟨hne, List.all_eq_true.mpr hl⟩

theorem isDigit_of_mem_toDigits {c : Char} {n : ℕ} (h : c ∈ Nat.toDigits 10 n) : c.isDigit :=
  Nat.isDigit_of_mem_toDigits (by decide) (by decide) h

theorem readNat_toDigits (n : ℕ) : readNat (Nat.toDigits 10 n) = some n := by
  rw [readNat_of_digits Nat.toDigits_ne_nil fun c => isDigit_of_mem_toDigits,
    Nat.ofDigitChars_ten_toDigits]

theorem isDigit_of_mem_padStart {c : Char} {w n : ℕ} (h : c ∈ padStart w (Nat.toDigits 10 n)) :
    c.isDigit := by
  rcases List.mem_append.mp h with h | h
  · rw [List.eq_of_mem_replicate h]
    rfl
  · exact isDigit_of_mem_toDigits h

theorem ofDigitChars_padStart (w n : ℕ) :
    Nat.ofDigitChars 10 (padStart w (Nat.toDigits 10 n)) 0 = n := by
  rw [padStart, Nat.ofDigitChars_append, Nat.ofDigitChars_replicate_zero, Nat.mul_zero,
    Nat.ofDigitChars_ten_toDigits]

theorem readNat_padStart (w n : ℕ) : readNat (padStart w (Nat.toDigits 10 n)) = some n := by
  have hne : padStart w (Nat.toDigits 10 n) ≠ [] :=
    List.append_ne_nil_of_right_ne_nil _ Nat.toDigits_ne_nil
  rw [readNat_of_digits hne fun c => isDigit_of_mem_padStart, ofDigitChars_padStart]

/-- A text of digits has no sign. -/
theorem readInt_of_digits {l : List Char} (hl : ∀ c ∈ l, c.isDigit) :
    readInt l = (readNat l).map Int.ofNat := by
  rw [readInt]
  intro l' heq
  exact absurd (hl '-' (heq ▸ List.mem_cons_self)) (by decide)

theorem readInt_repr (a : ℤ) : readInt a.repr.toList = some a := by
  rw [Numeral.toList_intRepr]
  split
  · rename_i hnonneg
    rw [readInt_of_digits fun c => isDigit_of_mem_toDigits, readNat_toDigits]
    exact congrArg some (Int.toNat_of_nonneg hnonneg)
  · rename_i hneg
    rw [readInt, readNat_toDigits]
    refine congrArg some ?_
    show -((-a).toNat : ℤ) = a
    omega

theorem length_padStart {p m : ℕ} (hp : 0 < p) (hm : m < 10 ^ p) :
    (padStart p (Nat.toDigits 10 m)).length = p := by
  have hle := (Nat.length_toDigits_le_iff (by decide) hp).mpr hm
  rw [padStart, List.length_append, List.length_replicate]
  omega

/-- Zeros at the end of the decimals change nothing. -/
theorem ofDigitChars_rdropWhile (l : List Char) :
    Nat.ofDigitChars 10 l 0
      = 10 ^ (l.length - (l.rdropWhile fun c => c = '0').length)
        * Nat.ofDigitChars 10 (l.rdropWhile fun c => c = '0') 0 := by
  set zeros := l.rtakeWhile fun c => c = '0'
  have hzeros : zeros = List.replicate zeros.length '0' := by
    refine List.eq_replicate_iff.mpr ⟨rfl, fun c hc => ?_⟩
    exact of_decide_eq_true (List.mem_rtakeWhile_imp (p := fun c => decide (c = '0')) hc)
  have hsplit : (l.rdropWhile fun c => c = '0') ++ zeros = l := List.rdropWhile_append_rtakeWhile
  have hlength : l.length - (l.rdropWhile fun c => c = '0').length = zeros.length := by
    have hsum := congrArg List.length hsplit
    rw [List.length_append] at hsum
    omega
  rw [hlength]
  nth_rewrite 1 [← hsplit]
  rw [Nat.ofDigitChars_append, hzeros, Nat.ofDigitChars_replicate_zero, List.length_replicate]

theorem notMem_of_digits {l : List Char} (hl : ∀ c ∈ l, c.isDigit) {c : Char}
    (hc : c.isDigit = false) : c ∉ l :=
  fun hmem => absurd (hl c hmem) (by simp [hc])

theorem readFixed_decimal (n p : ℕ) : readFixed (decimal n p) = some ((n : ℚ) / 10 ^ p) := by
  set full := padStart p (Nat.toDigits 10 (n % 10 ^ p)) with hfull
  set frac := full.rdropWhile fun c => c = '0' with hfrac
  have hdiv : (n / 10 ^ p : ℕ) * 10 ^ p + n % 10 ^ p = n := Nat.div_add_mod' n (10 ^ p)
  have hwhole : '.' ∉ Nat.toDigits 10 (n / 10 ^ p) :=
    notMem_of_digits (fun c => isDigit_of_mem_toDigits) (by decide)
  have hdigits : ∀ c ∈ frac, c.isDigit := fun c hc =>
    isDigit_of_mem_padStart ((List.rdropWhile_prefix _ _).subset hc)
  have hvalue : n % 10 ^ p = 10 ^ (full.length - frac.length) * Nat.ofDigitChars 10 frac 0 := by
    rw [← ofDigitChars_rdropWhile, ofDigitChars_padStart]
  by_cases hnil : frac = []
  · -- an integer
    have hmod : n % 10 ^ p = 0 := by
      rw [hvalue, hnil, Nat.ofDigitChars_nil, Nat.mul_zero]
    have hn : (n : ℚ) = (n / 10 ^ p : ℕ) * 10 ^ p := by
      rw [hmod, Nat.add_zero] at hdiv
      exact_mod_cast hdiv.symm
    rw [decimal, ← hfull, ← hfrac, if_pos hnil, List.append_nil, readFixed,
      List.splitOn_eq_singleton hwhole]
    dsimp only
    rw [readNat_toDigits, Option.map_some, hn, mul_div_assoc, div_self (by positivity), mul_one]
  · have hp : 0 < p := by
      rw [Nat.pos_iff_ne_zero]
      rintro rfl
      rw [hfrac, hfull, pow_zero, Nat.mod_one] at hnil
      exact hnil (by decide)
    have hlength : full.length = p := length_padStart hp (Nat.mod_lt _ (by positivity))
    have hle : frac.length ≤ p := hlength ▸ (List.rdropWhile_prefix _ _).length_le
    have hread : readNat (Nat.toDigits 10 (n / 10 ^ p) ++ frac)
        = some (10 ^ frac.length * (n / 10 ^ p) + Nat.ofDigitChars 10 frac 0) := by
      rw [readNat_of_digits (List.append_ne_nil_of_right_ne_nil _ hnil),
        Nat.ofDigitChars_append, Nat.ofDigitChars_ten_toDigits,
        Nat.ofDigitChars_eq_ofDigitChars_zero]
      intro c hc
      rcases List.mem_append.mp hc with hc | hc
      · exact isDigit_of_mem_toDigits hc
      · exact hdigits c hc
    have hn : (n : ℚ)
        = ((10 ^ frac.length * (n / 10 ^ p) + Nat.ofDigitChars 10 frac 0 : ℕ) : ℚ)
          * 10 ^ (p - frac.length) := by
      have hpow : 10 ^ p = 10 ^ frac.length * 10 ^ (p - frac.length) := by
        rw [← pow_add, Nat.add_sub_cancel' hle]
      rw [hvalue, hlength] at hdiv
      have hnat : n = (10 ^ frac.length * (n / 10 ^ p) + Nat.ofDigitChars 10 frac 0)
          * 10 ^ (p - frac.length) := by
        nth_rewrite 1 [← hdiv]
        nth_rewrite 2 [hpow]
        ring
      exact_mod_cast hnat
    rw [decimal, ← hfull, ← hfrac, if_neg hnil, readFixed,
      List.splitOn_append_cons_self_of_not_mem hwhole,
      List.splitOn_eq_singleton (notMem_of_digits hdigits (by decide))]
    dsimp only
    have hpow : (10 : ℚ) ^ p = 10 ^ frac.length * 10 ^ (p - frac.length) := by
      rw [← pow_add, Nat.add_sub_cancel' hle]
    rw [hread, Option.map_some, hn, hpow]
    refine congrArg some ?_
    rw [mul_div_mul_right _ _ (by positivity)]

theorem notMem_decimal {c : Char} (hc : c.isDigit = false) (hdot : c ≠ '.') (n p : ℕ) :
    c ∉ decimal n p := by
  intro hmem
  rw [decimal] at hmem
  rcases List.mem_append.mp hmem with hmem | hmem
  · exact notMem_of_digits (fun c => isDigit_of_mem_toDigits) hc hmem
  · split at hmem
    · exact List.not_mem_nil hmem
    · rcases List.mem_cons.mp hmem with rfl | hmem
      · exact hdot rfl
      · have hfull := (List.rdropWhile_prefix _ _).subset hmem
        exact notMem_of_digits (fun c => isDigit_of_mem_padStart) hc hfull

theorem readUnsigned_decimal (n p : ℕ) : readUnsigned (decimal n p) = some ((n : ℚ) / 10 ^ p) := by
  rw [readUnsigned, List.splitOn_eq_singleton (notMem_decimal (by decide) (by decide) n p)]
  exact readFixed_decimal n p

theorem readUnsigned_exponent (n p : ℕ) (e : ℤ) :
    readUnsigned (decimal n p ++ exponent e) = some ((n : ℚ) / 10 ^ p * 10 ^ e) := by
  set sign : Char := if e < 0 then '-' else '+' with hsign
  set digits := padStart 2 (Nat.toDigits 10 e.natAbs)
  have hnotMem : 'e' ∉ sign :: digits := by
    rw [List.mem_cons, not_or]
    refine ⟨?_, notMem_of_digits (fun c => isDigit_of_mem_padStart) (by decide)⟩
    rw [hsign]
    split
    · decide
    · decide
  have hread : readExponent (sign :: digits) = some e := by
    by_cases hneg : e < 0
    · rw [hsign, if_pos hneg, readExponent, readNat_padStart, Option.map_some]
      refine congrArg some ?_
      omega
    · rw [hsign, if_neg hneg, readExponent, readNat_padStart, Option.map_some]
      refine congrArg some ?_
      exact Int.natAbs_of_nonneg (not_lt.mp hneg)
  rw [readUnsigned, exponent,
    List.splitOn_append_cons_self_of_not_mem (notMem_decimal (by decide) (by decide) n p),
    List.splitOn_eq_singleton hnotMem]
  dsimp only
  rw [readFixed_decimal, Option.bind_some, hread]
  rfl

/-- The number rounded to six significant digits. -/
def rounded (q : ℚ) : ℚ := (sixDigits q).1 * 10 ^ ((sixDigits q).2 - 5)

theorem readUnsigned_unsignedFormat (q : ℚ) :
    readUnsigned (unsignedFormat q) = some (rounded q) := by
  rw [unsignedFormat, rounded]
  generalize sixDigits q = s
  obtain ⟨n, e⟩ := s
  dsimp only
  split
  · rename_i hfixed
    have hpow : (10 : ℚ) ^ (e - 5) = (10 ^ (5 - e).toNat)⁻¹ := by
      rw [← zpow_natCast, ← zpow_neg, Int.toNat_of_nonneg (by omega), neg_sub]
    rw [readUnsigned_decimal, hpow, div_eq_mul_inv]
  · have hpow : (10 : ℚ) ^ (e - 5) = 10 ^ e / 10 ^ 5 := zpow_sub₀ (by norm_num) e 5
    rw [readUnsigned_exponent, hpow, div_mul_eq_mul_div, mul_div_assoc]

/-- The text of a positive number has no sign in front. -/
theorem head_unsignedFormat (q : ℚ) (l : List Char) : unsignedFormat q ≠ '-' :: l := by
  have hdecimal (n p : ℕ) (r : List Char) : decimal n p ++ r ≠ '-' :: l := by
    rw [decimal, List.append_assoc]
    obtain ⟨c, cs, hcs⟩ :=
      List.exists_cons_of_ne_nil (Nat.toDigits_ne_nil (n := n / 10 ^ p) (b := 10))
    rw [hcs]
    intro heq
    have hc : c.isDigit := isDigit_of_mem_toDigits (hcs ▸ List.mem_cons_self)
    rw [(List.cons.inj heq).1] at hc
    exact absurd hc (by decide)
  rw [unsignedFormat]
  dsimp only
  split
  · rw [← List.append_nil (decimal _ _)]
    exact hdecimal _ _ []
  · exact hdecimal _ _ _

theorem read_intRepr (n : ℤ) : read n.repr.toList = some (n : ℚ) := by
  have hdigits (n : ℕ) : readUnsigned (Nat.toDigits 10 n) = some (n : ℚ) := by
    have hnotMem {c : Char} (hc : c.isDigit = false) : c ∉ Nat.toDigits 10 n :=
      notMem_of_digits (fun _ => isDigit_of_mem_toDigits) hc
    rw [readUnsigned, List.splitOn_eq_singleton (hnotMem (by decide))]
    dsimp only
    rw [readFixed, List.splitOn_eq_singleton (hnotMem (by decide))]
    dsimp only
    rw [readNat_toDigits]
    rfl
  rw [Numeral.toList_intRepr]
  split
  · rename_i hnonneg
    have hcast : ((n.toNat : ℤ) : ℚ) = n := by rw [Int.toNat_of_nonneg hnonneg]
    rw [read, hdigits, ← hcast]
    · rfl
    · intro l heq
      have hminus : '-' ∈ Nat.toDigits 10 n.toNat := heq ▸ List.mem_cons_self
      exact absurd (isDigit_of_mem_toDigits hminus) (by decide)
  · rename_i hneg
    have hcast : (((-n).toNat : ℤ) : ℚ) = -n := by
      rw [Int.toNat_of_nonneg (by omega), Int.cast_neg]
    rw [read, hdigits, ← Int.cast_natCast, hcast, Option.map_some, neg_neg]

/-- What a text denotes. -/
theorem read_generalFormat (q : ℚ) :
    read (generalFormat q).toList
      = some (if q = 0 then 0 else if q < 0 then -rounded (-q) else rounded q) := by
  rw [generalFormat]
  split
  · exact (read_intRepr 0).trans (congrArg some Int.cast_zero)
  · split
    · rw [String.toList_ofList, read, readUnsigned_unsignedFormat]
      rfl
    · rw [String.toList_ofList, read, readUnsigned_unsignedFormat]
      exact head_unsignedFormat q

/-- Digits, signs, a point and an `e` only. -/
theorem notMem_generalFormat {c : Char} (hc : c.isDigit = false) (hsep : c ∉ "-+.e".toList)
    (q : ℚ) : c ∉ (generalFormat q).toList := by
  have hne (d : Char) (hd : d ∈ "-+.e".toList) : c ≠ d := fun heq => hsep (heq ▸ hd)
  have hminus := hne '-' (by decide)
  have hplus := hne '+' (by decide)
  have hdot := hne '.' (by decide)
  have he := hne 'e' (by decide)
  have hexponent (e : ℤ) : c ∉ exponent e := by
    have hsign : c ≠ if e < 0 then '-' else '+' := by
      split
      · exact hminus
      · exact hplus
    rw [exponent, List.mem_cons, List.mem_cons, not_or, not_or]
    exact ⟨he, hsign, notMem_of_digits (fun _ => isDigit_of_mem_padStart) hc⟩
  have hunsigned (q : ℚ) : c ∉ unsignedFormat q := by
    rw [unsignedFormat]
    dsimp only
    split
    · exact notMem_decimal hc hdot _ _
    · rw [List.mem_append, not_or]
      exact ⟨notMem_decimal hc hdot _ _, hexponent _⟩
  rw [generalFormat]
  split
  · rw [show "0".toList = ['0'] from rfl, List.mem_singleton]
    rintro rfl
    exact absurd hc (by decide)
  · split
    · rw [String.toList_ofList, List.mem_cons, not_or]
      exact ⟨hminus, hunsigned _⟩
    · rw [String.toList_ofList]
      exact hunsigned q

/-! ### Integers -/

/-- What rounding adds to `n` for a rest of `r / u`. -/
def bump (n r u : ℕ) : ℕ := if 2 * r < u then 0 else if u < 2 * r then 1 else n % 2

theorem roundHalfEven_div {n r u : ℕ} (hr : r < u) :
    roundHalfEven (((n * u + r : ℕ) : ℚ) / u) = n + bump n r u := by
  have hu : (0 : ℚ) < u := by exact_mod_cast (Nat.zero_le r).trans_lt hr
  have hsum : ((n * u + r : ℕ) : ℚ) / u = n + r / u := by
    push_cast
    field_simp
  have hfloor : ⌊(n : ℚ) + r / u⌋₊ = n := by
    have hone : (r : ℚ) / u < 1 := (div_lt_one hu).mpr (by exact_mod_cast hr)
    rw [Nat.floor_eq_iff (by positivity)]
    exact ⟨le_add_of_nonneg_right (by positivity), by linarith⟩
  have hlt : (r : ℚ) / u < 1 / 2 ↔ 2 * r < u := by
    rw [div_lt_div_iff₀ hu (by norm_num), one_mul, mul_comm]
    exact_mod_cast Iff.rfl
  have hgt : 1 / 2 < (r : ℚ) / u ↔ u < 2 * r := by
    rw [div_lt_div_iff₀ (by norm_num) hu, one_mul, mul_comm]
    exact_mod_cast Iff.rfl
  rw [roundHalfEven, hsum, hfloor, add_sub_cancel_left, bump]
  simp only [hlt, hgt]
  split
  · rfl
  · split
    · rfl
    · rfl

theorem sixDigits_natCast {n r j : ℕ} (hn : 10 ^ 5 ≤ n) (hn' : n < 10 ^ 6) (hr : r < 10 ^ j) :
    sixDigits ((n * 10 ^ j + r : ℕ) : ℚ) = carry (n + bump n r (10 ^ j)) (j + 5) := by
  have hlog : Nat.log 10 (n * 10 ^ j + r) = j + 5 := by
    refine Nat.log_eq_of_pow_le_of_lt_pow ?_ ?_
    · calc 10 ^ (j + 5) = 10 ^ 5 * 10 ^ j := by ring
        _ ≤ n * 10 ^ j := Nat.mul_le_mul_right _ hn
        _ ≤ n * 10 ^ j + r := Nat.le_add_right _ _
    · calc n * 10 ^ j + r < n * 10 ^ j + 10 ^ j := Nat.add_lt_add_left hr _
        _ = (n + 1) * 10 ^ j := by ring
        _ ≤ 10 ^ 6 * 10 ^ j := Nat.mul_le_mul_right _ hn'
        _ = 10 ^ (j + 5 + 1) := by ring
  have hunit : (10 : ℚ) ^ (((j + 5 : ℕ) : ℤ) - 5) = (10 ^ j : ℕ) := by
    push_cast
    rw [add_sub_cancel_right, zpow_natCast]
  rw [sixDigits, Int.log_natCast, hlog, hunit, roundHalfEven_div hr]
  push_cast
  rfl

/-- The digits that a carry leaves denote the same number. -/
theorem carry_value (n : ℕ) (e : ℤ) :
    ((carry n e).1 : ℚ) * 10 ^ ((carry n e).2 - 5) = n * 10 ^ (e - 5) := by
  rw [carry]
  split
  · rename_i hn
    have hpow : (10 : ℚ) ^ (e + 1 - 5) = 10 ^ (e - 5) * 10 := by
      rw [← zpow_add_one₀ (by norm_num)]
      congr 1
      ring
    rw [hpow, hn]
    push_cast
    ring
  · rfl

theorem rounded_natCast {n r j : ℕ} (hn : 10 ^ 5 ≤ n) (hn' : n < 10 ^ 6) (hr : r < 10 ^ j) :
    rounded ((n * 10 ^ j + r : ℕ) : ℚ) = (n + bump n r (10 ^ j) : ℕ) * 10 ^ j := by
  rw [rounded, sixDigits_natCast hn hn' hr, carry_value, add_sub_cancel_right, zpow_natCast]

/-- The six leading digits of a number and the rest. -/
theorem exists_leading {a : ℕ} (h : 10 ^ 6 ≤ a) :
    ∃ n j r, 10 ^ 5 ≤ n ∧ n < 10 ^ 6 ∧ r < 10 ^ j ∧ 1 ≤ j ∧ a = n * 10 ^ j + r := by
  set j := Nat.log 10 a - 5
  have hlog : 6 ≤ Nat.log 10 a := Nat.le_log_of_pow_le (by decide) h
  have hupos : 0 < 10 ^ j := by positivity
  have hpow : 10 ^ Nat.log 10 a = 10 ^ 5 * 10 ^ j := by
    rw [← pow_add]
    congr 1
    omega
  refine ⟨a / 10 ^ j, j, a % 10 ^ j, ?_, ?_, Nat.mod_lt _ hupos, by omega,
    (Nat.div_add_mod' a (10 ^ j)).symm⟩
  · rw [Nat.le_div_iff_mul_le hupos, ← hpow]
    exact Nat.pow_log_le_self 10 (by omega)
  · rw [Nat.div_lt_iff_lt_mul hupos]
    have hlt := Nat.lt_pow_succ_log_self (b := 10) (by decide) a
    rwa [Nat.succ_eq_add_one, pow_succ, hpow, mul_right_comm, ← pow_succ] at hlt

/-- Rounding does not lose the seventh digit. -/
theorem le_rounded {a : ℕ} (h : 10 ^ 6 ≤ a) : 10 ^ 6 ≤ rounded a := by
  obtain ⟨n, j, r, hn, hn', hr, hj, rfl⟩ := exists_leading h
  have hnat : 10 ^ 6 ≤ (n + bump n r (10 ^ j)) * 10 ^ j := by
    calc 10 ^ 6 = 10 ^ 5 * 10 ^ 1 := by norm_num
      _ ≤ (n + bump n r (10 ^ j)) * 10 ^ j :=
        Nat.mul_le_mul (hn.trans (Nat.le_add_right _ _)) (Nat.pow_le_pow_right (by decide) hj)
  rw [rounded_natCast hn hn' hr]
  exact_mod_cast hnat

theorem decimal_mul_pow (n p : ℕ) : decimal (n * 10 ^ p) p = Nat.toDigits 10 n := by
  have hzeros : ∀ c ∈ padStart p (Nat.toDigits 10 0), c = '0' := by
    intro c hc
    rcases List.mem_append.mp hc with hc | hc
    · exact List.eq_of_mem_replicate hc
    · exact List.mem_singleton.mp hc
  have hfrac : ((padStart p (Nat.toDigits 10 0)).rdropWhile fun c => decide (c = '0')) = [] := by
    rw [List.rdropWhile_eq_nil_iff]
    exact fun c hc => decide_eq_true (hzeros c hc)
  rw [decimal, Nat.mul_mod_left, hfrac, if_pos rfl, List.append_nil,
    Nat.mul_div_cancel _ (by positivity)]

theorem roundHalfEven_natCast (n : ℕ) : roundHalfEven n = n := by
  have h := roundHalfEven_div (n := n) (r := 0) (u := 1) (by decide)
  rw [Nat.cast_one, div_one, Nat.mul_one, Nat.add_zero] at h
  rw [h]
  rfl

theorem unsignedFormat_natCast {n : ℕ} (h0 : n ≠ 0) (h : n < 10 ^ 6) :
    unsignedFormat n = Nat.toDigits 10 n := by
  set j := Nat.log 10 n with hj
  have hle : j < 6 := Nat.log_lt_of_lt_pow h0 h
  have hunit : (n : ℚ) / 10 ^ ((j : ℤ) - 5) = (n * 10 ^ (5 - j) : ℕ) := by
    have hpow : (10 : ℚ) ^ ((j : ℤ) - 5) = (10 ^ (5 - j))⁻¹ := by
      rw [← zpow_natCast, ← zpow_neg, Nat.cast_sub (by omega)]
      congr 1
      push_cast
      ring
    rw [hpow, div_inv_eq_mul]
    push_cast
    rfl
  have hlt : n * 10 ^ (5 - j) < 10 ^ 6 := by
    calc n * 10 ^ (5 - j) < 10 ^ (j + 1) * 10 ^ (5 - j) :=
          Nat.mul_lt_mul_of_pos_right (Nat.lt_pow_succ_log_self (by decide) n) (by positivity)
      _ = 10 ^ 6 := by rw [← pow_add]; congr 1; omega
  have hsix : sixDigits n = (n * 10 ^ (5 - j), (j : ℤ)) := by
    rw [sixDigits, Int.log_natCast, ← hj, hunit, roundHalfEven_natCast, carry, if_neg hlt.ne]
  have hpoint : ((5 : ℤ) - j).toNat = 5 - j := by omega
  rw [unsignedFormat, hsix]
  dsimp only
  rw [if_pos (by omega), hpoint, decimal_mul_pow]

/-- An integer of at most six digits is printed as it is. -/
theorem generalFormat_intCast {n : ℤ} (h : n.natAbs < 10 ^ 6) : generalFormat n = n.repr := by
  rw [← String.toList_inj, Numeral.toList_intRepr, generalFormat]
  rcases lt_trichotomy n 0 with hneg | rfl | hpos
  · have hcast : -(n : ℚ) = ((-n).toNat : ℕ) := by
      have hnat : ((-n).toNat : ℤ) = -n := Int.toNat_of_nonneg (by omega)
      exact_mod_cast hnat.symm
    rw [if_neg (by exact_mod_cast hneg.ne), if_pos (by exact_mod_cast hneg), if_neg (by omega),
      String.toList_ofList, hcast, unsignedFormat_natCast (by omega) (by omega)]
  · rfl
  · have hcast : (n : ℚ) = (n.toNat : ℕ) := by
      have hnat : (n.toNat : ℤ) = n := Int.toNat_of_nonneg hpos.le
      exact_mod_cast hnat.symm
    rw [if_neg (by exact_mod_cast hpos.ne'), if_neg (by exact_mod_cast hpos.le.not_gt),
      if_pos hpos.le, String.toList_ofList, hcast, unsignedFormat_natCast (by omega) (by omega)]

/-! ### Large integers -/

/-- The natural numbers that a `double` can hold. -/
def IsDouble (a : ℕ) : Prop := ∃ m k, m < 2 ^ 53 ∧ k ≤ 971 ∧ a = m * 2 ^ k

def maxDouble : ℕ := (2 ^ 53 - 1) * 2 ^ 971

/-- The distance to the neighbours of a number. -/
theorem IsDouble.exists_spacing {a : ℕ} (h : IsDouble a) (hpos : 0 < a) :
    ∃ δ, 0 < δ ∧ δ ≤ a ∧ (δ = 1 ∨ 2 ^ 52 * δ ≤ a) ∧ IsDouble (a - δ) ∧
      (a ≠ maxDouble → IsDouble (a + δ)) := by
  have hsucc {m k : ℕ} (hm : m + 1 ≤ 2 ^ 53) (hk : k ≤ 971)
      (hne : ¬ (m + 1 = 2 ^ 53 ∧ k = 971)) : IsDouble ((m + 1) * 2 ^ k) := by
    by_cases htop : m + 1 = 2 ^ 53
    · refine ⟨2 ^ 52, k + 1, by norm_num, by omega, ?_⟩
      rw [htop]
      ring
    · exact ⟨m + 1, k, by omega, hk, rfl⟩
  by_cases hsmall : a < 2 ^ 53
  · refine ⟨1, one_pos, hpos, .inl rfl, ⟨a - 1, 0, by omega, by omega, by simp⟩, fun _ => ?_⟩
    have h1 := hsucc (m := a) (k := 0) hsmall (by omega) (by omega)
    rwa [pow_zero, mul_one] at h1
  · -- the significand has 53 bits
    obtain ⟨m, k, hm, hk, rfl⟩ := h
    set L := Nat.log 2 (m * 2 ^ k) with hL
    have hL53 : 53 ≤ L := Nat.le_log_of_pow_le (by decide) (not_lt.mp hsmall)
    have hLk : L < 53 + k := by
      refine Nat.log_lt_of_lt_pow hpos.ne' ?_
      rw [pow_add]
      exact Nat.mul_lt_mul_of_pos_right hm (by positivity)
    set M := m * 2 ^ (k - (L - 52)) with hM
    have ha : m * 2 ^ k = M * 2 ^ (L - 52) := by
      rw [hM, mul_assoc, ← pow_add]
      congr 2
      omega
    have hpow : 2 ^ L = 2 ^ 52 * 2 ^ (L - 52) := by
      rw [← pow_add]
      congr 1
      omega
    have hlow : 2 ^ 52 ≤ M := by
      have hle := Nat.pow_log_le_self 2 hpos.ne'
      rw [← hL, hpow, ha] at hle
      exact Nat.le_of_mul_le_mul_right hle (by positivity)
    have hhigh : M < 2 ^ 53 := by
      have hlt := Nat.lt_pow_succ_log_self (b := 2) (by decide) (m * 2 ^ k)
      rw [← hL, Nat.succ_eq_add_one, pow_succ, hpow, ha] at hlt
      have hlt' : M * 2 ^ (L - 52) < 2 ^ 53 * 2 ^ (L - 52) := by omega
      exact Nat.lt_of_mul_lt_mul_right hlt'
    rw [ha]
    refine ⟨2 ^ (L - 52), by positivity, ?_, .inr (Nat.mul_le_mul_right _ hlow), ?_, fun hne => ?_⟩
    · exact Nat.le_mul_of_pos_left _ (by omega)
    · refine ⟨M - 1, L - 52, by omega, by omega, ?_⟩
      rw [Nat.sub_mul, one_mul]
    · rw [← Nat.succ_mul]
      refine hsucc hhigh (by omega) fun htop => hne ?_
      rw [maxDouble, htop.2, ← htop.1, Nat.add_sub_cancel]

/-- Two rests that are rounded alike. -/
theorem exists_bump_eq {n r u δ : ℕ} (hr : r < u) (hδ : 0 < δ) (hu : 10 * δ ≤ u) :
    (δ ≤ r ∧ bump n (r - δ) u = bump n r u) ∨ (r + δ < u ∧ bump n (r + δ) u = bump n r u) := by
  have hlt {x : ℕ} (h : 2 * x < u) : bump n x u = 0 := if_pos h
  have hgt {x : ℕ} (h : u < 2 * x) : bump n x u = 1 := by
    rw [bump, if_neg (by omega), if_pos h]
  rcases lt_trichotomy (2 * r) u with h | h | h
  · rw [hlt h]
    by_cases hle : δ ≤ r
    · exact .inl ⟨hle, hlt (by omega)⟩
    · exact .inr ⟨by omega, hlt (by omega)⟩
  · -- a tie goes to the even one
    have htie : bump n r u = n % 2 := by
      rw [bump, if_neg (by omega), if_neg (by omega)]
    rw [htie]
    rcases Nat.mod_two_eq_zero_or_one n with heven | hodd
    · exact .inl ⟨by omega, by rw [heven]; exact hlt (by omega)⟩
    · exact .inr ⟨by omega, by rw [hodd]; exact hgt (by omega)⟩
  · rw [hgt h]
    by_cases hle : u < 2 * (r - δ)
    · exact .inl ⟨by omega, hgt hle⟩
    · exact .inr ⟨by omega, hgt (by omega)⟩

/-- The six digits of the greatest `double` and of its neighbour. -/
theorem sixDigits_maxDouble :
    sixDigits (maxDouble - 2 ^ 971 : ℕ) = sixDigits maxDouble := by
  have hdigits {r : ℕ} (hr : 2 * r < 10 ^ 303) :
      sixDigits ((179769 * 10 ^ 303 + r : ℕ) : ℚ) = carry 179769 308 := by
    have hr' : r < 10 ^ 303 := by omega
    rw [sixDigits_natCast (by norm_num) (by norm_num) hr', bump, if_pos hr]
    rfl
  have hmax : 179769 * 10 ^ 303 + (maxDouble - 179769 * 10 ^ 303) = maxDouble := by decide +kernel
  have hprev : 179769 * 10 ^ 303 + (maxDouble - 2 ^ 971 - 179769 * 10 ^ 303)
      = maxDouble - 2 ^ 971 := by decide +kernel
  rw [← hprev, hdigits (by decide +kernel), ← hmax, hdigits (by decide +kernel)]

/-- Another number with the same six digits. -/
theorem exists_sixDigits_eq {a : ℕ} (h : IsDouble a) (hbig : 10 ^ 6 ≤ a) :
    ∃ a', IsDouble a' ∧ a' ≠ a ∧ 0 < a' ∧ sixDigits a' = sixDigits a := by
  by_cases hmax : a = maxDouble
  · rw [hmax]
    have hdouble : IsDouble (maxDouble - 2 ^ 971) := by
      refine ⟨2 ^ 53 - 2, 971, by norm_num, le_refl _, ?_⟩
      rw [maxDouble, ← Nat.sub_one_mul, Nat.sub_sub]
    have hne : maxDouble - 2 ^ 971 ≠ maxDouble := by decide +kernel
    have hpos : 0 < maxDouble - 2 ^ 971 := by decide +kernel
    exact ⟨_, hdouble, hne, hpos, sixDigits_maxDouble⟩
  · obtain ⟨δ, hδ, hle, hspacing, hprev, hnext⟩ := h.exists_spacing (by omega)
    obtain ⟨n, j, r, hnlow, hnhigh, hrlt, hj, hsplit⟩ := exists_leading hbig
    have hupos : 0 < 10 ^ j := by positivity
    have hu : 10 * δ ≤ 10 ^ j := by
      rcases hspacing with rfl | hspacing
      · have hone : 10 ^ 1 ≤ 10 ^ j := Nat.pow_le_pow_right (by decide) hj
        exact hone
      · have hlt : n * 10 ^ j + 10 ^ j ≤ 10 ^ 6 * 10 ^ j := by
          rw [← Nat.succ_mul]
          exact Nat.mul_le_mul_right _ hnhigh
        omega
    have hsame {r' : ℕ} (hr' : r' < 10 ^ j) (hbump : bump n r' (10 ^ j) = bump n r (10 ^ j)) :
        sixDigits (n * 10 ^ j + r' : ℕ) = sixDigits a := by
      rw [hsplit, sixDigits_natCast hnlow hnhigh hr', sixDigits_natCast hnlow hnhigh hrlt, hbump]
    rcases exists_bump_eq (n := n) hrlt hδ hu with ⟨hge, hbump⟩ | ⟨hlt, hbump⟩
    · have ha' : n * 10 ^ j + (r - δ) = a - δ := by omega
      have hlow : 10 ^ 5 * 1 ≤ n * 10 ^ j := Nat.mul_le_mul hnlow hupos
      exact ⟨a - δ, hprev, by omega, by omega, ha' ▸ hsame (by omega) hbump⟩
    · have ha' : n * 10 ^ j + (r + δ) = a + δ := by omega
      exact ⟨a + δ, hnext hmax, by omega, by omega, ha' ▸ hsame hlt hbump⟩

/-- Every larger integer has another that is printed the same. -/
theorem exists_generalFormat_eq {n : ℤ} (h : IsDouble n.natAbs) (hbig : 10 ^ 6 ≤ n.natAbs) :
    ∃ n' : ℤ, IsDouble n'.natAbs ∧ n' ≠ n ∧ generalFormat n' = generalFormat n := by
  obtain ⟨a', hdouble, hne, hpos, hsix⟩ := exists_sixDigits_eq h hbig
  have hformat : unsignedFormat a' = unsignedFormat n.natAbs := by
    rw [unsignedFormat, hsix, unsignedFormat]
  rcases lt_or_ge n 0 with hneg | hnonneg
  · refine ⟨-a', by rwa [Int.natAbs_neg, Int.natAbs_natCast], by omega, ?_⟩
    have hn : n = -(n.natAbs : ℤ) := by omega
    have hn0 : 0 < n.natAbs := by omega
    rw [hn]
    simp only [generalFormat, Int.cast_neg, Int.cast_natCast, neg_neg, neg_eq_zero,
      Left.neg_neg_iff, Nat.cast_eq_zero, Nat.cast_pos, hpos, hpos.ne', hn0, hn0.ne', if_false,
      if_true, hformat]
  · refine ⟨a', by rwa [Int.natAbs_natCast], by omega, ?_⟩
    have hn : n = (n.natAbs : ℤ) := by omega
    have hn0 : 0 < n.natAbs := by omega
    rw [hn]
    simp only [generalFormat, Int.cast_natCast, Nat.cast_eq_zero, hpos.ne', hn0.ne', if_false,
      (Nat.cast_nonneg _).not_gt, hformat]

end GeneralFormat
