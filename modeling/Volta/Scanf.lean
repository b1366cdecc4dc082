/-
`sscanf` with the conversion `%u`, on the characters of a string.

A number is converted as by `strtoul`, to 64 bits, and stored in 32.

* `Unsigned` — a text that begins with a number, with blanks and a sign allowed
  in front of it;
* `scanUnsigned_eq_some_iff` — `%u` reads such a number;
* `scanRange_eq_some_iff` — the format `"%u-%u"` reads two of them, whatever
  comes after.
-/
import Volta.Numeral
import Mathlib.Algebra.Group.Nat.Defs
import Mathlib.Data.List.TakeWhile

namespace Scanf

/-- `isspace` in the C locale. -/
def isSpace (c : Char) : Bool := c ∈ [' ', '\t', '\n', '\x0b', '\x0c', '\r']

/-- `strtoul` of a sign and the number after it. -/
def strtoul (negative : Bool) (n : ℕ) : UInt64 :=
  if 2 ^ 64 ≤ n then UInt64.ofNat (2 ^ 64 - 1)
  else if negative then -UInt64.ofNat n
  else UInt64.ofNat n

def takeSign : List Char → Bool × List Char
  | '-' :: l => (true, l)
  | '+' :: l => (false, l)
  | l => (false, l)

/-- `%u`: the number, and what is left of the text. -/
def scanUnsigned (l : List Char) : Option (UInt32 × List Char) :=
  let (negative, l) := takeSign (l.dropWhile isSpace)
  let digits := l.takeWhile Char.isDigit
  if digits = [] then none
  else some ((strtoul negative (Nat.ofDigitChars 10 digits 0)).toUInt32, l.dropWhile Char.isDigit)

/-- A character of the format. -/
def scanChar (c : Char) : List Char → Option (List Char)
  | [] => none
  | d :: l => if d = c then some l else none

/-- `sscanf` with the format `"%u-%u"`, if both numbers are assigned. -/
def scanRange (l : List Char) : Option (UInt32 × UInt32) :=
  (scanUnsigned l).bind fun first =>
    (scanChar '-' first.2).bind fun l =>
      (scanUnsigned l).map fun second => (first.1, second.1)

/-- The characters that `c_str()` shows. -/
def cStr (s : String) : List Char := s.toList.takeWhile fun c => c ≠ '\x00'

/-- Blanks, a sign or none, and digits. -/
structure Unsigned where
  blanks : List Char
  sign : List Char
  digits : List Char
  isSpace_of_mem : ∀ c ∈ blanks, isSpace c
  sign_mem : sign ∈ [[], ['+'], ['-']]
  ne_nil : digits ≠ []
  isDigit_of_mem : ∀ c ∈ digits, c.isDigit

namespace Unsigned

def text (u : Unsigned) : List Char := u.blanks ++ (u.sign ++ u.digits)

def value (u : Unsigned) : UInt32 :=
  (strtoul (u.sign = ['-']) (Nat.ofDigitChars 10 u.digits 0)).toUInt32

end Unsigned

/-- The text does not go on with a digit. -/
def NoDigit (l : List Char) : Prop := ∀ c ∈ l.head?, c.isDigit = false

theorem noDigit_dropWhile (l : List Char) : NoDigit (l.dropWhile Char.isDigit) := by
  intro c hc
  have hhead := List.head?_dropWhile_not Char.isDigit l
  rw [hc] at hhead
  simpa using hhead

/-- A digit is neither a blank nor a sign. -/
theorem takeSign_digit {c : Char} (hc : c.isDigit) (l : List Char) :
    takeSign (c :: l) = (false, c :: l) := by
  rw [takeSign]
  · intro l' heq
    rw [(List.cons.inj heq).1] at hc
    exact absurd hc (by decide)
  · intro l' heq
    rw [(List.cons.inj heq).1] at hc
    exact absurd hc (by decide)

theorem isSpace_eq_false_of_digit {c : Char} (hc : c.isDigit) : isSpace c = false := by
  rw [isSpace, decide_eq_false_iff_not]
  intro hmem
  have hall : ∀ c ∈ [' ', '\t', '\n', '\x0b', '\x0c', '\r'], c.isDigit = false := by simp
  rw [hall c hmem] at hc
  exact absurd hc (by decide)

/-- What is in front of the digits is skipped. -/
theorem takeSign_text (u : Unsigned) (rest : List Char) :
    takeSign ((u.text ++ rest).dropWhile isSpace)
      = (decide (u.sign = ['-']), u.digits ++ rest) := by
  obtain ⟨d, digits, hdigits⟩ := List.exists_cons_of_ne_nil u.ne_nil
  have hd : d.isDigit := u.isDigit_of_mem d (hdigits ▸ List.mem_cons_self)
  rw [Unsigned.text, List.append_assoc, List.append_assoc,
    List.dropWhile_append_of_pos u.isSpace_of_mem]
  have hsign := u.sign_mem
  simp only [List.mem_cons, List.not_mem_nil, or_false] at hsign
  rcases hsign with hsign | hsign | hsign
  · rw [hsign, hdigits, List.nil_append, List.cons_append, List.dropWhile_cons_of_neg
      (by simp [isSpace_eq_false_of_digit hd]), takeSign_digit hd]
    rfl
  · rw [hsign]
    rfl
  · rw [hsign]
    rfl

theorem takeSign_spec (l : List Char) :
    ∃ sign ∈ [[], ['+'], ['-']], l = sign ++ (takeSign l).2 ∧
      (takeSign l).1 = decide (sign = ['-']) := by
  rcases l with _ | ⟨c, l⟩
  · exact ⟨[], by simp, rfl, rfl⟩
  · by_cases hminus : c = '-'
    · subst hminus
      exact ⟨['-'], by simp, rfl, rfl⟩
    · by_cases hplus : c = '+'
      · subst hplus
        exact ⟨['+'], by simp, rfl, rfl⟩
      · have hself : takeSign (c :: l) = (false, c :: l) := by
          rw [takeSign]
          · rintro l' heq
            exact hminus (List.cons.inj heq).1
          · rintro l' heq
            exact hplus (List.cons.inj heq).1
        rw [hself]
        exact ⟨[], by simp, rfl, rfl⟩

theorem scanUnsigned_eq_some_iff {l rest : List Char} {n : UInt32} :
    scanUnsigned l = some (n, rest) ↔
      ∃ u : Unsigned, l = u.text ++ rest ∧ u.value = n ∧ NoDigit rest := by
  constructor
  · intro h
    obtain ⟨sign, hsign, hl, hnegative⟩ := takeSign_spec (l.dropWhile isSpace)
    rw [scanUnsigned] at h
    generalize takeSign (l.dropWhile isSpace) = p at h hl hnegative
    obtain ⟨negative, l'⟩ := p
    dsimp only at h hl hnegative
    split at h
    · exact absurd h (by simp)
    · rename_i hne
      obtain ⟨rfl, rfl⟩ := Prod.mk.inj (Option.some_inj.mp h)
      refine ⟨⟨l.takeWhile isSpace, sign, l'.takeWhile Char.isDigit,
        fun c => List.mem_takeWhile_imp, hsign, hne, fun c => List.mem_takeWhile_imp⟩, ?_, ?_,
        noDigit_dropWhile l'⟩
      · rw [Unsigned.text, List.append_assoc, List.append_assoc, List.takeWhile_append_dropWhile,
          ← hl, List.takeWhile_append_dropWhile]
      · rw [Unsigned.value, hnegative]
  · rintro ⟨u, rfl, rfl, hrest⟩
    obtain ⟨htake, hdrop⟩ := Numeral.span_append u.isDigit_of_mem hrest
    rw [scanUnsigned, takeSign_text]
    dsimp only
    rw [htake, hdrop, if_neg u.ne_nil]
    rfl

theorem scanChar_eq_some_iff {c : Char} {l rest : List Char} :
    scanChar c l = some rest ↔ l = c :: rest := by
  cases l with
  | nil => simp [scanChar]
  | cons d l => simp [scanChar]

/-- A text that begins with two numbers and `-` between them. -/
def IsRange (l : List Char) (first second : Unsigned) (rest : List Char) : Prop :=
  l = first.text ++ '-' :: (second.text ++ rest) ∧ NoDigit rest

theorem scanRange_eq_some_iff {l : List Char} {m n : UInt32} :
    scanRange l = some (m, n) ↔
      ∃ first second rest, IsRange l first second rest ∧ first.value = m ∧ second.value = n := by
  have hminus (l : List Char) : NoDigit ('-' :: l) := by
    intro c hc
    rw [← Option.some_inj.mp hc]
    rfl
  rw [scanRange, Option.bind_eq_some_iff]
  constructor
  · rintro ⟨⟨m', l₁⟩, hfirst, h⟩
    obtain ⟨l₂, hchar, h⟩ := Option.bind_eq_some_iff.mp h
    obtain ⟨⟨n', rest⟩, hsecond, heq⟩ := Option.map_eq_some_iff.mp h
    obtain ⟨rfl, rfl⟩ := Prod.mk.inj heq
    obtain ⟨first, rfl, hm, -⟩ := scanUnsigned_eq_some_iff.mp hfirst
    obtain ⟨second, rfl, hn, hrest⟩ := scanUnsigned_eq_some_iff.mp hsecond
    have hl₁ := scanChar_eq_some_iff.mp hchar
    dsimp only at hl₁
    exact ⟨first, second, rest, ⟨by rw [hl₁], hrest⟩, hm, hn⟩
  · rintro ⟨first, second, rest, ⟨rfl, hrest⟩, rfl, rfl⟩
    refine ⟨(first.value, _), scanUnsigned_eq_some_iff.mpr ⟨first, rfl, rfl, hminus _⟩, ?_⟩
    refine Option.bind_eq_some_iff.mpr ⟨_, scanChar_eq_some_iff.mpr rfl, ?_⟩
    rw [scanUnsigned_eq_some_iff.mpr ⟨second, rfl, rfl, hrest⟩]
    rfl

/-! ### Strings with a null character -/

theorem Unsigned.null_notMem (u : Unsigned) : '\x00' ∉ u.text := by
  intro hmem
  rcases List.mem_append.mp hmem with hmem | hmem
  · exact absurd (u.isSpace_of_mem _ hmem) (by decide)
  · rcases List.mem_append.mp hmem with hmem | hmem
    · have hall : ∀ sign ∈ [[], ['+'], ['-']], '\x00' ∉ sign := by decide
      exact hall _ u.sign_mem hmem
    · exact absurd (u.isDigit_of_mem _ hmem) (by decide)

/-- What `c_str()` cuts off comes after the numbers. -/
theorem isRange_cStr_iff {s : String} {first second : Unsigned} :
    (∃ rest, IsRange (cStr s) first second rest) ↔
      ∃ rest, IsRange s.toList first second rest := by
  have hnull : ∀ c ∈ first.text ++ '-' :: second.text, decide (c ≠ '\x00') := by
    intro c hc
    refine decide_eq_true ?_
    rintro rfl
    rcases List.mem_append.mp hc with hc | hc
    · exact first.null_notMem hc
    · rcases List.mem_cons.mp hc with hc | hc
      · exact absurd hc (by decide)
      · exact second.null_notMem hc
  constructor
  · rintro ⟨rest, hcStr, hrest⟩
    refine ⟨rest ++ s.toList.dropWhile fun c => c ≠ '\x00', ?_, ?_⟩
    · rw [← List.append_assoc second.text, ← List.cons_append, ← List.append_assoc, ← hcStr, cStr,
        List.takeWhile_append_dropWhile]
    · intro c hc
      rw [List.head?_append] at hc
      cases hhead : rest.head? with
      | some d =>
        rw [hhead, Option.some_or] at hc
        exact hrest c (hhead.trans hc)
      | none =>
        rw [hhead, Option.none_or] at hc
        have hdrop := List.head?_dropWhile_not (fun c : Char => decide (c ≠ '\x00')) s.toList
        rw [hc] at hdrop
        have hzero : c = '\x00' := by simpa using hdrop
        rw [hzero]
        rfl
  · rintro ⟨rest, hs, hrest⟩
    refine ⟨rest.takeWhile fun c => c ≠ '\x00', ?_, ?_⟩
    · rw [cStr, hs, ← List.cons_append, ← List.append_assoc, List.takeWhile_append_of_pos hnull,
        List.append_assoc, List.cons_append]
    · intro c hc
      cases rest with
      | nil => exact hrest c hc
      | cons d rest =>
        rw [List.takeWhile_cons] at hc
        split at hc
        · exact hrest c hc
        · exact absurd hc (by simp)

theorem scanRange_cStr_iff {s : String} {m n : UInt32} :
    scanRange (cStr s) = some (m, n) ↔
      ∃ first second rest, IsRange s.toList first second rest ∧ first.value = m ∧
        second.value = n := by
  rw [scanRange_eq_some_iff]
  constructor
  · rintro ⟨first, second, rest, h, hm, hn⟩
    obtain ⟨rest', h'⟩ := isRange_cStr_iff.mp ⟨rest, h⟩
    exact ⟨first, second, rest', h', hm, hn⟩
  · rintro ⟨first, second, rest, h, hm, hn⟩
    obtain ⟨rest', h'⟩ := isRange_cStr_iff.mpr ⟨rest, h⟩
    exact ⟨first, second, rest', h', hm, hn⟩

/-! ### Plain numbers -/

/-- A number without blanks and sign. -/
def Unsigned.plain (digits : List Char) (hne : digits ≠ []) (hd : ∀ c ∈ digits, c.isDigit) :
    Unsigned where
  blanks := []
  sign := []
  digits := digits
  isSpace_of_mem _ h := absurd h List.not_mem_nil
  sign_mem := List.mem_cons_self
  ne_nil := hne
  isDigit_of_mem := hd

/-- A plain number that fits is stored as it is. -/
theorem Unsigned.toNat_value_plain {digits : List Char} (hne : digits ≠ [])
    (hd : ∀ c ∈ digits, c.isDigit) (hlt : Nat.ofDigitChars 10 digits 0 < 2 ^ 32) :
    (plain digits hne hd).value.toNat = Nat.ofDigitChars 10 digits 0 := by
  have hlt' : Nat.ofDigitChars 10 digits 0 < 2 ^ 64 := hlt.trans (by decide)
  have hvalue : (plain digits hne hd).value
      = (UInt64.ofNat (Nat.ofDigitChars 10 digits 0)).toUInt32 := by
    show (strtoul false (Nat.ofDigitChars 10 digits 0)).toUInt32 = _
    rw [strtoul, if_neg (not_le.mpr hlt')]
    rfl
  rw [hvalue, UInt64.toNat_toUInt32, UInt64.toNat_ofNat', Nat.mod_eq_of_lt hlt',
    Nat.mod_eq_of_lt hlt]

end Scanf
