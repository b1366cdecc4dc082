/-
Percent-encoding of texts, byte by byte of their UTF-8.

* `encode` — the characters of a set are escaped, the others kept;
* `encode_encode` — escapes are not escaped again;
* `decode_encode`, `decodeText_encode` — if `%` itself is escaped, the text can be
  read back.
-/
import Mathlib.Algebra.Group.Nat.Defs
import Mathlib.Tactic.Common
import Mathlib.Tactic.IntervalCases

namespace PercentEncoding

/-! ### Bytes -/

def hexDigit (n : ℕ) : Char := if n < 10 then Char.ofNat (48 + n) else Char.ofNat (55 + n)

def hexValue (c : Char) : Option ℕ :=
  if 48 ≤ c.toNat ∧ c.toNat ≤ 57 then some (c.toNat - 48)
  else if 65 ≤ c.toNat ∧ c.toNat ≤ 70 then some (c.toNat - 55)
  else if 97 ≤ c.toNat ∧ c.toNat ≤ 102 then some (c.toNat - 87)
  else none

def encodeByte (b : UInt8) : List Char :=
  ['%', hexDigit (b.toNat / 16), hexDigit (b.toNat % 16)]

/-- What is no escape stands for itself. -/
def decode : List Char → List UInt8
  | [] => []
  | '%' :: a :: b :: l =>
      match hexValue a, hexValue b with
      | some x, some y => UInt8.ofNat (16 * x + y) :: decode l
      | _, _ => 37 :: decode (a :: b :: l)
  | c :: l => String.utf8EncodeChar c ++ decode l

theorem hexValue_hexDigit {n : ℕ} (h : n < 16) : hexValue (hexDigit n) = some n := by
  interval_cases n <;> rfl

theorem decode_encodeByte (b : UInt8) (l : List Char) :
    decode (encodeByte b ++ l) = b :: decode l := by
  have hb := b.toNat_lt
  show decode ('%' :: hexDigit (b.toNat / 16) :: hexDigit (b.toNat % 16) :: l) = _
  rw [decode, hexValue_hexDigit (by omega), hexValue_hexDigit (by omega)]
  dsimp only
  rw [Nat.div_add_mod, UInt8.ofNat_toNat]

theorem decode_encodeBytes (bytes : List UInt8) (l : List Char) :
    decode (bytes.flatMap encodeByte ++ l) = bytes ++ decode l := by
  induction bytes with
  | nil => rfl
  | cons b bytes ih =>
    rw [List.flatMap_cons, List.append_assoc, decode_encodeByte, ih]
    rfl

theorem decode_cons {c : Char} (h : c ≠ '%') (l : List Char) :
    decode (c :: l) = String.utf8EncodeChar c ++ decode l := by
  rw [decode]
  intro a b l' heq
  exact fun _ => h heq

/-! ### Texts -/

def encodeChar (set : Char → Bool) (c : Char) : List Char :=
  if set c then (String.utf8EncodeChar c).flatMap encodeByte else [c]

def encode (set : Char → Bool) (l : List Char) : List Char := l.flatMap (encodeChar set)

/-- The text of the bytes, if they are UTF-8. -/
def decodeText (l : List Char) : Option (List Char) :=
  (decode l).toByteArray.utf8Decode?.map Array.toList

variable {set : Char → Bool}

theorem encode_cons (c : Char) (l : List Char) :
    encode set (c :: l) = encodeChar set c ++ encode set l := rfl

theorem encode_append (l m : List Char) : encode set (l ++ m) = encode set l ++ encode set m :=
  List.flatMap_append

theorem encode_eq_self {l : List Char} (h : ∀ c ∈ l, set c = false) : encode set l = l := by
  induction l with
  | nil => rfl
  | cons c l ih =>
    rw [List.forall_mem_cons] at h
    rw [encode_cons, ih h.2, encodeChar, h.1]
    rfl

theorem decode_encode (hset : set '%' = true) (l m : List Char) :
    decode (encode set l ++ m) = l.flatMap String.utf8EncodeChar ++ decode m := by
  induction l with
  | nil => rfl
  | cons c l ih =>
    rw [encode_cons, List.append_assoc, encodeChar, List.flatMap_cons, List.append_assoc]
    split
    · rw [decode_encodeBytes, ih]
    · rename_i hc
      have hne : c ≠ '%' := by
        rintro rfl
        exact hc hset
      rw [List.singleton_append, decode_cons hne, ih]

theorem decodeText_encode (hset : set '%' = true) (l : List Char) :
    decodeText (encode set l) = some l := by
  have hdecode := decode_encode hset l []
  rw [List.append_nil, decode, List.append_nil] at hdecode
  rw [decodeText, hdecode]
  exact congrArg (Option.map Array.toList) List.utf8Decode?_utf8Encode

/-- The set has no character that an escape is made of. -/
structure Keeps (set : Char → Bool) : Prop where
  percent : set '%' = false
  hexDigit : ∀ n < 16, set (hexDigit n) = false

theorem Keeps.of_mem_encodeByte (h : Keeps set) {b : UInt8} {c : Char} (hc : c ∈ encodeByte b) :
    set c = false := by
  have hb := b.toNat_lt
  simp only [encodeByte, List.mem_cons, List.not_mem_nil, or_false] at hc
  rcases hc with rfl | rfl | rfl
  · exact h.percent
  · exact h.hexDigit _ (by omega)
  · exact h.hexDigit _ (by omega)

/-- Escapes are not escaped again. -/
theorem encode_encode {set' : Char → Bool} (h : Keeps set') (l : List Char) :
    encode set' (encode set l) = encode (fun c => set c || set' c) l := by
  induction l with
  | nil => rfl
  | cons c l ih =>
    rw [encode_cons, encode_append, ih, encode_cons, encodeChar, encodeChar]
    cases hc : set c with
    | true =>
      rw [if_pos rfl, Bool.true_or, if_pos rfl, encode_eq_self]
      intro d hd
      obtain ⟨b, -, hd⟩ := List.mem_flatMap.mp hd
      exact h.of_mem_encodeByte hd
    | false =>
      rw [if_neg Bool.false_ne_true, Bool.false_or]
      exact congrArg (· ++ _) (List.append_nil _)

/-- What is left in the text is not in the set. -/
theorem Keeps.of_mem_encode (h : Keeps set) {l : List Char} {c : Char} (hc : c ∈ encode set l) :
    set c = false := by
  obtain ⟨d, -, hc⟩ := List.mem_flatMap.mp hc
  rw [encodeChar] at hc
  split at hc
  · obtain ⟨b, -, hc⟩ := List.mem_flatMap.mp hc
    exact h.of_mem_encodeByte hc
  · rename_i hd
    rw [List.mem_singleton.mp hc]
    exact Bool.eq_false_iff.mpr hd

theorem notMem_encodeByte {c : Char} (hpercent : c ≠ '%') (hhex : hexValue c = none)
    (b : UInt8) : c ∉ encodeByte b := by
  have hb := b.toNat_lt
  intro hmem
  simp only [encodeByte, List.mem_cons, List.not_mem_nil, or_false] at hmem
  rcases hmem with rfl | rfl | rfl
  · exact hpercent rfl
  · rw [hexValue_hexDigit (by omega)] at hhex
    exact absurd hhex (by simp)
  · rw [hexValue_hexDigit (by omega)] at hhex
    exact absurd hhex (by simp)

/-- A character of the set that no escape is made of does not come up. -/
theorem notMem_encode {c : Char} (hset : set c = true) (hpercent : c ≠ '%')
    (hhex : hexValue c = none) (l : List Char) : c ∉ encode set l := by
  intro hmem
  obtain ⟨d, -, hmem⟩ := List.mem_flatMap.mp hmem
  rw [encodeChar] at hmem
  split at hmem
  · obtain ⟨b, -, hmem⟩ := List.mem_flatMap.mp hmem
    exact notMem_encodeByte hpercent hhex b hmem
  · rename_i hd
    rw [List.mem_singleton.mp hmem] at hset
    exact hd hset

end PercentEncoding
