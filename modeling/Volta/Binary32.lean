/-
Rounding to binary32, the `float` of C++: to the nearest number of 24 binary
digits, to the even one of two.

There is no largest exponent and no smallest one here.

* `round_mono` — a larger number is not rounded to a smaller one;
* `floor_round_iff` — when the rounded number has the same whole part.
-/
import Volta.GeneralFormat
import Mathlib.Algebra.Order.Floor.Semifield
import Mathlib.Algebra.Ring.Parity

namespace Binary32

open GeneralFormat (roundHalfEven)

/-- The distance of the numbers of 24 digits around a positive number. -/
def spacing (q : ℚ) : ℚ := 2 ^ (Int.log 2 q - 23)

def roundPos (q : ℚ) : ℚ := roundHalfEven (q / spacing q) * spacing q

def round (q : ℚ) : ℚ := if q = 0 then 0 else if q < 0 then -roundPos (-q) else roundPos q

/-- Below 2 ^ 24 the next whole number is not within half a spacing (at that
distance it is the odd one of two); from there on the whole part has 24 digits. -/
def KeepsWhole (q : ℚ) : Prop :=
  if q < 2 ^ 24 then
    spacing q / 2 < ⌊q⌋₊ + 1 - q ∨ spacing q / 2 = ⌊q⌋₊ + 1 - q ∧ 2 ^ 23 ≤ q ∧ Even ⌊q⌋₊
  else 2 ^ (Nat.log 2 ⌊q⌋₊ - 23) ∣ ⌊q⌋₊
  deriving Decidable

/-! ### The nearest integer -/

theorem roundHalfEven_lt_iff {q : ℚ} (hq : 0 ≤ q) {k : ℕ} :
    roundHalfEven q < k ↔ q < k - 1 / 2 ∨ q = k - 1 / 2 ∧ Odd k := by
  have hle := Nat.floor_le hq
  have hlt := Nat.lt_floor_add_one q
  rw [roundHalfEven]
  generalize ⌊q⌋₊ = n at hle hlt ⊢
  -- integers next to each other, so that `omega` can compare them
  have hcast : ∀ {a b : ℕ}, (a : ℚ) < b ↔ a + 1 ≤ b := Nat.cast_lt
  have hcast' : ∀ {a b : ℕ}, a + 1 ≤ b → (a : ℚ) + 1 ≤ b := fun h => by exact_mod_cast h
  split
  · rename_i hlow
    constructor
    · intro h
      have := hcast' h
      exact .inl (by linarith)
    · intro h
      refine hcast.mp ?_
      rcases h with h | ⟨h, -⟩ <;> linarith
  · rename_i hlow
    split
    · rename_i hhigh
      constructor
      · intro h
        have := hcast' h
        push_cast at this
        exact .inl (by linarith)
      · intro h
        refine hcast.mp ?_
        push_cast
        rcases h with h | ⟨h, -⟩ <;> linarith
    · rename_i hhigh
      have hhalf : q = n + 1 / 2 := by linarith
      have hfirst : q < k - 1 / 2 ↔ n + 1 < k := by
        rw [hhalf, ← Nat.cast_lt (α := ℚ)]
        push_cast
        constructor <;> intro h <;> linarith
      have hsecond : q = k - 1 / 2 ↔ n + 1 = k := by
        rw [hhalf, ← Nat.cast_inj (R := ℚ)]
        push_cast
        constructor <;> intro h <;> linarith
      rw [hfirst, hsecond, Nat.odd_iff]
      omega

theorem roundHalfEven_mono {a b : ℚ} (ha : 0 ≤ a) (hab : a ≤ b) :
    roundHalfEven a ≤ roundHalfEven b := by
  by_contra hlt
  have hb := (roundHalfEven_lt_iff (ha.trans hab)).mp (Nat.lt_of_not_le hlt)
  refine lt_irrefl (roundHalfEven a) ((roundHalfEven_lt_iff ha).mpr ?_)
  rcases hb with hb | ⟨hb, hodd⟩
  · exact .inl (hab.trans_lt hb)
  · exact (hab.trans_eq hb).lt_or_eq.imp id fun h => ⟨h, hodd⟩

/-! ### Order -/

theorem spacing_pos (q : ℚ) : 0 < spacing q := zpow_pos two_pos _

theorem roundPos_nonneg (q : ℚ) : 0 ≤ roundPos q :=
  mul_nonneg (Nat.cast_nonneg _) (spacing_pos q).le

/-- A power of two times the spacing. -/
theorem pow_mul_spacing (n : ℕ) (q : ℚ) :
    (2 ^ n : ℕ) * spacing q = 2 ^ (Int.log 2 q + (n - 23)) := by
  rw [spacing, Nat.cast_pow, Nat.cast_ofNat, ← zpow_natCast, ← zpow_add₀ two_ne_zero]
  congr 1
  ring

theorem roundPos_le {q : ℚ} (hq : 0 < q) : roundPos q ≤ 2 ^ (Int.log 2 q + 1) := by
  have hlt : q < (2 ^ 24 : ℕ) * spacing q := by
    rw [pow_mul_spacing]
    exact Int.lt_zpow_succ_log_self one_lt_two q
  have hdiv : q / spacing q < (2 ^ 24 : ℕ) := (div_lt_iff₀ (spacing_pos q)).mpr hlt
  have hround : roundHalfEven (q / spacing q) < 2 ^ 24 + 1 := by
    refine (roundHalfEven_lt_iff (div_pos hq (spacing_pos q)).le).mpr (.inl ?_)
    push_cast at hdiv ⊢
    linarith
  calc roundPos q ≤ (2 ^ 24 : ℕ) * spacing q :=
        mul_le_mul_of_nonneg_right (by exact_mod_cast Nat.lt_succ_iff.mp hround)
          (spacing_pos q).le
    _ = 2 ^ (Int.log 2 q + 1) := pow_mul_spacing 24 q

theorem le_roundPos {q : ℚ} (hq : 0 < q) : 2 ^ Int.log 2 q ≤ roundPos q := by
  have hle : (2 ^ 23 : ℕ) * spacing q ≤ q := by
    rw [pow_mul_spacing, Nat.cast_ofNat, sub_self, add_zero]
    exact Int.zpow_log_le_self one_lt_two hq
  have hround : 2 ^ 23 ≤ roundHalfEven (q / spacing q) := by
    have hdiv := (le_div_iff₀ (spacing_pos q)).mpr hle
    by_contra hlt
    rcases (roundHalfEven_lt_iff (div_pos hq (spacing_pos q)).le).mp (Nat.lt_of_not_le hlt)
      with h | ⟨h, -⟩ <;> linarith
  calc (2 : ℚ) ^ Int.log 2 q = (2 ^ 23 : ℕ) * spacing q := by
        rw [pow_mul_spacing, Nat.cast_ofNat, sub_self, add_zero]
    _ ≤ roundPos q := mul_le_mul_of_nonneg_right (by exact_mod_cast hround) (spacing_pos q).le

theorem roundPos_mono {a b : ℚ} (ha : 0 < a) (hab : a ≤ b) : roundPos a ≤ roundPos b := by
  rcases (Int.log_mono_right (b := 2) ha hab).lt_or_eq with hlog | hlog
  · -- a power of two is between them
    calc roundPos a ≤ 2 ^ (Int.log 2 a + 1) := roundPos_le ha
      _ ≤ 2 ^ Int.log 2 b := zpow_le_zpow_right₀ one_le_two hlog
      _ ≤ roundPos b := le_roundPos (ha.trans_le hab)
  · have hsame : spacing a = spacing b := by rw [spacing, hlog, spacing]
    rw [roundPos, roundPos, hsame]
    refine mul_le_mul_of_nonneg_right (Nat.cast_le.mpr ?_) (spacing_pos b).le
    exact roundHalfEven_mono (div_pos ha (spacing_pos b)).le
      (div_le_div_of_nonneg_right hab (spacing_pos b).le)

theorem round_of_pos {q : ℚ} (hq : 0 < q) : round q = roundPos q := by
  rw [round, if_neg hq.ne', if_neg hq.not_gt]

theorem round_nonneg {q : ℚ} (hq : 0 ≤ q) : 0 ≤ round q := by
  rcases hq.eq_or_lt with rfl | hpos
  · rfl
  · exact round_of_pos hpos ▸ roundPos_nonneg q

theorem round_mono : Monotone round := by
  intro a b hab
  rcases lt_or_ge a 0 with ha | ha
  · have hround : round a = -roundPos (-a) := by rw [round, if_neg ha.ne, if_pos ha]
    rw [hround]
    rcases lt_or_ge b 0 with hb | hb
    · rw [round, if_neg hb.ne, if_pos hb]
      exact neg_le_neg (roundPos_mono (neg_pos.mpr hb) (neg_le_neg hab))
    · exact (neg_nonpos.mpr (roundPos_nonneg _)).trans (round_nonneg hb)
  · rcases ha.eq_or_lt with rfl | hpos
    · exact round_nonneg hab
    · rw [round_of_pos hpos, round_of_pos (hpos.trans_le hab)]
      exact roundPos_mono hpos hab

/-! ### The whole part -/

/-- Below 2 ^ 24 the spacing is `1 / 2 ^ j`. -/
theorem exists_spacing_eq {q : ℚ} (hq : 0 < q) (hlt : q < 2 ^ 24) :
    ∃ j : ℕ, spacing q = 1 / (2 ^ j : ℕ) ∧ (2 ^ 23 ≤ q ↔ j = 0) := by
  have hlog : Int.log 2 q < 24 :=
    (Int.lt_zpow_iff_log_lt one_lt_two hq).mp (by exact_mod_cast hlt)
  obtain ⟨j, hj⟩ := Int.le.dest (show Int.log 2 q ≤ 23 by omega)
  refine ⟨j, ?_, ?_⟩
  · rw [spacing, ← hj, sub_add_cancel_left, zpow_neg, zpow_natCast, one_div, Nat.cast_pow,
      Nat.cast_ofNat]
  · have hiff := Int.zpow_le_iff_le_log (R := ℚ) one_lt_two (x := 23) hq
    rw [show (2 : ℚ) ^ 23 = ((2 : ℕ) : ℚ) ^ (23 : ℤ) from by norm_num, hiff]
    omega

theorem floor_roundPos_of_lt {q : ℚ} (hq : 0 < q) (hlt : q < 2 ^ 24) :
    ⌊roundPos q⌋₊ = ⌊q⌋₊ ↔ spacing q / 2 < ⌊q⌋₊ + 1 - q ∨
      spacing q / 2 = ⌊q⌋₊ + 1 - q ∧ 2 ^ 23 ≤ q ∧ Even ⌊q⌋₊ := by
  obtain ⟨j, hspacing, hj⟩ := exists_spacing_eq hq hlt
  have hle := Nat.floor_le hq.le
  have hpos : (0 : ℚ) < (2 ^ j : ℕ) := Nat.cast_pos.mpr (Nat.two_pow_pos j)
  have hround : roundPos q = roundHalfEven (q * (2 ^ j : ℕ)) / (2 ^ j : ℕ) := by
    rw [roundPos, hspacing, div_div_eq_mul_div, div_one, mul_one_div]
  rw [hround, Nat.floor_div_eq_div, hj, hspacing]
  generalize ⌊q⌋₊ = n at hle ⊢
  have hmul : 0 ≤ q * (2 ^ j : ℕ) := (mul_pos hq hpos).le
  have hlow : n * 2 ^ j ≤ roundHalfEven (q * (2 ^ j : ℕ)) := by
    have hprod := mul_le_mul_of_nonneg_right hle hpos.le
    by_contra hno
    rcases (roundHalfEven_lt_iff hmul).mp (Nat.lt_of_not_le hno) with h | ⟨h, -⟩ <;>
      push_cast at h hprod <;> linarith
  -- so the next whole number must not be reached
  have hdiv : roundHalfEven (q * (2 ^ j : ℕ)) / 2 ^ j = n ↔
      roundHalfEven (q * (2 ^ j : ℕ)) < (n + 1) * 2 ^ j := by
    refine ⟨fun h => (Nat.div_lt_iff_lt_mul (Nat.two_pow_pos j)).mp (h ▸ Nat.lt_succ_self n),
      fun h => le_antisymm ?_ ((Nat.le_div_iff_mul_le (Nat.two_pow_pos j)).mpr hlow)⟩
    exact Nat.lt_succ_iff.mp ((Nat.div_lt_iff_lt_mul (Nat.two_pow_pos j)).mpr h)
  have hodd : Odd ((n + 1) * 2 ^ j) ↔ j = 0 ∧ Even n := by
    rw [Nat.odd_mul, Nat.odd_add_one, Nat.not_odd_iff_even]
    cases j with
    | zero => simp
    | succ j => simp [pow_succ, Nat.odd_mul]
  have hnext : (((n + 1) * 2 ^ j : ℕ) : ℚ) = (n + 1) * (2 ^ j : ℕ) := by push_cast; ring
  rw [hdiv, roundHalfEven_lt_iff hmul, hodd, hnext, div_right_comm, div_lt_iff₀ hpos,
    div_eq_iff hpos.ne']
  refine or_congr ?_ (and_congr ?_ Iff.rfl)
  · constructor <;> intro h <;> linarith
  · constructor <;> intro h <;> linarith

theorem floor_roundPos_of_ge {q : ℚ} (hge : 2 ^ 24 ≤ q) :
    ⌊roundPos q⌋₊ = ⌊q⌋₊ ↔ 2 ^ (Nat.log 2 ⌊q⌋₊ - 23) ∣ ⌊q⌋₊ := by
  have hq : 0 ≤ q := (by norm_num : (0 : ℚ) ≤ 2 ^ 24).trans hge
  have hle := Nat.floor_le hq
  have hlt := Nat.lt_floor_add_one q
  have hfloor : 2 ^ 24 ≤ ⌊q⌋₊ := Nat.le_floor (by exact_mod_cast hge)
  have hlog : 24 ≤ Nat.log 2 ⌊q⌋₊ := Nat.le_log_of_pow_le one_lt_two hfloor
  have hspacing : spacing q = (2 ^ (Nat.log 2 ⌊q⌋₊ - 23) : ℕ) := by
    rw [spacing, Int.log_of_one_le_right _ ((by norm_num : (1 : ℚ) ≤ 2 ^ 24).trans hge),
      Nat.cast_pow, Nat.cast_ofNat, ← zpow_natCast, Nat.cast_sub (by omega), Nat.cast_ofNat]
  have htwo : 2 ≤ 2 ^ (Nat.log 2 ⌊q⌋₊ - 23) := Nat.le_self_pow (by omega) 2
  rw [roundPos, hspacing, ← Nat.cast_mul, Nat.floor_natCast]
  generalize ⌊q⌋₊ = n at hle hlt htwo ⊢
  generalize 2 ^ (Nat.log 2 n - 23) = u at htwo ⊢
  have hu : (0 : ℚ) < u := Nat.cast_pos.mpr (by omega)
  refine ⟨fun h => h ▸ Nat.dvd_mul_left u _, ?_⟩
  rintro ⟨k, rfl⟩
  have htwo' : (2 : ℚ) ≤ u := by exact_mod_cast htwo
  push_cast at hle hlt
  -- the whole part is rounded to itself, and the rest is less than half a spacing
  have hdiv : (k : ℚ) ≤ q / u ∧ q / u < k + 1 / 2 := by
    refine ⟨(le_div_iff₀ hu).mpr (by linarith), (div_lt_iff₀ hu).mpr ?_⟩
    rw [add_mul]
    linarith
  have hpos : 0 ≤ q / u := div_nonneg hq hu.le
  have hround : roundHalfEven (q / u) = k := by
    refine le_antisymm (Nat.lt_succ_iff.mp ((roundHalfEven_lt_iff hpos).mpr (.inl ?_))) ?_
    · push_cast
      linarith
    · by_contra hno
      rcases (roundHalfEven_lt_iff hpos).mp (Nat.lt_of_not_le hno) with h | ⟨h, -⟩ <;> linarith
  rw [hround, mul_comm]

/-- **When rounding keeps the whole part.** -/
theorem floor_round_iff {q : ℚ} (hq : 0 < q) : ⌊round q⌋₊ = ⌊q⌋₊ ↔ KeepsWhole q := by
  rw [round_of_pos hq, KeepsWhole]
  split
  · rename_i hlt
    exact floor_roundPos_of_lt hq hlt
  · rename_i hge
    exact floor_roundPos_of_ge (not_lt.mp hge)

example : round (134219 * 1000) = 134219008 := by decide +kernel

end Binary32
