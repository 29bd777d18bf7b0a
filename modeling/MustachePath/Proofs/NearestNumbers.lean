import Mathlib.Algebra.Order.Ring.Int
import MustachePath.Json.Binary64

/-!
# Floating-point numbers nearest to integers

Rounding to the nearest floating-point number keeps the order of integers, but for integers that
round to one number (`Binary64.signedUnits_ofInt_mono`), and it changes no integer up to `2 ^ 53`
(`Binary64.signedUnits_ofInt_of_small`). Between two powers of two the numbers lie on a grid, where
the order is kept by `roundQuotient_mono`; across a power of two both sides are rounded towards it
at most.
-/

namespace MustachePath.Binary64

theorem roundQuotient_bounds (num den : Nat) :
    num / den ≤ roundQuotient num den ∧ roundQuotient num den ≤ num / den + 1 := by
  dsimp only [roundQuotient]
  split
  · exact ⟨Nat.le_succ _, Nat.le_refl _⟩
  · exact ⟨Nat.le_refl _, Nat.le_succ _⟩

theorem roundQuotient_mono {m n : Nat} (den : Nat) (h : m ≤ n) :
    roundQuotient m den ≤ roundQuotient n den := by
  have hle : m / den ≤ n / den := Nat.div_le_div_right h
  obtain hlt | heq := Nat.lt_or_eq_of_le hle
  · exact Nat.le_trans (roundQuotient_bounds m den).2
      (Nat.le_trans hlt (roundQuotient_bounds n den).1)
  · have hm := Nat.div_add_mod m den
    have hn := Nat.div_add_mod n den
    rw [heq] at hm
    dsimp only [roundQuotient]
    rw [heq]
    split
    · rename_i hup
      exact Nat.le_of_eq (if_pos (by omega)).symm
    · split
      · exact Nat.le_succ _
      · exact Nat.le_refl _

theorem roundQuotient_mul_self {den : Nat} (hden : 0 < den) (m : Nat) :
    roundQuotient (m * den) den = m := by
  dsimp only [roundQuotient]
  rw [Nat.mul_div_cancel m hden, Nat.mul_mod_left, if_neg (by omega)]

/-- The distance of the floating-point numbers around a magnitude in the smallest units. -/
def spacing (m : Nat) : Nat := 2 ^ (Nat.log2 m - 52)

/-- A magnitude in the smallest units, rounded to the nearest floating-point number. -/
def nearest (m : Nat) : Nat := roundQuotient m (spacing m) * spacing m

theorem spacing_pos (m : Nat) : 0 < spacing m := Nat.two_pow_pos _

theorem nearest_of_dvd {m : Nat} (h : spacing m ∣ m) : nearest m = m := by
  obtain ⟨q, hq⟩ := h
  have hround : roundQuotient m (spacing m) = q := by
    have hself := roundQuotient_mul_self (spacing_pos m) q
    rwa [Nat.mul_comm, ← hq] at hself
  rw [nearest, hround, Nat.mul_comm]
  exact hq.symm

/-- Rounding stays on this side of the next power of two. -/
theorem nearest_le {m : Nat} : nearest m ≤ 2 ^ 53 * spacing m := by
  have hlt : m < 2 ^ 53 * spacing m := by
    calc m < 2 ^ (Nat.log2 m + 1) := Nat.lt_log2_self
      _ ≤ 2 ^ (53 + (Nat.log2 m - 52)) := Nat.pow_le_pow_right (by decide) (by omega)
      _ = 2 ^ 53 * spacing m := Nat.pow_add 2 53 _
  have hdiv : m / spacing m < 2 ^ 53 := Nat.div_lt_of_lt_mul (by rwa [Nat.mul_comm])
  exact Nat.mul_le_mul_right _ (Nat.le_trans (roundQuotient_bounds m (spacing m)).2 hdiv)

/-- Rounding stays on this side of the power of two below, where the grid is coarser than one
unit. -/
theorem le_nearest {m : Nat} (h : 52 ≤ Nat.log2 m) : 2 ^ 52 * spacing m ≤ nearest m := by
  have hne : m ≠ 0 := by
    rintro rfl
    simp at h
  have hle : 2 ^ 52 * spacing m ≤ m := by
    calc 2 ^ 52 * spacing m = 2 ^ (52 + (Nat.log2 m - 52)) := (Nat.pow_add 2 52 _).symm
      _ = 2 ^ Nat.log2 m := by rw [Nat.add_sub_cancel' h]
      _ ≤ m := Nat.log2_self_le hne
  have hdiv : 2 ^ 52 ≤ m / spacing m := (Nat.le_div_iff_mul_le (spacing_pos m)).mpr hle
  exact Nat.mul_le_mul_right _ (Nat.le_trans hdiv (roundQuotient_bounds m (spacing m)).1)

theorem nearest_mono {m n : Nat} (h : m ≤ n) : nearest m ≤ nearest n := by
  by_cases hsame : Nat.log2 m - 52 = Nat.log2 n - 52
  · have hspacing : spacing m = spacing n := by rw [spacing, spacing, hsame]
    rw [nearest, nearest, hspacing]
    exact Nat.mul_le_mul_right _ (roundQuotient_mono _ h)
  · -- The grid of the larger one is coarser, so a power of two lies between the two.
    have hlog : Nat.log2 m ≤ Nat.log2 n := by
      by_cases hm : m = 0
      · rw [hm]
        exact Nat.zero_le _
      · exact (Nat.le_log2 (by omega)).mpr (Nat.le_trans (Nat.log2_self_le hm) h)
    calc nearest m ≤ 2 ^ 53 * spacing m := nearest_le
      _ = 2 ^ (53 + (Nat.log2 m - 52)) := (Nat.pow_add 2 53 _).symm
      _ ≤ 2 ^ (52 + (Nat.log2 n - 52)) := Nat.pow_le_pow_right (by decide) (by omega)
      _ = 2 ^ 52 * spacing n := Nat.pow_add 2 52 _
      _ ≤ nearest n := le_nearest (by omega)

/-! ## Integers of 64 bits -/

-- With the exponent as a variable the power is not evaluated.
theorem unitsPerOne_eq {k : Nat} (h : 1074 = k) : unitsPerOne = 2 ^ k := by
  delta unitsPerOne
  rw [h]
  rfl

theorem unitsPerOne_pos : 0 < unitsPerOne := by
  obtain ⟨k, hk⟩ : ∃ k : Nat, 1074 = k := ⟨1074, rfl⟩
  rw [unitsPerOne_eq hk]
  exact Nat.two_pow_pos k

/-- Integers of 64 bits are not too large for the format, and their units are rounded. -/
theorem exists_ofQuotient? (negative : Bool) {n : Nat} (h : n ≤ 2 ^ 64) :
    ∃ x, ofQuotient? negative n 1 = some x ∧ x.negative = negative ∧
      x.units = nearest (n * unitsPerOne) := by
  obtain ⟨k, hk⟩ : ∃ k : Nat, 1074 = k := ⟨1074, rfl⟩
  have hlog : Nat.log2 (n * unitsPerOne) < 64 + k + 1 := by
    by_cases hzero : n * unitsPerOne = 0
    · rw [hzero]
      exact Nat.succ_pos _
    · rw [Nat.log2_lt hzero, unitsPerOne_eq hk]
      calc n * 2 ^ k ≤ 2 ^ 64 * 2 ^ k := Nat.mul_le_mul_right _ h
        _ = 2 ^ (64 + k) := (Nat.pow_add 2 64 k).symm
        _ < 2 ^ (64 + k + 1) := Nat.pow_lt_pow_right (by decide) (Nat.lt_succ_self _)
  dsimp only [ofQuotient?]
  rw [Nat.div_one, Nat.one_mul]
  generalize n * unitsPerOne = scaled at hlog ⊢
  have hpow : Nat.pow 2 (Nat.log2 scaled - 52) = spacing scaled := rfl
  have hshift : Nat.log2 scaled - 52 + 1 ≤ maxShift := by
    dsimp only [maxShift]
    omega
  rw [hpow]
  by_cases hfull : roundQuotient scaled (spacing scaled) = Nat.pow 2 53
  · -- Rounded up to the power of two above, the significand is halved and the shift one more.
    have hunits : 2 ^ 52 * 2 ^ (Nat.log2 scaled - 52 + 1) = 2 ^ 53 * spacing scaled := by
      calc 2 ^ 52 * 2 ^ (Nat.log2 scaled - 52 + 1)
          = 2 ^ 52 * (2 * spacing scaled) := congrArg (2 ^ 52 * ·) Nat.pow_succ'
        _ = 2 ^ 53 * spacing scaled := (Nat.mul_assoc (2 ^ 52) 2 _).symm
    rw [if_pos hfull, if_pos hshift]
    exact ⟨_, rfl, rfl, hunits.trans (congrArg (· * spacing scaled) hfull.symm)⟩
  · rw [if_neg hfull, if_pos (Nat.le_of_succ_le hshift)]
    exact ⟨_, rfl, rfl, rfl⟩

theorem signedUnits_ofInt {n : Int} (h : n.natAbs ≤ 2 ^ 64) :
    (ofInt n).signedUnits =
      if n < 0 then -(nearest (n.natAbs * unitsPerOne) : Int)
      else nearest (n.natAbs * unitsPerOne) := by
  obtain ⟨x, hx, hnegative, hunits⟩ := exists_ofQuotient? (n < 0) h
  rw [ofInt, hx, Option.getD_some, signedUnits, hnegative, hunits]
  simp only [decide_eq_true_eq]

/-- Rounding keeps the order of integers. -/
theorem signedUnits_ofInt_mono {m n : Int} (hm : m.natAbs ≤ 2 ^ 64) (hn : n.natAbs ≤ 2 ^ 64)
    (h : m ≤ n) : (ofInt m).signedUnits ≤ (ofInt n).signedUnits := by
  rw [signedUnits_ofInt hm, signedUnits_ofInt hn]
  by_cases hm' : m < 0
  · by_cases hn' : n < 0
    · have hle : nearest (n.natAbs * unitsPerOne) ≤ nearest (m.natAbs * unitsPerOne) :=
        nearest_mono (Nat.mul_le_mul_right _ (by omega))
      rw [if_pos hm', if_pos hn']
      omega
    · rw [if_pos hm', if_neg hn']
      omega
  · have hle : nearest (m.natAbs * unitsPerOne) ≤ nearest (n.natAbs * unitsPerOne) :=
      nearest_mono (Nat.mul_le_mul_right _ (by omega))
    rw [if_neg hm', if_neg (by omega)]
    omega

/-- An integer up to `2 ^ 53` is a floating-point number itself. -/
theorem signedUnits_ofInt_of_small {n : Int} (h : n.natAbs ≤ 2 ^ 53) :
    (ofInt n).signedUnits = n * unitsPerOne := by
  have hdvd : spacing (n.natAbs * unitsPerOne) ∣ n.natAbs * unitsPerOne := by
    obtain ⟨k, hk⟩ : ∃ k : Nat, 1074 = k := ⟨1074, rfl⟩
    rw [unitsPerOne_eq hk]
    obtain hlt | heq := Nat.lt_or_eq_of_le h
    · -- Below `2 ^ 53` the grid is not coarser than one.
      have hlog : Nat.log2 (n.natAbs * 2 ^ k) - 52 ≤ k := by
        by_cases hzero : n.natAbs * 2 ^ k = 0
        · rw [hzero]
          exact Nat.zero_le _
        · have hbound : Nat.log2 (n.natAbs * 2 ^ k) < 53 + k := by
            rw [Nat.log2_lt hzero, Nat.pow_add]
            exact Nat.mul_lt_mul_of_pos_right hlt (Nat.two_pow_pos _)
          omega
      exact Nat.dvd_mul_left_of_dvd (Nat.pow_dvd_pow 2 hlog) _
    · rw [heq, ← Nat.pow_add, spacing, Nat.log2_two_pow]
      exact Nat.pow_dvd_pow 2 (Nat.sub_le _ _)
  rw [signedUnits_ofInt (by omega), nearest_of_dvd hdvd, Int.natCast_mul]
  by_cases hneg : n < 0
  · rw [if_pos hneg, ← Int.neg_mul]
    exact congrArg (· * (unitsPerOne : Int)) (by omega)
  · rw [if_neg hneg]
    exact congrArg (· * (unitsPerOne : Int)) (by omega)

/-- Different integers up to `2 ^ 53` are different floating-point numbers. -/
theorem eq_of_signedUnits_ofInt {m n : Int} (hm : m.natAbs ≤ 2 ^ 53) (hn : n.natAbs ≤ 2 ^ 53)
    (h : (ofInt m).signedUnits = (ofInt n).signedUnits) : m = n := by
  have hpos : (unitsPerOne : Int) ≠ 0 := Int.natCast_ne_zero.mpr (Nat.ne_of_gt unitsPerOne_pos)
  rw [signedUnits_ofInt_of_small hm, signedUnits_ofInt_of_small hn] at h
  exact Int.eq_of_mul_eq_mul_right hpos h

end MustachePath.Binary64
