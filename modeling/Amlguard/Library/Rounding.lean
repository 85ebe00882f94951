import Mathlib.Algebra.Order.Archimedean.Basic
import Mathlib.Algebra.Order.Round
import Mathlib.Data.Int.Log
import Mathlib.Data.Rat.Floor
import Mathlib.Tactic.Linarith
import Mathlib.Tactic.Positivity
import Mathlib.Tactic.Ring

/-!
# Rounding to a number of digits

Decimal floating-point arithmetic computes a result exactly and keeps a number of its digits, halves to
even, unless the result is beyond the greatest exponent. Values that have no more digits are kept as they
are, rounding respects the order, and a result is off by no more than half a unit of its last place.
-/

namespace Rounding

/-- The integer nearest to a value, and the even one of two. -/
def roundHalfEven (x : ℚ) : ℤ :=
  if x - ⌊x⌋ < 1 / 2 then ⌊x⌋
  else if 1 / 2 < x - ⌊x⌋ then ⌊x⌋ + 1
  else if ⌊x⌋ % 2 = 0 then ⌊x⌋ else ⌊x⌋ + 1

/-- A whole number is rounded to itself. -/
theorem roundHalfEven_intCast (n : ℤ) : roundHalfEven n = n := by
  simp [roundHalfEven]

/-- A value is rounded to one of its two neighbours. -/
theorem roundHalfEven_neighbour (x : ℚ) :
    ⌊x⌋ ≤ roundHalfEven x ∧ roundHalfEven x ≤ ⌊x⌋ + 1 := by
  unfold roundHalfEven
  split
  · omega
  · split
    · omega
    · split <;> omega

/-- Rounding moves a value by no more than one half. -/
theorem roundHalfEven_near (x : ℚ) :
    x - 1 / 2 ≤ roundHalfEven x ∧ roundHalfEven x ≤ x + 1 / 2 := by
  have hlow := Int.floor_le x
  have hhigh := Int.lt_floor_add_one x
  unfold roundHalfEven
  split
  · constructor <;> linarith
  · split
    · push_cast
      constructor <;> linarith
    · split
      · constructor <;> linarith
      · push_cast
        constructor <;> linarith

/-- Rounding respects the order. -/
theorem roundHalfEven_mono {x y : ℚ} (h : x ≤ y) : roundHalfEven x ≤ roundHalfEven y := by
  rcases (Int.floor_mono h).lt_or_eq with hlt | heq
  · have hx := (roundHalfEven_neighbour x).2
    have hy := (roundHalfEven_neighbour y).1
    omega
  · unfold roundHalfEven
    rw [← heq]
    have hfract : x - ⌊x⌋ ≤ y - ⌊x⌋ := by linarith
    split_ifs <;> first | omega | linarith

/-- How many digits are kept, the least exponent of a last place, and the greatest exponent of a first
place. -/
structure Format where
  precision : ℕ
  tiny : ℤ
  emax : ℤ
  precision_pos : 0 < precision

variable {F : Format} {x y : ℚ}

/-- A power of ten. -/
abbrev ten (e : ℤ) : ℚ := (10 : ℚ) ^ e

theorem ten_pos (e : ℤ) : 0 < ten e := zpow_pos (by norm_num) e

theorem ten_add (a b : ℤ) : ten (a + b) = ten a * ten b := zpow_add₀ (by norm_num) a b

theorem ten_natCast (n : ℕ) : ten n = ((10 ^ n : ℤ) : ℚ) := by
  rw [ten, zpow_natCast]
  push_cast
  rfl

/-- A power of ten with no negative exponent is a whole number. -/
theorem ten_of_le {a b : ℤ} (h : a ≤ b) : ten b = ((10 ^ (b - a).toNat : ℤ) : ℚ) * ten a := by
  rw [← ten_natCast, ← ten_add]
  congr 1
  omega

namespace Format

variable (F)

/-- The exponent of the last place that is kept of a value. -/
def lastPlace (x : ℚ) : ℤ := max (Int.log 10 |x| + 1 - F.precision) F.tiny

/-- The value with as many digits as are kept. -/
def nearest (x : ℚ) : ℚ := roundHalfEven (x / ten (F.lastPlace x)) * ten (F.lastPlace x)

/-- The rounded value, unless it is beyond the greatest exponent. -/
def round (x : ℚ) : Option ℚ := if |F.nearest x| < ten (F.emax + 1) then some (F.nearest x) else none

/-- The value has no more digits than are kept. -/
def Representable (x : ℚ) : Prop := ∃ n e : ℤ, |n| < 10 ^ F.precision ∧ F.tiny ≤ e ∧ x = n * ten e

variable {F}

/-- A positive value is below the power of ten after its first place. -/
theorem lt_ten_iff (hx : x ≠ 0) (e : ℤ) : |x| < ten e ↔ Int.log 10 |x| < e :=
  Int.lt_zpow_iff_log_lt (by norm_num) (abs_pos.mpr hx)

theorem ten_le_iff (hx : x ≠ 0) (e : ℤ) : ten e ≤ |x| ↔ e ≤ Int.log 10 |x| :=
  Int.zpow_le_iff_le_log (by norm_num) (abs_pos.mpr hx)

/-- A value is less than the power of ten that is as far above its last place as digits are kept. -/
theorem lt_ten_lastPlace (x : ℚ) : |x| < ten (F.lastPlace x + F.precision) := by
  by_cases hx : x = 0
  · rw [hx, abs_zero]
    exact ten_pos _
  · rw [lt_ten_iff hx, lastPlace]
    omega

/-- A bound on a value bounds its last place. -/
theorem lastPlace_le {e : ℤ} (hx : x ≠ 0) (hlt : |x| < ten (e + F.precision)) (htiny : F.tiny ≤ e) :
    F.lastPlace x ≤ e := by
  rw [lt_ten_iff hx] at hlt
  rw [lastPlace]
  omega

@[simp] theorem nearest_zero : F.nearest 0 = 0 := by
  have h := roundHalfEven_intCast 0
  simp only [nearest, zero_div]
  rw [Int.cast_zero] at h
  rw [h, Int.cast_zero, zero_mul]

/-- A whole multiple of its last place is kept. -/
theorem nearest_of_multiple {e n : ℤ} (he : F.lastPlace x ≤ e) (hx : x = n * ten e) :
    F.nearest x = x := by
  have hpos := (ten_pos (F.lastPlace x)).ne'
  have hquotient : x / ten (F.lastPlace x) = ((n * 10 ^ (e - F.lastPlace x).toNat : ℤ) : ℚ) := by
    rw [div_eq_iff hpos]
    conv_lhs => rw [hx, ten_of_le he]
    push_cast
    ring
  rw [nearest, hquotient, roundHalfEven_intCast, ← hquotient, div_mul_cancel₀ _ hpos]

/-- A value that has no more digits than are kept is kept. -/
theorem Representable.nearest_eq (h : F.Representable x) : F.nearest x = x := by
  obtain ⟨n, e, hn, he, hx⟩ := h
  by_cases hzero : x = 0
  · rw [hzero, nearest_zero]
  · apply nearest_of_multiple _ hx
    apply lastPlace_le hzero _ he
    rw [hx, abs_mul, abs_of_pos (ten_pos e), add_comm, ten_add, ten_natCast]
    apply mul_lt_mul_of_pos_right _ (ten_pos e)
    exact_mod_cast hn

/-- A result is off by no more than half a unit of its last place. -/
theorem nearest_near {e : ℤ} (hlt : |x| < ten (e + F.precision)) (htiny : F.tiny ≤ e) :
    x - ten e / 2 ≤ F.nearest x ∧ F.nearest x ≤ x + ten e / 2 := by
  have hpos := ten_pos e
  by_cases hzero : x = 0
  · rw [hzero, nearest_zero]
    constructor <;> linarith
  · have hunit : ten (F.lastPlace x) ≤ ten e :=
      zpow_le_zpow_right₀ (by norm_num) (lastPlace_le hzero hlt htiny)
    have hplace := ten_pos (F.lastPlace x)
    obtain ⟨hlow, hhigh⟩ := roundHalfEven_near (x / ten (F.lastPlace x))
    have hcancel : x / ten (F.lastPlace x) * ten (F.lastPlace x) = x := div_mul_cancel₀ _ hplace.ne'
    have hbelow := mul_le_mul_of_nonneg_right hlow hplace.le
    have habove := mul_le_mul_of_nonneg_right hhigh hplace.le
    unfold nearest
    constructor
    · linarith
    · linarith

/-- What is kept of a value that is not negative is not negative. -/
theorem nearest_nonneg (hx : 0 ≤ x) : 0 ≤ F.nearest x := by
  have h := roundHalfEven_mono (div_nonneg hx (ten_pos (F.lastPlace x)).le)
  have hzero := roundHalfEven_intCast 0
  rw [Int.cast_zero] at hzero
  rw [hzero] at h
  exact mul_nonneg (by exact_mod_cast h) (ten_pos _).le

/-- Rounding at one place respects a bound that is a multiple of the place. -/
theorem nearest_le_of_multiple {e n : ℤ} (he : F.lastPlace x ≤ e) (h : x ≤ n * ten e) :
    F.nearest x ≤ n * ten e := by
  have hplace := ten_pos (F.lastPlace x)
  have hwhole : n * ten e = ((n * 10 ^ (e - F.lastPlace x).toNat : ℤ) : ℚ) * ten (F.lastPlace x) := by
    rw [ten_of_le he]
    push_cast
    ring
  rw [hwhole] at h ⊢
  have hquotient := roundHalfEven_mono ((div_le_iff₀ hplace).mpr h)
  rw [roundHalfEven_intCast] at hquotient
  exact mul_le_mul_of_nonneg_right (by exact_mod_cast hquotient) hplace.le

theorem le_nearest_of_multiple {e n : ℤ} (he : F.lastPlace x ≤ e) (h : n * ten e ≤ x) :
    n * ten e ≤ F.nearest x := by
  have hplace := ten_pos (F.lastPlace x)
  have hwhole : n * ten e = ((n * 10 ^ (e - F.lastPlace x).toNat : ℤ) : ℚ) * ten (F.lastPlace x) := by
    rw [ten_of_le he]
    push_cast
    ring
  rw [hwhole] at h ⊢
  have hquotient := roundHalfEven_mono ((le_div_iff₀ hplace).mpr h)
  rw [roundHalfEven_intCast] at hquotient
  exact mul_le_mul_of_nonneg_right (by exact_mod_cast hquotient) hplace.le

/-- Rounding respects the order. -/
theorem nearest_mono (hx : 0 ≤ x) (h : x ≤ y) : F.nearest x ≤ F.nearest y := by
  rcases hx.eq_or_lt with rfl | hpos
  · rw [nearest_zero]
    exact nearest_nonneg h
  have hypos := hpos.trans_le h
  have hlog : Int.log 10 |x| ≤ Int.log 10 |y| := by
    rw [abs_of_pos hpos, abs_of_pos hypos]
    exact Int.log_mono_right hpos h
  have hplace : F.lastPlace x ≤ F.lastPlace y := by
    unfold lastPlace
    omega
  rcases hplace.eq_or_lt with heq | hlt
  · have hquotient := div_le_div_of_nonneg_right h (ten_pos (F.lastPlace x)).le
    have hround := roundHalfEven_mono hquotient
    unfold nearest
    rw [← heq]
    exact mul_le_mul_of_nonneg_right (by exact_mod_cast hround) (ten_pos _).le
  · -- a power of ten lies between the values, and both last places are below it
    have hprecision := F.precision_pos
    have hbetween : Int.log 10 |x| < Int.log 10 |y| ∧ F.lastPlace y ≤ Int.log 10 |y| := by
      unfold lastPlace at hlt ⊢
      omega
    have hlower : ten (Int.log 10 |y|) ≤ y := by
      have hle := (ten_le_iff hypos.ne' (Int.log 10 |y|)).mpr le_rfl
      exact hle.trans_eq (abs_of_pos hypos)
    have hupper : x ≤ ten (Int.log 10 |y|) := by
      have hlt' := (lt_ten_iff hpos.ne' (Int.log 10 |y|)).mpr hbetween.1
      exact (abs_of_pos hpos).symm.trans_le hlt'.le
    have hle := @nearest_le_of_multiple F x (Int.log 10 |y|) 1 (by omega) (by simpa using hupper)
    have hge := @le_nearest_of_multiple F y (Int.log 10 |y|) 1 hbetween.2 (by simpa using hlower)
    exact hle.trans hge

/-- What is kept has no more digits than are kept. -/
theorem representable_nearest (x : ℚ) : F.Representable (F.nearest x) := by
  have hplace := ten_pos (F.lastPlace x)
  have hlt : |x / ten (F.lastPlace x)| < ((10 ^ F.precision : ℤ) : ℚ) := by
    rw [abs_div, abs_of_pos hplace, div_lt_iff₀ hplace, ← ten_natCast, ← ten_add, add_comm]
    exact lt_ten_lastPlace x
  have hbounds := abs_lt.mp hlt
  have hlow := roundHalfEven_mono hbounds.1.le
  have hhigh := roundHalfEven_mono hbounds.2.le
  rw [← Int.cast_neg, roundHalfEven_intCast] at hlow
  rw [roundHalfEven_intCast] at hhigh
  have htiny : F.tiny ≤ F.lastPlace x := le_max_right _ _
  have hone : (1 : ℤ) < 10 ^ F.precision := one_lt_pow₀ (by norm_num) F.precision_pos.ne'
  -- a result of one more digit is a power of ten
  have hcarry : ((10 ^ F.precision : ℤ) : ℚ) * ten (F.lastPlace x) =
      1 * ten (F.lastPlace x + F.precision) := by
    rw [add_comm (F.lastPlace x), ten_add, ten_natCast, one_mul]
  rcases hhigh.eq_or_lt with heq | hhigh
  · refine ⟨1, F.lastPlace x + F.precision, by simpa using hone, by omega, ?_⟩
    rw [nearest, heq, hcarry, Int.cast_one]
  · rcases hlow.eq_or_lt with heq | hlow
    · refine ⟨-1, F.lastPlace x + F.precision, by simpa using hone, by omega, ?_⟩
      rw [nearest, ← heq, Int.cast_neg, neg_mul, hcarry, Int.cast_neg, Int.cast_one]
      ring
    · exact ⟨_, F.lastPlace x, abs_lt.mpr ⟨hlow, hhigh⟩, htiny, rfl⟩

/-- A value that has no more digits than are kept is kept, unless it is too large. -/
theorem Representable.round_eq (h : F.Representable x) (hlt : |x| < ten (F.emax + 1)) :
    F.round x = some x := by
  rw [round, h.nearest_eq, if_pos hlt]

/-- A value up to the greatest exponent can be rounded. -/
theorem exists_round (htiny : F.tiny ≤ F.emax) (hx : 0 ≤ x) (hle : x ≤ ten F.emax) :
    F.round x = some (F.nearest x) := by
  have hprecision := F.precision_pos
  have hlarge : ten F.emax < ten (F.emax + 1) := zpow_lt_zpow_right₀ (by norm_num) (by omega)
  rw [round, if_pos]
  rw [abs_of_nonneg (nearest_nonneg hx)]
  by_cases hzero : x = 0
  · rw [hzero, nearest_zero]
    exact ten_pos _
  · have hlog := (lt_ten_iff hzero (F.emax + 1)).mp ((abs_of_nonneg hx).trans_lt (hle.trans_lt hlarge))
    have hplace : F.lastPlace x ≤ F.emax := by
      unfold lastPlace
      omega
    have hbound := @nearest_le_of_multiple F x F.emax 1 hplace (by simpa using hle)
    rw [Int.cast_one, one_mul] at hbound
    exact hbound.trans_lt hlarge

/-- A rounded value is the nearest one. -/
theorem round_eq_some (h : F.round x = some y) : y = F.nearest x := by
  unfold round at h
  split at h
  · exact (Option.some.inj h).symm
  · cases h

/-- A rounded value is below the power of ten after the greatest exponent. -/
theorem lt_of_round_eq (h : F.round x = some y) : |y| < ten (F.emax + 1) := by
  unfold round at h
  split at h
  · rename_i hlt
    rwa [← Option.some.inj h]
  · cases h

end Format

end Rounding
