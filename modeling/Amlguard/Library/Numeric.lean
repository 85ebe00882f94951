import Mathlib.Algebra.Order.Round
import Mathlib.Algebra.Order.Field.Rat
import Mathlib.Data.Rat.Floor
import Mathlib.Tactic.Linarith
import Mathlib.Tactic.Positivity
import Mathlib.Tactic.FieldSimp
import Mathlib.Tactic.Ring

/-!
# Decimal columns of fixed precision and scale

A column of type `NUMERIC(precision, scale)` stores a value rounded to its scale, halves
away from zero, and refuses one whose rounded magnitude needs more digits before the point
than the precision leaves.

Rounding is monotone and fixes the grid of representable values. It commutes with adding a
grid value as long as the other summand is not exactly halfway between two grid values.
-/

namespace Numeric

/-- The number of units of the scale nearest to a value, halves away from zero. -/
def units (scale : ℕ) (x : ℚ) : ℤ :=
  if 0 ≤ x then ⌊x * 10 ^ scale + 1 / 2⌋ else -⌊-x * 10 ^ scale + 1 / 2⌋

/-- A value rounded to a number of decimals. -/
def roundTo (scale : ℕ) (x : ℚ) : ℚ := units scale x / 10 ^ scale

/-- The rounded value has no more digits before the point than the precision leaves. -/
def Fits (precision scale : ℕ) (x : ℚ) : Prop := |roundTo scale x| < 10 ^ (precision - scale)

instance (precision scale : ℕ) (x : ℚ) : Decidable (Fits precision scale x) :=
  inferInstanceAs (Decidable (_ < _))

/-- What a column of the given precision and scale stores, if the value fits. -/
def store (precision scale : ℕ) (x : ℚ) : Option ℚ :=
  if Fits precision scale x then some (roundTo scale x) else none

/-- The value is a whole number of units of the scale. -/
def OnGrid (scale : ℕ) (x : ℚ) : Prop := ∃ n : ℤ, x * 10 ^ scale = n

/-- The value lies exactly halfway between two neighbouring values of the scale. -/
def Tie (scale : ℕ) (x : ℚ) : Prop := Int.fract (x * 10 ^ scale) = 1 / 2

instance (scale : ℕ) (x : ℚ) : Decidable (Tie scale x) :=
  inferInstanceAs (Decidable (_ = _))

private theorem pow_pos' (scale : ℕ) : (0 : ℚ) < 10 ^ scale := by positivity

/-- A stored value is the rounded one. -/
theorem store_eq_some {precision scale : ℕ} {x y : ℚ} (h : store precision scale x = some y) :
    y = roundTo scale x := by
  unfold store at h
  split at h
  · exact (Option.some.inj h).symm
  · cases h

/-- Rounded values lie on the grid. -/
theorem onGrid_roundTo (scale : ℕ) (x : ℚ) : OnGrid scale (roundTo scale x) :=
  ⟨units scale x, div_mul_cancel₀ _ (pow_pos' scale).ne'⟩

/-- A value that rounding leaves alone lies on the grid. -/
theorem onGrid_of_roundTo_eq {scale : ℕ} {x : ℚ} (h : roundTo scale x = x) : OnGrid scale x := by
  rw [← h]
  exact onGrid_roundTo scale x

/-- Zero lies on every grid. -/
theorem onGrid_zero (scale : ℕ) : OnGrid scale 0 := ⟨0, by simp⟩

/-- Grids are closed under addition. -/
theorem OnGrid.add {scale : ℕ} {x y : ℚ} (hx : OnGrid scale x) (hy : OnGrid scale y) :
    OnGrid scale (x + y) := by
  obtain ⟨m, hm⟩ := hx
  obtain ⟨n, hn⟩ := hy
  exact ⟨m + n, by rw [add_mul, hm, hn]; push_cast; ring⟩

/-- Grids are closed under negation. -/
theorem OnGrid.neg {scale : ℕ} {x : ℚ} (hx : OnGrid scale x) : OnGrid scale (-x) := by
  obtain ⟨m, hm⟩ := hx
  exact ⟨-m, by rw [neg_mul, hm]; push_cast; ring⟩

/-- Grids are closed under subtraction. -/
theorem OnGrid.sub {scale : ℕ} {x y : ℚ} (hx : OnGrid scale x) (hy : OnGrid scale y) :
    OnGrid scale (x - y) := by
  rw [sub_eq_add_neg]
  exact hx.add hy.neg

/-- A value of a coarse grid lies on every finer one. -/
theorem OnGrid.finer {scale scale' : ℕ} (h : scale ≤ scale') {x : ℚ} (hx : OnGrid scale x) :
    OnGrid scale' x := by
  obtain ⟨m, hm⟩ := hx
  refine ⟨m * 10 ^ (scale' - scale), ?_⟩
  have hpow : (10 : ℚ) ^ scale' = 10 ^ scale * 10 ^ (scale' - scale) := by
    rw [← pow_add, Nat.add_sub_cancel' h]
  rw [hpow, ← mul_assoc, hm]
  push_cast
  ring

/-- Rounding treats a value and its negation alike. -/
theorem roundTo_neg (scale : ℕ) (x : ℚ) : roundTo scale (-x) = -roundTo scale x := by
  unfold roundTo units
  rcases lt_trichotomy x 0 with hx | rfl | hx
  · rw [if_pos (by linarith), if_neg (by linarith)]
    push_cast
    ring
  · norm_num
  · rw [if_neg (by linarith), if_pos hx.le, neg_neg]
    push_cast
    ring

/-- Rounding fixes the values of the grid. -/
theorem roundTo_of_onGrid {scale : ℕ} {x : ℚ} (hx : OnGrid scale x) : roundTo scale x = x := by
  obtain ⟨n, hn⟩ := hx
  have hunits : units scale x = n := by
    have hfloor : ∀ m : ℤ, ⌊(m : ℚ) + 1 / 2⌋ = m := fun m => by
      rw [Int.floor_eq_iff]
      constructor <;> linarith
    unfold units
    split
    · rw [hn, hfloor]
    · have hneg : -x * 10 ^ scale = ((-n : ℤ) : ℚ) := by
        rw [neg_mul, hn]
        push_cast
        ring
      rw [hneg, hfloor, neg_neg]
  rw [roundTo, hunits, ← hn]
  exact mul_div_cancel_right₀ x (pow_pos' scale).ne'

/-- A nonnegative value has a nonnegative rounding. -/
theorem roundTo_nonneg {scale : ℕ} {x : ℚ} (hx : 0 ≤ x) : 0 ≤ roundTo scale x := by
  have hscaled : 0 ≤ x * 10 ^ scale := mul_nonneg hx (pow_pos' scale).le
  have hunits : 0 ≤ units scale x := by
    rw [units, if_pos hx]
    exact Int.floor_nonneg.mpr (by linarith)
  exact div_nonneg (by exact_mod_cast hunits) (pow_pos' scale).le

/-- Rounding keeps the order. -/
theorem roundTo_mono (scale : ℕ) {x y : ℚ} (h : x ≤ y) : roundTo scale x ≤ roundTo scale y := by
  have hpow := pow_pos' scale
  have hnonneg : ∀ {a b : ℚ}, 0 ≤ a → a ≤ b → roundTo scale a ≤ roundTo scale b := by
    intro a b ha hab
    have hfloor : ⌊a * 10 ^ scale + 1 / 2⌋ ≤ ⌊b * 10 ^ scale + 1 / 2⌋ :=
      Int.floor_le_floor (by linarith [mul_le_mul_of_nonneg_right hab hpow.le])
    rw [roundTo, roundTo, units, units, if_pos ha, if_pos (ha.trans hab)]
    exact div_le_div_of_nonneg_right (by exact_mod_cast hfloor) hpow.le
  rcases le_total 0 x with hx | hx
  · exact hnonneg hx h
  rcases le_total 0 y with hy | hy
  · have hneg : 0 ≤ roundTo scale (-x) := roundTo_nonneg (by linarith)
    rw [roundTo_neg] at hneg
    have hpos : 0 ≤ roundTo scale y := roundTo_nonneg hy
    linarith
  · have hflip := hnonneg (a := -y) (b := -x) (by linarith) (by linarith)
    rw [roundTo_neg, roundTo_neg] at hflip
    linarith

/-- A value at most a grid value still is after rounding. -/
theorem roundTo_le {scale : ℕ} {x g : ℚ} (hg : OnGrid scale g) (h : x ≤ g) :
    roundTo scale x ≤ g := by
  rw [← roundTo_of_onGrid hg]
  exact roundTo_mono scale h

/-- Away from ties the direction in which halves go does not matter. -/
theorem units_of_not_tie {scale : ℕ} {x : ℚ} (h : ¬Tie scale x) :
    units scale x = ⌊x * 10 ^ scale + 1 / 2⌋ := by
  unfold units
  split
  · rfl
  · rw [Tie] at h
    set y := x * 10 ^ scale with hy
    rw [show -x * 10 ^ scale = -y by rw [hy]; ring]
    have hlow := Int.fract_nonneg y
    have hhigh := Int.fract_lt_one y
    have hsplit := Int.floor_add_fract y
    rcases lt_or_gt_of_ne h with hlt | hgt
    · have hleft : ⌊-y + 1 / 2⌋ = -⌊y⌋ := by
        rw [Int.floor_eq_iff]
        push_cast
        constructor <;> linarith
      have hright : ⌊y + 1 / 2⌋ = ⌊y⌋ := by
        rw [Int.floor_eq_iff]
        constructor <;> linarith
      rw [hleft, hright, neg_neg]
    · have hleft : ⌊-y + 1 / 2⌋ = -⌊y⌋ - 1 := by
        rw [Int.floor_eq_iff]
        push_cast
        constructor <;> linarith
      have hright : ⌊y + 1 / 2⌋ = ⌊y⌋ + 1 := by
        rw [Int.floor_eq_iff]
        push_cast
        constructor <;> linarith
      rw [hleft, hright]
      ring

/-- Adding a grid value does not change whether a value is a tie. -/
theorem tie_add_iff {scale : ℕ} {g : ℚ} (hg : OnGrid scale g) (x : ℚ) :
    Tie scale (g + x) ↔ Tie scale x := by
  obtain ⟨n, hn⟩ := hg
  rw [Tie, Tie, add_mul, hn, Int.fract_intCast_add]

/-- A value is a tie exactly when its negation is. -/
theorem tie_neg_iff (scale : ℕ) (x : ℚ) : Tie scale (-x) ↔ Tie scale x := by
  have hone : ∀ y : ℚ, Tie scale y → Tie scale (-y) := by
    intro y hy
    rw [Tie] at hy ⊢
    rw [neg_mul, Int.fract_neg (by rw [hy]; norm_num), hy]
    norm_num
  exact ⟨fun h => by simpa using hone _ h, hone x⟩

/-- A grid value passes through rounding when the rest is not a tie. -/
theorem roundTo_add {scale : ℕ} {g x : ℚ} (hg : OnGrid scale g) (h : ¬Tie scale x) :
    roundTo scale (g + x) = g + roundTo scale x := by
  have hsum : ¬Tie scale (g + x) := fun ht => h ((tie_add_iff hg x).mp ht)
  obtain ⟨n, hn⟩ := hg
  have hgrid : g = n / 10 ^ scale := by
    rw [← hn]
    exact (mul_div_cancel_right₀ g (pow_pos' scale).ne').symm
  rw [roundTo, roundTo, units_of_not_tie hsum, units_of_not_tie h, add_mul, hn,
    add_assoc, Int.floor_intCast_add]
  push_cast
  rw [add_div, ← hgrid]

/-- A grid value passes through the rounding of a difference that is not a tie. -/
theorem roundTo_sub {scale : ℕ} {g x : ℚ} (hg : OnGrid scale g) (h : ¬Tie scale x) :
    roundTo scale (g - x) = g - roundTo scale x := by
  rw [sub_eq_add_neg, roundTo_add hg (fun ht => h ((tie_neg_iff scale x).mp ht)), roundTo_neg,
    sub_eq_add_neg]

/-- A value that rounds to the same on two grids is no tie of the coarser one. -/
theorem not_tie_of_roundTo_eq {scale scale' : ℕ} (hscale : scale < scale') {x : ℚ}
    (h : roundTo scale x = roundTo scale' x) : ¬Tie scale x := by
  intro htie
  have hfine : OnGrid scale' x := by
    -- half a unit of the coarser grid is five units, or more, of the finer one
    refine ⟨⌊x * 10 ^ scale⌋ * 10 ^ (scale' - scale) + 5 * 10 ^ (scale' - scale - 1), ?_⟩
    have hpow : (10 : ℚ) ^ scale' = 10 ^ scale * (10 ^ (scale' - scale - 1) * 10) := by
      rw [← pow_succ, ← pow_add]
      congr 1
      omega
    have hstep : (10 : ℚ) ^ (scale' - scale) = 10 ^ (scale' - scale - 1) * 10 := by
      rw [← pow_succ]
      congr 1
      omega
    have hsplit := Int.floor_add_fract (x * 10 ^ scale)
    rw [htie] at hsplit
    push_cast
    rw [hpow, hstep, ← mul_assoc, ← hsplit]
    simp only [Int.floor_intCast_add]
    norm_num
    ring
  rw [roundTo_of_onGrid hfine] at h
  obtain ⟨n, hn⟩ := onGrid_of_roundTo_eq h
  rw [Tie, hn, Int.fract_intCast] at htie
  norm_num at htie

example : roundTo 4 (1 / 20000) = 1 / 10000 ∧ roundTo 4 (-1 / 20000) = -1 / 10000 := by
  decide +kernel

end Numeric
