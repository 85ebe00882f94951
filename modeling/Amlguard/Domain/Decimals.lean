import Amlguard.Domain.Values
import Amlguard.Library.Decimal
import Amlguard.Library.Windows

/-!
# Decimal arithmetic

The default context of `decimal`: results have no more than twenty-eight digits, halves are rounded to
even, and a result beyond the greatest exponent raises an `Overflow`. Comparisons do not round.

Amounts are decimals of any length, so a sum of amounts may depend on their order. It does not as long as
the amounts are whole multiples of one place and come to no more than twenty-eight digits of it. Further
amounts do not make a sum smaller in any case.
-/

open Rounding

namespace Amlguard

theorem decimalPrecision_pos : 0 < 28 := by decide

/-- `decimal.DefaultContext`. -/
def decimalContext : Format where
  precision := 28
  tiny := -1000026
  emax := 999999
  precision_pos := decimalPrecision_pos

/-- An `Overflow` of decimal arithmetic. -/
def decimalOverflow : PyError :=
  { typeName := "Overflow", bases := ["Inexact", "Rounded", "DecimalException", "ArithmeticError"] }

end Amlguard

namespace Decimal

open Amlguard

/-- `a * b`. -/
def times (a b : Decimal) : Except PyError Decimal := orRaise (decimalContext.mul a b) decimalOverflow

/-- `a / b`. -/
def dividedBy (a b : Decimal) : Except PyError Decimal :=
  if b.digits = 0 then
    .error (if a.digits = 0 then invalidOperation
      else { typeName := "DivisionByZero", bases := ["DecimalException", "ZeroDivisionError", "ArithmeticError"] })
  else orRaise (decimalContext.div a b) decimalOverflow

/-- `sum(items, Decimal("0"))`. -/
def total (items : List Decimal) : Except PyError Decimal :=
  orRaise (decimalContext.sum (ofNat 0) items) decimalOverflow

/-- `a.quantize(Decimal("0.01"))`. -/
def quantizeCents (a : Decimal) : Except PyError Decimal :=
  orRaise (decimalContext.quantize a (-2)) invalidOperation

/-- `Decimal("0.80")`. -/
def eighty : Decimal := ⟨false, 80, -2⟩

@[simp] theorem value_eighty : eighty.value = 80 / 100 := by
  norm_num [eighty, value, signed, ten]

variable {a b : Decimal} {items : List Decimal}

/-- A number has a value other than zero exactly when it has a digit. -/
theorem value_pos_digits (h : 0 < b.value) : b.digits ≠ 0 := by
  intro hzero
  simp [value, signed, hzero] at h

/-- A product is rounded. -/
theorem value_times {c : Decimal} (h : a.times b = .ok c) :
    c.value = decimalContext.nearest (a.value * b.value) := by
  have hmade := orRaise_eq_ok.mp h
  have hvalue := @Format.value_mul decimalContext a b
  rw [hmade] at hvalue
  exact Format.round_eq_some hvalue.symm

/-- A quotient is rounded. -/
theorem value_dividedBy {c : Decimal} (h : a.dividedBy b = .ok c) :
    c.value = decimalContext.nearest (a.value / b.value) := by
  unfold dividedBy at h
  split at h
  · cases h
  · have hvalue := @Format.value_div decimalContext a b
    rw [orRaise_eq_ok.mp h] at hvalue
    exact Format.round_eq_some hvalue.symm

/-- A product up to the greatest exponent can be made. -/
theorem exists_times (hpos : 0 ≤ a.value * b.value) (hle : a.value * b.value ≤ ten 999999) :
    ∃ c, a.times b = .ok c ∧ c.value = decimalContext.nearest (a.value * b.value) := by
  obtain ⟨c, hmade, hvalue⟩ := Format.exists_of_round (Format.value_mul a b)
    (@Format.exists_round decimalContext _ (by decide) hpos hle)
  exact ⟨c, orRaise_eq_ok.mpr hmade, hvalue⟩

/-- A quotient up to the greatest exponent can be made. -/
theorem exists_dividedBy (hb : 0 < b.value) (hpos : 0 ≤ a.value / b.value)
    (hle : a.value / b.value ≤ ten 999999) :
    ∃ c, a.dividedBy b = .ok c ∧ c.value = decimalContext.nearest (a.value / b.value) := by
  obtain ⟨c, hmade, hvalue⟩ := Format.exists_of_round (Format.value_div a b)
    (@Format.exists_round decimalContext _ (by decide) hpos hle)
  refine ⟨c, ?_, hvalue⟩
  rw [dividedBy, if_neg (value_pos_digits hb)]
  exact orRaise_eq_ok.mpr hmade

/-- Further amounts do not make a total smaller, even where it is rounded. -/
theorem total_le_of_sublist {items' : List Decimal} {sum sum' : Decimal} (hsub : items.Sublist items')
    (hpos : ∀ d ∈ items', 0 ≤ d.value) (h : total items = .ok sum) (h' : total items' = .ok sum') :
    sum.value ≤ sum'.value := by
  have hzero : (ofNat 0).value = 0 := by simp
  refine Format.sum_mono hsub hpos hzero.ge le_rfl ?_ (orRaise_eq_ok.mp h) (orRaise_eq_ok.mp h')
  rw [hzero, Format.nearest_zero]

/-- A total is below the power of ten after the greatest exponent. -/
theorem total_lt_ten {sum : Decimal} (h : total items = .ok sum) : sum.value < ten 1000000 := by
  apply Format.sum_lt _ (orRaise_eq_ok.mp h)
  rw [value_ofNat, Nat.cast_zero]
  exact ten_pos _

/-- A total of less than twenty-eight digits before the point is off by no more than one half for each
amount. -/
theorem exists_total_near (hitems : ∀ d ∈ items, 0 ≤ d.value)
    (hroom : (items.map value).sum + items.length < 10 ^ 28) :
    ∃ sum, total items = .ok sum ∧ (items.map value).sum - items.length / 2 ≤ sum.value ∧
      sum.value ≤ (items.map value).sum + items.length / 2 := by
  have hzero : (ofNat 0).value = 0 := by simp
  have hunit : ten 0 / 2 = 1 / 2 := by simp [ten]
  have hlarge : ten (0 + (28 : ℕ)) = 10 ^ 28 := by rw [zero_add, ten_natCast]; norm_num
  have hcount : (0 : ℚ) ≤ items.length := Nat.cast_nonneg _
  obtain ⟨sum, hmade, hlow, hhigh⟩ := @Format.sum_near decimalContext (ofNat 0) items 0 (by decide)
    (by decide) hzero.ge hitems (by
      change _ < ten (0 + (28 : ℕ))
      rw [hzero, hunit, hlarge]
      linarith)
  rw [hzero, hunit] at hlow hhigh
  refine ⟨sum, orRaise_eq_ok.mpr hmade, ?_, ?_⟩
  · linarith
  · linarith

/-- Eighty percent of an amount of less than twenty-eight digits before the point is off by no more than
one half. -/
theorem exists_eighty_near (ha : 0 ≤ a.value) (hlt : a.value < 10 ^ 28) :
    ∃ c, a.times eighty = .ok c ∧ c.value ≤ a.value * (80 / 100) + 1 / 2 := by
  have hlarge : ten (0 + (28 : ℕ)) = 10 ^ 28 := by rw [zero_add, ten_natCast]; norm_num
  have hpos : 0 ≤ a.value * eighty.value := mul_nonneg ha (by norm_num)
  have hless : a.value * eighty.value ≤ a.value := by
    rw [value_eighty]
    exact mul_le_of_le_one_right ha (by norm_num)
  have hten : (10 : ℚ) ^ 28 ≤ ten 999999 := by
    rw [← zpow_natCast]
    exact zpow_le_zpow_right₀ (by norm_num) (by norm_num)
  obtain ⟨c, hmade, hvalue⟩ := exists_times hpos (hless.trans (hlt.le.trans hten))
  have hnear := (@Format.nearest_near decimalContext _ 0
    ((abs_of_nonneg hpos).trans_lt ((hless.trans_lt hlt).trans_eq hlarge.symm)) (by decide)).2
  refine ⟨c, hmade, hvalue.trans_le (hnear.trans_eq ?_)⟩
  rw [value_eighty]
  simp [ten]

/-- Amounts are whole multiples of one place and come to no more than so many digits of it. -/
def AddedExactly (digits : ℕ) (items : List Decimal) : Prop :=
  ∃ place : ℤ, -1000026 < place ∧ place ≤ 999972 ∧ (∀ d ∈ items, ∃ n : ℕ, d.value = n * ten place) ∧
    (items.map value).sum < ten (place + digits)

variable {digits : ℕ} {chosen : List Decimal}

/-- Fewer amounts are added exactly as well. -/
theorem AddedExactly.mono (h : AddedExactly digits items) (hsub : chosen.Subperm items) :
    AddedExactly digits chosen := by
  obtain ⟨place, hlow, hhigh, hitems, hsum⟩ := h
  refine ⟨place, hlow, hhigh, fun d hd => hitems d (hsub.subset hd), lt_of_le_of_lt ?_ hsum⟩
  apply Windows.sum_map_le hsub
  intro d hd
  obtain ⟨n, hn⟩ := hitems d hd
  rw [hn]
  exact mul_nonneg (Nat.cast_nonneg n) (ten_pos place).le

/-- Amounts that are added exactly come to their sum. -/
theorem AddedExactly.exists_total (h : AddedExactly digits items) (hdigits : digits ≤ 28) :
    ∃ sum, total items = .ok sum ∧ sum.value = (items.map value).sum := by
  obtain ⟨place, hlow, hhigh, hitems, hsum⟩ := h
  have hzero : (ofNat 0).value = 0 := by simp
  have hlt : (ofNat 0).value + (items.map value).sum < ten (place + 28) := by
    rw [hzero, zero_add]
    exact hsum.trans_le (zpow_le_zpow_right₀ (by norm_num) (by omega))
  obtain ⟨sum, hmade, hvalue⟩ := @Format.sum_exact decimalContext (ofNat 0) items place
    hlow.le (by change place + 28 ≤ 999999 + 1; omega) ⟨0, by simp⟩ hitems hlt
  rw [hzero, zero_add] at hvalue
  exact ⟨sum, orRaise_eq_ok.mpr hmade, hvalue⟩

/-- Eighty percent of an amount with a digit to spare. -/
theorem AddedExactly.exists_eighty (h : AddedExactly 27 items) (ha : a ∈ items) :
    ∃ c, a.times eighty = .ok c ∧ c.value = a.value * (80 / 100) := by
  obtain ⟨place, hlow, hhigh, hitems, hsum⟩ := h.mono (List.singleton_subperm_iff.mpr ha)
  obtain ⟨n, hn⟩ := hitems a (List.mem_singleton_self a)
  rw [List.map_singleton, List.sum_singleton] at hsum
  have hproduct : a.value * eighty.value = ((8 * n : ℕ) : ℤ) * ten (place - 1) := by
    have hplace : ten place = ten (place - 1) * 10 := by
      have hadd := ten_add (place - 1) 1
      rw [Int.sub_add_cancel] at hadd
      simpa [ten] using hadd
    rw [hn, value_eighty, hplace]
    push_cast
    ring
  have hpos : 0 ≤ a.value := by
    rw [hn]
    exact mul_nonneg (Nat.cast_nonneg n) (ten_pos place).le
  have hbound : ten (place + 27) ≤ ten 999999 := zpow_le_zpow_right₀ (by norm_num) (by omega)
  have hless : a.value * eighty.value ≤ a.value := by
    rw [value_eighty]
    exact mul_le_of_le_one_right hpos (by norm_num)
  obtain ⟨c, hmade, hvalue⟩ := @exists_times a eighty (mul_nonneg hpos (by norm_num))
    (hless.trans (hsum.le.trans hbound))
  refine ⟨c, hmade, hvalue.trans ?_⟩
  have hrepresentable : decimalContext.Representable (a.value * eighty.value) := by
    refine ⟨_, place - 1, ?_, by change -1000026 ≤ place - 1; omega, hproduct⟩
    rw [hn, add_comm, ten_add] at hsum
    have hn' : n < 10 ^ 27 := by
      have hlt := lt_of_mul_lt_mul_right hsum (ten_pos place).le
      rw [show ten ((27 : ℕ) : ℤ) = _ from ten_natCast 27] at hlt
      exact_mod_cast hlt
    rw [abs_of_nonneg (Int.natCast_nonneg _)]
    change ((8 * n : ℕ) : ℤ) < 10 ^ 28
    omega
  rw [hrepresentable.nearest_eq, value_eighty]

end Decimal
