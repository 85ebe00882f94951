import Amlguard.Simulation.Detection
import Amlguard.Simulation.Injection
import Mathlib.Tactic.NormNum

/-!
# What the families inject

Each family injects a credit with or without three debits after it, or a row of equal credits. Which rules
find their pattern there depends on the family, on the amount in cents, and on the number of credits; it
does not depend on the bank.
-/

namespace Amlguard.Simulation

open Decimal (eighty)
open Rounding

/-- An amount in whole cents. -/
def cents (amount : ℚ) : ℚ := roundHalfEven (amount * 100) / 100

/-- A transaction can be made of the amount. -/
def ValidAmount (amount : ℚ) : Prop := |roundHalfEven (amount * 100)| < 10 ^ 28 ∧ 0 < cents amount

/-- A third of an amount, to twenty-eight digits. -/
def third (amount : ℚ) : ℚ := decimalContext.nearest (amount / 3)

section Cents

/-- Whole cents are near the amount. -/
theorem cents_near (amount : ℚ) : amount - 1 / 200 ≤ cents amount ∧ cents amount ≤ amount + 1 / 200 := by
  have h := roundHalfEven_near (amount * 100)
  unfold cents
  constructor
  · linarith [h.1]
  · linarith [h.2]

/-- A whole amount stays as it is. -/
theorem cents_natCast (n : ℕ) : cents n = n := by
  have h : ((n : ℚ) * 100) = ((n * 100 : ℤ) : ℚ) := by push_cast; ring
  rw [cents, h, roundHalfEven_intCast]
  push_cast
  exact mul_div_cancel_right₀ _ (by norm_num)

/-- A positive amount in whole cents is a natural multiple of a cent. -/
theorem exists_cents {amount : ℚ} (h : 0 < cents amount) : ∃ n : ℕ, cents amount = n * ten (-2) := by
  have hpos : 0 ≤ roundHalfEven (amount * 100) := by
    unfold cents at h
    exact_mod_cast (div_pos_iff_of_pos_right (by norm_num)).mp h |>.le
  obtain ⟨n, hn⟩ := Int.eq_ofNat_of_zero_le hpos
  refine ⟨n, ?_⟩
  rw [cents, hn]
  norm_num [ten, div_eq_mul_inv]

/-- Whole cents are what is left of an amount that is quantized. -/
theorem quantizeCents_eq_ok {amount q : Decimal} (h : amount.quantizeCents = .ok q) :
    |roundHalfEven (amount.value * 100)| < 10 ^ 28 ∧ q.value = cents amount.value := by
  have hcent : amount.value / ten (-2) = amount.value * 100 := by
    norm_num [ten, div_eq_mul_inv]
  obtain ⟨hdigits, hvalue⟩ := Format.quantize_eq_some (orRaise_eq_ok.mp h)
  rw [hcent] at hdigits hvalue
  refine ⟨hdigits, hvalue.trans ?_⟩
  norm_num [cents, ten, div_eq_mul_inv]

/-- An amount can be quantized when its cents have no more than twenty-eight digits. -/
theorem exists_quantizeCents {amount : Decimal} (h : |roundHalfEven (amount.value * 100)| < 10 ^ 28) :
    ∃ q, amount.quantizeCents = .ok q := by
  have hcent : amount.value / ten (-2) = amount.value * 100 := by
    norm_num [ten, div_eq_mul_inv]
  rw [← hcent] at h
  obtain ⟨q, hq⟩ := @Format.exists_quantize decimalContext amount (-2) h
  exact ⟨q, orRaise_eq_ok.mpr hq⟩

/-- A valid amount is positive and has no more than twenty-six digits before the point. -/
theorem ValidAmount.bounds {amount : ℚ} (h : ValidAmount amount) : 0 < amount ∧ amount < 10 ^ 27 := by
  constructor
  · by_contra hnot
    have hround := roundHalfEven_mono (mul_nonpos_of_nonpos_of_nonneg (not_lt.mp hnot) (by norm_num : (0 : ℚ) ≤ 100))
    have hzero := roundHalfEven_intCast 0
    rw [Int.cast_zero] at hzero
    rw [hzero] at hround
    have hcents : cents amount ≤ 0 := div_nonpos_of_nonpos_of_nonneg (by exact_mod_cast hround) (by norm_num)
    exact absurd h.2 (not_lt.mpr hcents)
  · have hlt : (roundHalfEven (amount * 100) : ℚ) < 10 ^ 28 := by
      exact_mod_cast (abs_lt.mp h.1).2
    have hnear := (roundHalfEven_near (amount * 100)).1
    linarith

/-- A third of a valid amount can be made. -/
theorem exists_third {amount : Decimal} (h : ValidAmount amount.value) :
    ∃ made, amount.dividedBy (.ofNat 3) = .ok made ∧ made.value = third amount.value := by
  obtain ⟨hpos, hlt⟩ := h.bounds
  have hten : (10 : ℚ) ^ 27 ≤ ten 999999 := by
    rw [← zpow_natCast]
    exact zpow_le_zpow_right₀ (by norm_num) (by norm_num)
  have hvalue : amount.value / (Decimal.ofNat 3).value = amount.value / 3 := by simp
  rw [third, ← hvalue]
  apply Decimal.exists_dividedBy
  · simp
  · rw [hvalue]
    exact div_nonneg hpos.le (by norm_num)
  · rw [hvalue]
    exact (div_le_self hpos.le (by norm_num)).trans (hlt.le.trans hten)

end Cents

section Shapes

/-- A transaction of the customer with a direction and an amount. -/
structure IsItem (customerId direction : String) (amount : ℚ) (item : SyntheticTransaction) : Prop where
  customerId : item.customerId = customerId
  direction : item.direction = direction
  amount : item.amount.value = amount

/-- Three debits of an amount, within three hours. -/
structure AreDebits (customerId : String) (base : Datetime) (amount : ℚ)
    (items : List SyntheticTransaction) : Prop where
  length : items.length = 3
  item : ∀ item ∈ items, IsItem customerId "debit" amount item
  booked : ∀ item ∈ items, base ≤ item.bookedAt ∧ item.bookedAt ≤ base + second * (3600 * 3)

/-- Credits of an amount, one every twelve hours. -/
def AreCredits (customerId : String) (base : Datetime) (amount : ℚ) (count : ℕ)
    (items : List SyntheticTransaction) : Prop :=
  List.Forall₂ (fun index item => IsItem customerId "credit" amount item ∧
    item.bookedAt = base + second * (3600 * (index * 12)) ∧ item.bookedAt ≤ datetimeMax)
    (List.range count) items

/-- The transactions that a family injects for a customer. -/
inductive Shape (scenario : ScenarioDefinition) (customerId : String) :
    List SyntheticTransaction → Prop where
  | rapid (first : SyntheticTransaction) (outgoing : List SyntheticTransaction)
      (family : scenario.pattern.family = "rapid_funds_movement")
      (valid : ValidAmount (amountOr scenario 15000).value)
      (credit : IsItem customerId "credit" (cents (amountOr scenario 15000).value) first)
      (booked : first.bookedAt = baseTime scenario)
      (debits : AreDebits customerId (baseTime scenario) (cents (third (amountOr scenario 15000).value)) outgoing) :
      Shape scenario customerId (first :: outgoing)
  | structuring (items : List SyntheticTransaction) (family : scenario.pattern.family = "structuring_like")
      (credits : AreCredits customerId (baseTime scenario) (cents (amountOr scenario 4900).value)
        (countOrFive scenario) items) : Shape scenario customerId items
  | ordinary (first : SyntheticTransaction) (family : scenario.pattern.family = "ordinary")
      (credit : IsItem customerId "credit" (cents (amountOr scenario 250).value) first)
      (booked : first.bookedAt = baseTime scenario) : Shape scenario customerId [first]
  | condition (first : SyntheticTransaction) (outgoing : List SyntheticTransaction)
      (family : scenario.pattern.family ∈ conditionFamilies)
      (credit : IsItem customerId "credit" 7000 first) (booked : first.bookedAt = baseTime scenario)
      (debits : AreDebits customerId (baseTime scenario) 2000 outgoing) :
      Shape scenario customerId (first :: outgoing)

variable {scenario : ScenarioDefinition} {customerId accountId : String}

/-- A transaction is made of what it is given. -/
theorem transaction_eq_ok {sequence : ℕ} {bookedAt : Datetime} {amount : Decimal}
    {direction description : String} {item : SyntheticTransaction}
    (h : transaction scenario customerId accountId sequence bookedAt amount direction description =
      .ok item) :
    ValidAmount amount.value ∧ IsItem customerId direction (cents amount.value) item ∧
      item.bookedAt = bookedAt := by
  obtain ⟨q, hq, h⟩ := bind_eq_ok.mp h
  obtain ⟨hdigits, hvalue⟩ := quantizeCents_eq_ok hq
  split at h
  · rename_i hpos
    cases h
    exact ⟨⟨hdigits, hvalue ▸ hpos⟩, ⟨rfl, rfl, hvalue⟩, rfl⟩
  · cases h

/-- A transaction can be made of a valid amount. -/
theorem exists_transaction {sequence : ℕ} {bookedAt : Datetime} {amount : Decimal}
    {direction description : String} (h : ValidAmount amount.value) :
    ∃ item, transaction scenario customerId accountId sequence bookedAt amount direction description =
      .ok item := by
  obtain ⟨q, hq⟩ := exists_quantizeCents h.1
  have hpos : 0 < q.value := (quantizeCents_eq_ok hq).2 ▸ h.2
  rw [transaction, hq, ok_bind, dif_pos hpos]
  exact ⟨_, rfl⟩

/-- The base time is early. -/
theorem baseTime_le (scenario : ScenarioDefinition) :
    baseTime scenario ≤ 63920134800000000 := by
  have hlow := Int.emod_nonneg scenario.seed (by decide : (20 : ℤ) ≠ 0)
  have hhigh := Int.emod_lt_of_pos scenario.seed (by decide : (0 : ℤ) < 20)
  have hdays : (scenario.seed % 20).toNat ≤ 19 := by omega
  have hspan := Nat.mul_le_mul_right (second * daySeconds) hdays
  unfold baseTime
  refine (Nat.add_le_add_left hspan _).trans (by decide)

/-- Three debits are made when the amount is valid. -/
theorem threeDebits_eq_ok {amount : Decimal} {description : String} {items : List SyntheticTransaction}
    (h : threeDebits scenario customerId accountId amount description = .ok items) :
    ValidAmount amount.value ∧ AreDebits customerId (baseTime scenario) (cents amount.value) items := by
  have hmade := mapM_eq_ok.mp h
  have hitem : ∀ item ∈ items, ∃ index < 3, ∃ bookedAt,
      addSeconds (baseTime scenario) (3600 * (index + 1)) = .ok bookedAt ∧
        transaction scenario customerId accountId (index + 2) bookedAt amount "debit" description =
          .ok item := by
    intro item hitem
    obtain ⟨index, hindex, hmake⟩ := exists_of_mem_mapM h hitem
    obtain ⟨bookedAt, hbooked, hmake⟩ := bind_eq_ok.mp hmake
    exact ⟨index, List.mem_range.mp hindex, bookedAt, hbooked, hmake⟩
  have hlength : items.length = 3 := by
    rw [← hmade.length_eq, List.length_range]
  obtain ⟨first, hfirst⟩ := List.exists_mem_of_length_pos (by omega : 0 < items.length)
  obtain ⟨_, _, _, _, hmake⟩ := hitem first hfirst
  refine ⟨(transaction_eq_ok hmake).1, hlength, ?_, ?_⟩
  · intro item hmem
    obtain ⟨_, _, _, _, hmake⟩ := hitem item hmem
    exact (transaction_eq_ok hmake).2.1
  · intro item hmem
    obtain ⟨index, hindex, bookedAt, hbooked, hmake⟩ := hitem item hmem
    rw [(transaction_eq_ok hmake).2.2, (addSeconds_eq_ok.mp hbooked).2]
    exact ⟨Nat.le_add_right _ _, Nat.add_le_add_left
      (Nat.mul_le_mul_left _ (Nat.mul_le_mul_left _ (by omega))) _⟩

/-- Three debits can be made of a valid amount. -/
theorem exists_threeDebits {amount : Decimal} {description : String} (hamount : ValidAmount amount.value) :
    ∃ items, threeDebits scenario customerId accountId amount description = .ok items := by
  apply exists_mapM_iff.mpr
  intro index hindex
  have hearly : baseTime scenario + second * (3600 * (index + 1)) ≤ datetimeMax :=
    (Nat.add_le_add (baseTime_le scenario) (Nat.mul_le_mul_left _ (Nat.mul_le_mul_left _
      (List.mem_range.mp hindex)))).trans (by decide)
  obtain ⟨item, hitem⟩ := exists_transaction hamount
  exact ⟨item, bind_eq_ok.mpr ⟨_, addSeconds_eq_ok.mpr ⟨hearly, rfl⟩, hitem⟩⟩

/-- The transactions of a family can be made: the family is supported, its amounts are valid, and the last
credit of a row is not booked beyond the last instant. -/
def Buildable (scenario : ScenarioDefinition) : Prop :=
  (scenario.pattern.family = "rapid_funds_movement" ∧ ValidAmount (amountOr scenario 15000).value ∧
      ValidAmount (third (amountOr scenario 15000).value)) ∨
    (scenario.pattern.family = "structuring_like" ∧ ValidAmount (amountOr scenario 4900).value ∧
      ∀ index < countOrFive scenario,
        baseTime scenario + second * (3600 * (index * 12)) ≤ datetimeMax) ∨
    ((scenario.pattern.family = "ordinary" ∨ scenario.pattern.family ∈ conditionFamilies) ∧
      ValidAmount (amountOr scenario 250).value)

/-- A whole amount is valid, unless it is too long. -/
theorem validAmount_natCast {n : ℕ} (hpos : 0 < n) (hshort : n < 10 ^ 26) : ValidAmount n := by
  have hcents : ((n : ℚ) * 100) = ((n * 100 : ℤ) : ℚ) := by push_cast; ring
  constructor
  · rw [hcents, roundHalfEven_intCast, abs_of_nonneg (by positivity)]
    omega
  · rw [cents_natCast]
    exact_mod_cast hpos

/-- A row has at least one credit. -/
theorem countOrFive_pos (scenario : ScenarioDefinition) : 0 < countOrFive scenario := by
  unfold countOrFive
  split <;> omega

/-- What a family injects has its shape. -/
theorem familyTransactions_eq_ok {injected : List SyntheticTransaction}
    (h : familyTransactions scenario customerId accountId = .ok injected) :
    Buildable scenario ∧ Shape scenario customerId injected := by
  unfold familyTransactions at h
  dsimp only at h
  by_cases hrapid : scenario.pattern.family = "rapid_funds_movement"
  · rw [if_pos hrapid] at h
    obtain ⟨first, hfirst, h⟩ := bind_eq_ok.mp h
    obtain ⟨made, hmade, h⟩ := bind_eq_ok.mp h
    obtain ⟨outgoing, houtgoing, h⟩ := bind_eq_ok.mp h
    cases h
    obtain ⟨hamount, hcredit, hbooked⟩ := transaction_eq_ok hfirst
    obtain ⟨hthird, hdebits⟩ := threeDebits_eq_ok houtgoing
    have hvalue : made.value = third (amountOr scenario 15000).value := by
      simpa [third] using Decimal.value_dividedBy hmade
    rw [hvalue] at hthird hdebits
    exact ⟨.inl ⟨hrapid, hamount, hthird⟩, .rapid first outgoing hrapid hamount hcredit hbooked hdebits⟩
  rw [if_neg hrapid] at h
  by_cases hstructuring : scenario.pattern.family = "structuring_like"
  · rw [if_pos hstructuring] at h
    have hmade := mapM_eq_ok.mp h
    have hitem : ∀ index item, (do
        let bookedAt ← addSeconds (baseTime scenario) (3600 * (index * 12))
        transaction scenario customerId accountId (index + 1) bookedAt (amountOr scenario 4900)
          "credit") = .ok item → ValidAmount (amountOr scenario 4900).value ∧
        IsItem customerId "credit" (cents (amountOr scenario 4900).value) item ∧
          item.bookedAt = baseTime scenario + second * (3600 * (index * 12)) ∧
            item.bookedAt ≤ datetimeMax := by
      intro index item hmake
      obtain ⟨bookedAt, hbooked, hmake⟩ := bind_eq_ok.mp hmake
      obtain ⟨hlimit, rfl⟩ := addSeconds_eq_ok.mp hbooked
      obtain ⟨hamount, hcredit, heq⟩ := transaction_eq_ok hmake
      exact ⟨hamount, hcredit, heq, heq ▸ hlimit⟩
    have hall := exists_mapM_iff.mp ⟨_, h⟩
    obtain ⟨item, hfirst⟩ := hall 0 (List.mem_range.mpr (countOrFive_pos scenario))
    refine ⟨.inr (.inl ⟨hstructuring, (hitem _ _ hfirst).1, ?_⟩), .structuring injected hstructuring
      (hmade.imp fun index item hmake => (hitem index item hmake).2)⟩
    intro index hindex
    obtain ⟨item, hmake⟩ := hall index (List.mem_range.mpr hindex)
    rw [← (hitem _ _ hmake).2.2.1]
    exact (hitem _ _ hmake).2.2.2
  rw [if_neg hstructuring] at h
  by_cases hother : scenario.pattern.family = "ordinary" ∨ scenario.pattern.family ∈ conditionFamilies
  · rw [if_pos hother] at h
    obtain ⟨first, hfirst, h⟩ := bind_eq_ok.mp h
    obtain ⟨hamount, hcredit, hbooked⟩ := transaction_eq_ok hfirst
    refine ⟨.inr (.inr ⟨hother, hamount⟩), ?_⟩
    by_cases hordinary : scenario.pattern.family = "ordinary"
    · rw [if_neg (not_not_intro hordinary)] at h
      cases h
      exact .ordinary first hordinary hcredit hbooked
    · rw [if_pos hordinary] at h
      obtain ⟨outgoing, houtgoing, h⟩ := bind_eq_ok.mp h
      cases h
      have hdebits := (threeDebits_eq_ok houtgoing).2
      rw [Decimal.value_ofNat, cents_natCast] at hdebits
      exact .condition _ outgoing (hother.resolve_left hordinary) ⟨hcredit.1, hcredit.2, by simp⟩ hbooked
        (by simpa using hdebits)
  · rw [if_neg hother] at h
    cases h

/-- The transactions of a family are made when they can be. -/
theorem exists_familyTransactions (h : Buildable scenario) :
    ∃ injected, familyTransactions scenario customerId accountId = .ok injected := by
  unfold familyTransactions
  dsimp only
  obtain ⟨hrapid, hamount, hthird⟩ | ⟨hstructuring, hamount, hbooked⟩ | ⟨hother, hamount⟩ := h
  · rw [if_pos hrapid]
    obtain ⟨first, hfirst⟩ := exists_transaction hamount
    obtain ⟨made, hmade, hvalue⟩ := exists_third hamount
    obtain ⟨outgoing, houtgoing⟩ := exists_threeDebits (hvalue ▸ hthird)
    rw [hfirst, ok_bind, hmade, ok_bind, houtgoing]
    exact ⟨_, rfl⟩
  · rw [if_neg (by rw [hstructuring]; decide), if_pos hstructuring]
    apply exists_mapM_iff.mpr
    intro index hindex
    obtain ⟨item, hitem⟩ := exists_transaction hamount
    exact ⟨item, bind_eq_ok.mpr ⟨_, addSeconds_eq_ok.mpr ⟨hbooked index (List.mem_range.mp hindex), rfl⟩,
      hitem⟩⟩
  · have hfamily : ∀ family ∈ "ordinary" :: conditionFamilies,
        family ≠ "rapid_funds_movement" ∧ family ≠ "structuring_like" := by decide
    obtain ⟨hrapid, hstructuring⟩ := hfamily _ (List.mem_cons.mpr hother)
    rw [if_neg hrapid, if_neg hstructuring, if_pos hother]
    obtain ⟨first, hfirst⟩ := exists_transaction hamount
    rw [hfirst, ok_bind]
    split
    · have htwo : ValidAmount (Decimal.ofNat 2000).value := by
        rw [Decimal.value_ofNat]
        exact validAmount_natCast (by decide) (by decide)
      obtain ⟨outgoing, houtgoing⟩ := exists_threeDebits htwo
      rw [houtgoing]
      exact ⟨_, rfl⟩
    · exact ⟨_, rfl⟩

end Shapes

section Firing

/-- The rule fires for the customer on the transactions. -/
def RuleFires (rule : AlertRule) (customerId : String) (transactions : List SyntheticTransaction) : Prop :=
  ∃ alert, rule customerId transactions = .ok (some alert)

variable {scenario : ScenarioDefinition} {customerId : String} {injected : List SyntheticTransaction}

/-- Transactions of one amount come to a multiple of it. -/
theorem exactTotal_of_amount {amount : ℚ} {items : List SyntheticTransaction}
    (h : ∀ item ∈ items, item.amount.value = amount) : exactTotal items = items.length * amount := by
  have hmap : items.map (·.amount.value) = List.replicate items.length amount := by
    apply List.eq_replicate_iff.mpr
    simpa using h
  rw [exactTotal, hmap, List.sum_replicate, nsmul_eq_mul]

/-- Where nothing follows it, a large credit has not been drained. -/
theorem not_drained_nil {incoming : SyntheticTransaction} (hcredit : RapidCredit incoming) :
    ¬Drained incoming [] := by
  intro ⟨totalOut, threshold, htotal, hthreshold, hle⟩
  cases htotal
  have hfour : decimalContext.Representable 4000 :=
    ⟨4000, 0, by decide, by decide, by norm_num [ten]⟩
  have hmore : (4000 : ℚ) ≤ incoming.amount.value * eighty.value := by
    rw [Decimal.value_eighty]
    linarith [hcredit.2]
  have hlarge := @Format.nearest_mono decimalContext _ _ (by norm_num) hmore
  rw [hfour.nearest_eq, ← Decimal.value_times hthreshold] at hlarge
  have hzero : (Decimal.ofNat 0).value = 0 := by simp
  rw [hzero] at hle
  linarith

/-- A credit is drained by equal debits that come to more than 80 percent of it, by more than what is
rounded. -/
theorem drained_of_slack {incoming : SyntheticTransaction} {outgoing : List SyntheticTransaction}
    {amount debit : ℚ} (hamount : incoming.amount.value = amount)
    (hdebits : ∀ item ∈ outgoing, item.amount.value = debit) (hsmall : amount < 10 ^ 28)
    (hroom : outgoing.length * debit + outgoing.length < 10 ^ 28)
    (hslack : amount * (80 / 100) + 1 / 2 ≤ outgoing.length * debit - outgoing.length / 2) :
    Drained incoming outgoing := by
  have htotal : ((outgoing.map (·.amount)).map Decimal.value).sum = outgoing.length * debit := by
    rw [List.map_map]
    exact exactTotal_of_amount hdebits
  obtain ⟨totalOut, hmade, hlow, _⟩ := @Decimal.exists_total_near (outgoing.map (·.amount)) (by
    intro d hd
    obtain ⟨item, _, rfl⟩ := List.mem_map.mp hd
    exact item.amount_pos.le) (by rwa [htotal, List.length_map])
  obtain ⟨threshold, hthreshold, hhigh⟩ :=
    Decimal.exists_eighty_near incoming.amount_pos.le (hamount.trans_lt hsmall)
  rw [htotal, List.length_map] at hlow
  rw [hamount] at hhigh
  exact ⟨totalOut, threshold, hmade, hthreshold, hhigh.trans (hslack.trans hlow)⟩

section Debits

variable {first : SyntheticTransaction} {outgoing : List SyntheticTransaction} {amount debit : ℚ}

/-- The debits of the first three days follow the credit. -/
theorem following_perm (hcredit : first.direction = "credit")
    (hdebits : ∀ item ∈ outgoing, item.direction = "debit")
    (hbooked : ∀ item ∈ outgoing, BookedWithin first.bookedAt (first.bookedAt + days 3) item) :
    (following (sortedByBooking (first :: outgoing)) first).Perm outgoing := by
  have hperm := (sortedByBooking_perm (first :: outgoing)).filter fun item =>
    item.direction = "debit" ∧ BookedWithin first.bookedAt (first.bookedAt + days 3) item
  have hall : outgoing.filter (fun item => item.direction = "debit" ∧
      BookedWithin first.bookedAt (first.bookedAt + days 3) item) = outgoing :=
    List.filter_eq_self.mpr fun item hitem => decide_eq_true ⟨hdebits item hitem, hbooked item hitem⟩
  rw [List.filter_cons_of_neg (by simp [hcredit]), hall] at hperm
  exact hperm

/-- `rapid_funds_movement` fires on a credit with debits in the three days after it when the credit is
large and has been drained. -/
theorem rapid_fires_of_debits (hcredit : IsItem customerId "credit" amount first)
    (hdebits : ∀ item ∈ outgoing, IsItem customerId "debit" debit item)
    (hbooked : ∀ item ∈ outgoing, BookedWithin first.bookedAt (first.bookedAt + days 3) item)
    (hearly : first.bookedAt + days 3 + second ≤ datetimeMax) :
    RuleFires rapidFundsMovement customerId (first :: outgoing) ↔
      5000 ≤ amount ∧ Drained first (following (sortedByBooking (first :: outgoing)) first) := by
  have hall : (first :: outgoing).filter (fun item => item.customerId = customerId) =
      first :: outgoing := by
    apply List.filter_eq_self.mpr
    intro item hitem
    rcases List.mem_cons.mp hitem with rfl | hitem
    · exact decide_eq_true hcredit.customerId
    · exact decide_eq_true (hdebits item hitem).customerId
  have hother : ∀ item ∈ first :: outgoing, RapidCredit item → item = first := by
    intro item hitem hlarge
    rcases List.mem_cons.mp hitem with rfl | hdebit
    · rfl
    · have hdirection := hlarge.1
      rw [(hdebits item hdebit).direction] at hdirection
      exact absurd hdirection (by decide)
  constructor
  · intro ⟨alert, halert⟩
    obtain ⟨incoming, hincoming, _, hlarge, hdrained⟩ := (rapidFundsMovement_isSome halert).mp rfl
    have hsame := hother incoming hincoming hlarge
    subst hsame
    rw [sortedOf, hall] at hdrained
    exact ⟨hcredit.amount ▸ hlarge.2, hdrained⟩
  · intro ⟨hlarge, hdrained⟩
    have hrapid : RapidCredit first := ⟨hcredit.direction, hcredit.amount.symm ▸ hlarge⟩
    have hlatest : latestBooking (first :: following (sortedByBooking (first :: outgoing)) first) ≤
        first.bookedAt + days 3 := by
      apply latestBooking_le
      intro item hitem
      rcases List.mem_cons.mp hitem with rfl | hitem
      · exact Nat.le_add_right _ _
      · exact (mem_following.mp hitem).2.2.2
    obtain ⟨alert, halert⟩ := @exists_alert_of_drained customerId first _ hrapid hdrained
      ((Nat.add_le_add_right hlatest _).trans hearly)
    refine ⟨alert, Search.firstHit_of_only (a := first) ?_ ?_ ?_⟩
    · rw [hall]
      exact mem_sortedByBooking.mpr List.mem_cons_self
    · rw [hall, rapidMovement_credit hrapid]
      exact ⟨(Nat.le_add_right _ _).trans hearly, halert⟩
    · intro item hitem
      rw [hall] at hitem
      by_cases hitemLarge : RapidCredit item
      · exact .inl (hother item (mem_sortedByBooking.mp hitem) hitemLarge)
      · exact .inr (rapidMovement_other hitemLarge)

/-- Equal debits that come to more than 80 percent of a large credit make the rule fire. -/
theorem rapid_fires_of_slack (hcredit : IsItem customerId "credit" amount first)
    (hdebits : ∀ item ∈ outgoing, IsItem customerId "debit" debit item)
    (hbooked : ∀ item ∈ outgoing, BookedWithin first.bookedAt (first.bookedAt + days 3) item)
    (hearly : first.bookedAt + days 3 + second ≤ datetimeMax) (hsmall : amount < 10 ^ 28)
    (hroom : outgoing.length * debit + outgoing.length < 10 ^ 28)
    (hslack : 5000 ≤ amount →
      amount * (80 / 100) + 1 / 2 ≤ outgoing.length * debit - outgoing.length / 2) :
    RuleFires rapidFundsMovement customerId (first :: outgoing) ↔ 5000 ≤ amount := by
  rw [rapid_fires_of_debits hcredit hdebits hbooked hearly, and_iff_left_iff_imp]
  intro hlarge
  have hperm := following_perm hcredit.direction (fun item hitem => (hdebits item hitem).direction) hbooked
  apply drained_of_slack hcredit.amount _ hsmall
  · rwa [hperm.length_eq]
  · rw [hperm.length_eq]
    exact hslack hlarge
  · exact fun item hitem => (hdebits item (hperm.subset hitem)).amount

end Debits

/-- A rapid movement needs a debit. -/
theorem exists_debit_of_fires (h : RuleFires rapidFundsMovement customerId injected) :
    ∃ item ∈ injected, item.direction = "debit" := by
  obtain ⟨alert, halert⟩ := h
  obtain ⟨incoming, _, _, hcredit, hdrained⟩ := (rapidFundsMovement_isSome halert).mp rfl
  generalize hlist : following _ incoming = outgoing at hdrained
  cases outgoing with
  | nil => exact absurd hdrained (not_drained_nil hcredit)
  | cons item rest =>
    obtain ⟨hmem, hdirection, _⟩ := mem_following.mp (hlist ▸ List.mem_cons_self)
    exact ⟨item, List.mem_of_mem_filter (mem_sortedByBooking.mp hmem), hdirection⟩

/-- A structuring alert needs at least five credits. -/
theorem five_credits_of_fires (h : RuleFires structuringLike customerId injected) :
    5 ≤ (injected.filter fun item => item.direction = "credit").length := by
  obtain ⟨alert, halert⟩ := h
  obtain ⟨first, rest, hsuffix, hlength, _⟩ := (structuringLike_isSome halert).mp rfl
  have hsub := creditWindow_subperm hsuffix
  have hcredits := Windows.subperm_filter (p := fun item => item.direction = "credit")
    (hsub.trans List.filter_sublist.subperm) fun item hitem =>
      decide_eq_true (of_decide_eq_true (List.mem_filter.mp (hsub.subset hitem)).2).2.1
  exact hlength.trans hcredits.length_le

/-- The three hours after the base time lie within three days of it. -/
theorem AreDebits.within {first : SyntheticTransaction} {outgoing : List SyntheticTransaction} {debit : ℚ}
    (h : AreDebits customerId (baseTime scenario) debit outgoing)
    (hfirst : first.bookedAt = baseTime scenario) :
    ∀ item ∈ outgoing, BookedWithin first.bookedAt (first.bookedAt + days 3) item := by
  intro item hitem
  obtain ⟨hlow, hhigh⟩ := h.booked item hitem
  rw [hfirst]
  exact ⟨hlow, hhigh.trans (Nat.add_le_add_left (by decide) _)⟩

/-- The base time leaves room for the periods of the rules. -/
theorem early_of_base {first : SyntheticTransaction} (hfirst : first.bookedAt = baseTime scenario) :
    first.bookedAt + days 7 + second ≤ datetimeMax := by
  rw [hfirst]
  exact (Nat.add_le_add_right (Nat.add_le_add_right (baseTime_le scenario) _) _).trans (by decide)

/-- A third, in whole cents, is near a third of the amount. -/
theorem cents_third_near {amount : ℚ} (h : ValidAmount amount) :
    amount / 3 - 1 ≤ cents (third amount) ∧ cents (third amount) ≤ amount / 3 + 1 := by
  obtain ⟨hpos, hlt⟩ := h.bounds
  have hlarge : ten (0 + (28 : ℕ)) = 10 ^ 28 := by rw [zero_add, ten_natCast]; norm_num
  have hthird : |amount / 3| < ten (0 + (28 : ℕ)) := by
    rw [hlarge, abs_of_nonneg (by positivity)]
    linarith
  have hnear := @Format.nearest_near decimalContext _ 0 hthird (by decide)
  have hcents := cents_near (third amount)
  have hunit : ten 0 / 2 = 1 / 2 := by simp [ten]
  rw [hunit] at hnear
  unfold third at hcents ⊢
  constructor
  · linarith [hnear.1, hcents.1]
  · linarith [hnear.2, hcents.2]

/-- `rapid_funds_movement` fires on what the conditions inject, and on a rapid movement of at least
5000. -/
theorem rapid_fires_iff (hshape : Shape scenario customerId injected) :
    RuleFires rapidFundsMovement customerId injected ↔
      scenario.pattern.family ∈ conditionFamilies ∨
        scenario.pattern.family = "rapid_funds_movement" ∧
          5000 ≤ cents (amountOr scenario 15000).value := by
  have hlast : ∀ {first : SyntheticTransaction}, first.bookedAt = baseTime scenario →
      first.bookedAt + days 3 + second ≤ datetimeMax := fun hfirst =>
    (Nat.add_le_add_right (Nat.add_le_add_left (by decide) _) _).trans (early_of_base hfirst)
  cases hshape with
  | rapid first outgoing hfamily hvalid hcredit hbooked hdebits =>
    have hthird := cents_third_near hvalid
    have hwhole := cents_near (amountOr scenario 15000).value
    have hbounds := hvalid.bounds
    have hnot : "rapid_funds_movement" ∉ conditionFamilies := by decide
    rw [rapid_fires_of_slack hcredit hdebits.item (hdebits.within hbooked) (hlast hbooked) _ _ _, hfamily]
    · simp only [hnot, false_or, true_and]
    · linarith [hbounds.2, hwhole.2]
    · rw [hdebits.length]
      push_cast
      linarith [hbounds.2, hthird.2]
    · intro hlarge
      rw [hdebits.length]
      push_cast
      linarith [hthird.1, hwhole.1]
  | structuring items hfamily hcredits =>
    rw [hfamily]
    apply iff_of_false
    · intro hfires
      obtain ⟨item, hitem, hdebit⟩ := exists_debit_of_fires hfires
      obtain ⟨index, _, hcredit, _⟩ := exists_of_mem_forall₂ hcredits hitem
      rw [hcredit.direction] at hdebit
      exact absurd hdebit (by decide)
    · simp [conditionFamilies]
  | ordinary first hfamily hcredit hbooked =>
    rw [hfamily]
    apply iff_of_false
    · intro hfires
      obtain ⟨item, hitem, hdebit⟩ := exists_debit_of_fires hfires
      rw [List.mem_singleton.mp hitem, hcredit.direction] at hdebit
      exact absurd hdebit (by decide)
    · simp [conditionFamilies]
  | condition first outgoing hfamily hcredit hbooked hdebits =>
    rw [rapid_fires_of_slack hcredit hdebits.item (hdebits.within hbooked) (hlast hbooked) _ _ _]
    · apply iff_of_true
      · norm_num
      · exact .inl hfamily
    · norm_num
    · rw [hdebits.length]
      norm_num
    · rw [hdebits.length]
      norm_num

/-- One credit is not enough for a structuring alert. -/
theorem not_structuring_of_debits {first : SyntheticTransaction} {outgoing : List SyntheticTransaction}
    (hdebits : ∀ item ∈ outgoing, item.direction = "debit") :
    ¬RuleFires structuringLike customerId (first :: outgoing) := by
  intro hfires
  have hfive := five_credits_of_fires hfires
  have hnone : outgoing.filter (fun item => item.direction = "credit") = [] := by
    apply List.filter_eq_nil_iff.mpr
    intro item hitem
    simp [hdebits item hitem]
  rw [List.filter_cons, hnone] at hfive
  split at hfive
  · simp at hfive
  · simp at hfive

/-- The credits of a row that are looked at together: no more than fifteen lie within seven days. -/
def rowCount (scenario : ScenarioDefinition) : ℕ := min (countOrFive scenario) 15

/-- A row of credits is structuring-like when its amount is in the range and the first credits, of seven
days at most, are five or more and come to at least 20000. -/
def StructuringRow (scenario : ScenarioDefinition) : Prop :=
  1000 ≤ cents (amountOr scenario 4900).value ∧ cents (amountOr scenario 4900).value < 10000 ∧
    5 ≤ rowCount scenario ∧ 20000 ≤ rowCount scenario * cents (amountOr scenario 4900).value

/-- Half a day. -/
abbrev halfDay : ℕ := second * (3600 * 12)

/-- The credits of a row lie half a day apart. -/
theorem AreCredits.pairwise {base : Datetime} {amount : ℚ} {count : ℕ}
    (h : AreCredits customerId base amount count injected) :
    injected.Pairwise fun a b => a.bookedAt + halfDay ≤ b.bookedAt := by
  have hsorted := List.pairwise_lt_range (n := count)
  unfold AreCredits at h
  generalize List.range count = indices at h hsorted
  induction h with
  | nil => exact .nil
  | @cons index item indices items hitem hrest ih =>
    obtain ⟨hnext, hsorted⟩ := List.pairwise_cons.mp hsorted
    apply List.Pairwise.cons _ (ih hsorted)
    intro later hlater
    obtain ⟨index', hindex', hlater⟩ := exists_of_mem_forall₂ hrest hlater
    have hstep : (index + 1) * 12 ≤ index' * 12 := Nat.mul_le_mul_right _ (hnext index' hindex')
    rw [hitem.2.1, hlater.2.1, Nat.add_assoc, halfDay, ← Nat.mul_add, ← Nat.mul_add]
    apply Nat.add_le_add_left (Nat.mul_le_mul_left _ (Nat.mul_le_mul_left _ _))
    omega

/-- Credits of a row that lie within seven days are no more than fifteen. -/
theorem AreCredits.length_le {base : Datetime} {amount : ℚ} {count : ℕ}
    (h : AreCredits customerId base amount count injected) (first : SyntheticTransaction)
    {l : List SyntheticTransaction} (hsub : l.Sublist injected) :
    (creditWindow first l).length ≤ min count 15 := by
  have hwindow : (creditWindow first l).Sublist injected := List.filter_sublist.trans hsub
  have hcount : injected.length = count := by
    rw [← List.Forall₂.length_eq h, List.length_range]
  have hgap : (creditWindow first l).length * halfDay ≤ days 7 + halfDay :=
    Windows.length_mul_gap_le (h.pairwise.sublist hwindow) fun item hitem =>
      (mem_creditWindow.mp hitem).2
  have hfifteen : days 7 + halfDay = 15 * halfDay := by decide
  rw [hfifteen] at hgap
  apply le_min
  · exact hcount ▸ hwindow.length_le
  · exact Nat.le_of_mul_le_mul_right hgap (by decide)

/-- The first credits of a row are booked within seven days. -/
theorem AreCredits.first_within {base : Datetime} {amount : ℚ} {count : ℕ}
    (h : AreCredits customerId base amount count injected) :
    ∀ item ∈ injected.take 15, base ≤ item.bookedAt ∧ item.bookedAt ≤ base + days 7 := by
  intro item hitem
  obtain ⟨index, hindex, _, hbooked, _⟩ := exists_of_mem_forall₂ (List.forall₂_take 15 h) hitem
  rw [List.take_range, List.mem_range] at hindex
  rw [hbooked]
  refine ⟨Nat.le_add_right _ _, Nat.add_le_add_left (Nat.mul_le_mul_left _ ?_) _⟩
  rw [daySeconds]
  omega

/-- The first credit of a row is booked at the base time. -/
theorem AreCredits.exists_base {base : Datetime} {amount : ℚ} {count : ℕ}
    (h : AreCredits customerId base amount count injected) (hcount : 0 < count) :
    ∃ item ∈ injected, item.bookedAt = base := by
  obtain ⟨item, hitem, _, hbooked, _⟩ :=
    exists_of_mem_forall₂ (R := flip fun index item => IsItem customerId "credit" amount item ∧
      item.bookedAt = base + second * (3600 * (index * 12)) ∧ item.bookedAt ≤ datetimeMax)
      h.flip (List.mem_range.mpr hcount)
  exact ⟨item, hitem, by simpa using hbooked⟩

/-- A row has no more credits than there are half days. -/
theorem AreCredits.length_lt {base : Datetime} {amount : ℚ} {count : ℕ}
    (h : AreCredits customerId base amount count injected) : injected.length < 10 ^ 7 := by
  have hwithin : ∀ item ∈ injected, 0 ≤ item.bookedAt ∧ item.bookedAt ≤ 0 + datetimeMax := by
    intro item hitem
    obtain ⟨_, _, _, _, hlimit⟩ := exists_of_mem_forall₂ h hitem
    exact ⟨Nat.zero_le _, (Nat.zero_add _).symm ▸ hlimit⟩
  have hgap : injected.length * halfDay ≤ datetimeMax + halfDay :=
    Windows.length_mul_gap_le h.pairwise hwithin
  simp only [halfDay, second, datetimeMax] at hgap
  omega

/-- The credits of a row that are in the range are added exactly. -/
theorem AreCredits.exact {base : Datetime} {amount : ℚ} {count : ℕ}
    (h : AreCredits customerId base (cents amount) count injected) :
    StructuringExact customerId injected := by
  have hitem : ∀ item ∈ injected.filter (StructuringCredit customerId),
      item.amount.value = cents amount ∧ cents amount < 10000 := by
    intro item hitem
    obtain ⟨hmem, hcredit⟩ := List.mem_filter.mp hitem
    obtain ⟨_, _, hshape, _⟩ := exists_of_mem_forall₂ h hmem
    exact ⟨hshape.amount, hshape.amount ▸ (of_decide_eq_true hcredit).2.2.2⟩
  refine ⟨-2, by norm_num, by norm_num, ?_, ?_⟩
  · intro d hd
    obtain ⟨item, hmem, rfl⟩ := List.mem_map.mp hd
    rw [(hitem item hmem).1]
    exact exists_cents ((hitem item hmem).1 ▸ item.amount_pos)
  · have hlength : ((injected.filter (StructuringCredit customerId)).length : ℚ) ≤ 10 ^ 7 := by
      exact_mod_cast (List.length_filter_le _ _).trans h.length_lt.le
    have htotal := exactTotal_of_amount fun item hmem => (hitem item hmem).1
    have hbound : (10 : ℚ) ^ 7 * 10000 < ten (-2 + (28 : ℕ)) := by norm_num [ten]
    rw [List.map_map]
    change exactTotal _ < _
    rw [htotal]
    refine lt_of_le_of_lt ?_ hbound
    cases hcredits : injected.filter (StructuringCredit customerId) with
    | nil => norm_num
    | cons item rest =>
      have hfirst := hitem item (hcredits ▸ List.mem_cons_self)
      rw [hcredits] at hlength
      exact mul_le_mul hlength hfirst.2.le (hfirst.1 ▸ item.amount_pos.le) (by norm_num)

/-- A row of credits fires `structuring_like` only when it is structuring-like. -/
theorem AreCredits.structuringRow_of_fires
    (h : AreCredits customerId (baseTime scenario) (cents (amountOr scenario 4900).value)
      (countOrFive scenario) injected) (hfires : RuleFires structuringLike customerId injected) :
    StructuringRow scenario := by
  obtain ⟨alert, halert⟩ := hfires
  obtain ⟨chosen, hsub, hlength, hcredits, hspan, htotal⟩ :=
    (structuringLike_decides h.exact halert).mp rfl
  have hitem : ∀ item ∈ chosen, item.amount.value = cents (amountOr scenario 4900).value := by
    intro item hitem
    obtain ⟨_, _, hcredit, _⟩ := exists_of_mem_forall₂ h (hsub.subset hitem)
    exact hcredit.amount
  obtain ⟨item, hmem⟩ := List.exists_mem_of_length_pos (by omega : 0 < chosen.length)
  have hrange := (hcredits item hmem).2.2
  rw [hitem item hmem] at hrange
  have hsorted : injected.Pairwise fun a b => a.bookedAt ≤ b.bookedAt :=
    h.pairwise.imp fun hgap => (Nat.le_add_right _ _).trans hgap
  obtain ⟨first, rest, hsuffix, hwindow⟩ :=
    Windows.exists_window hsorted hsub (List.ne_nil_of_mem hmem) hspan
  have hrow : chosen.length ≤ rowCount scenario :=
    hwindow.length_le.trans (h.length_le first hsuffix.sublist)
  refine ⟨hrange.1, hrange.2, hlength.trans hrow, ?_⟩
  rw [exactTotal_of_amount hitem] at htotal
  have hmore : (chosen.length : ℚ) ≤ rowCount scenario := by exact_mod_cast hrow
  exact htotal.trans (mul_le_mul_of_nonneg_right hmore (by linarith))

/-- A row of credits that is structuring-like fires `structuring_like`. -/
theorem AreCredits.fires_of_structuringRow
    (h : AreCredits customerId (baseTime scenario) (cents (amountOr scenario 4900).value)
      (countOrFive scenario) injected) (hrow : StructuringRow scenario) :
    RuleFires structuringLike customerId injected := by
  have hexact := h.exact
  obtain ⟨hlow, hhigh, hfive, htotal⟩ := hrow
  have hcredit : ∀ item ∈ injected,
      IsItem customerId "credit" (cents (amountOr scenario 4900).value) item ∧
        baseTime scenario ≤ item.bookedAt := by
    intro item hitem
    obtain ⟨index, _, hcredit, hbooked, _⟩ := exists_of_mem_forall₂ h hitem
    exact ⟨hcredit, hbooked ▸ Nat.le_add_right _ _⟩
  have hall : injected.filter (StructuringCredit customerId) = injected := by
    apply List.filter_eq_self.mpr
    intro item hitem
    obtain ⟨hcredit, _⟩ := hcredit item hitem
    rw [decide_eq_true_eq, StructuringCredit, hcredit.amount]
    exact ⟨hcredit.customerId, hcredit.direction, hlow, hhigh⟩
  have hcount : (injected.take 15).length = rowCount scenario := by
    rw [List.length_take, ← List.Forall₂.length_eq h, List.length_range, min_comm]
    rfl
  have hchosen : ∀ item ∈ injected.take 15,
      item.amount.value = cents (amountOr scenario 4900).value :=
    fun item hitem => (hcredit item (List.mem_of_mem_take hitem)).1.amount
  unfold RuleFires structuringLike
  dsimp only
  rw [StructuringExact, hall] at hexact
  rw [hall]
  have hperm := sortedByBooking_perm injected
  have hpairwise := pairwise_sortedByBooking injected
  generalize sortedByBooking injected = l at hperm hpairwise
  have hsub : (injected.take 15).Subperm l :=
    (List.take_sublist _ _).subperm.trans hperm.symm.subperm
  obtain ⟨earliest, hearliest, hbooked⟩ := h.exists_base (by
    unfold rowCount at hfive
    omega)
  cases l with
  | nil => exact absurd (hperm.symm.subset hearliest) List.not_mem_nil
  | cons first rest =>
    -- the first of the sorted credits is booked at the base time, so its window has the first fifteen
    have hle : first.bookedAt ≤ earliest.bookedAt := by
      rcases List.mem_cons.mp (hperm.symm.subset hearliest) with heq | hlater
      · rw [heq]
      · exact (List.pairwise_cons.mp hpairwise).1 earliest hlater
    have hbase : first.bookedAt = baseTime scenario :=
      le_antisymm (hbooked ▸ hle) (hcredit first (hperm.subset List.mem_cons_self)).2
    have hwithin : ∀ item ∈ injected.take 15,
        first.bookedAt ≤ item.bookedAt ∧ item.bookedAt ≤ first.bookedAt + days 7 := by
      rw [hbase]
      exact h.first_within
    have hwindow : (injected.take 15).Subperm (creditWindow first (first :: rest)) :=
      Windows.subperm_filter hsub fun item hitem => decide_eq_true (hwithin item hitem)
    have hlatest : latestBooking (creditWindow first (first :: rest)) ≤ first.bookedAt + days 7 :=
      latestBooking_le fun item hitem => (mem_creditWindow.mp hitem).2.2
    have hlimit := early_of_base hbase
    have hsubperm : (creditWindow first (first :: rest)).Subperm injected :=
      List.filter_sublist.subperm.trans hperm.subperm
    obtain ⟨total, hmade, hvalue⟩ := exists_totalAmount (hexact.mono (subperm_amounts hsubperm)) le_rfl
    have henough : 20000 ≤ total.value := by
      rw [hvalue]
      apply le_trans _ (exactTotal_le hwindow)
      rw [exactTotal_of_amount hchosen, hcount]
      exact htotal
    refine ⟨_, Search.firstHit_cons_some (structuringWindow_cons.mpr ⟨(Nat.le_add_right _ _).trans hlimit,
      windowAlert_eq_some.mpr ⟨⟨?_, total, hmade, henough⟩, (Nat.add_le_add_right hlatest _).trans hlimit,
        rfl⟩⟩)⟩
    exact hfive.trans (hcount ▸ hwindow.length_le)

/-- `structuring_like` fires on a row of credits that is structuring-like, and on nothing else. -/
theorem structuring_fires_iff (hshape : Shape scenario customerId injected) :
    RuleFires structuringLike customerId injected ↔
      scenario.pattern.family = "structuring_like" ∧ StructuringRow scenario := by
  cases hshape with
  | rapid first outgoing hfamily hvalid hcredit hbooked hdebits =>
    apply iff_of_false
    · exact not_structuring_of_debits fun item hitem => (hdebits.item item hitem).direction
    · simp [hfamily]
  | structuring items hfamily hcredits =>
    simp only [hfamily, true_and]
    exact ⟨hcredits.structuringRow_of_fires, hcredits.fires_of_structuringRow⟩
  | ordinary first hfamily hcredit hbooked =>
    apply iff_of_false
    · exact not_structuring_of_debits fun item hitem => absurd hitem List.not_mem_nil
    · simp [hfamily]
  | condition first outgoing hfamily hcredit hbooked hdebits =>
    apply iff_of_false
    · exact not_structuring_of_debits fun item hitem => (hdebits.item item hitem).direction
    · intro ⟨hstructuring, _⟩
      rw [hstructuring] at hfamily
      exact absurd hfamily (by decide)

/-- All injected transactions are the customer's, and a second passes before the last instant. -/
theorem Shape.item (hshape : Shape scenario customerId injected) :
    ∀ item ∈ injected, item.customerId = customerId ∧ item.bookedAt + second ≤ datetimeMax := by
  have hearly : ∀ bookedAt : ℕ, bookedAt ≤ baseTime scenario + second * (3600 * 3) →
      bookedAt + second ≤ datetimeMax := fun bookedAt hle =>
    (Nat.add_le_add_right (hle.trans (Nat.add_le_add_right (baseTime_le scenario) _)) _).trans
      (by decide)
  cases hshape with
  | rapid first outgoing hfamily hvalid hcredit hbooked hdebits =>
    rintro item (_ | ⟨_, hitem⟩)
    · exact ⟨hcredit.customerId, hearly _ (hbooked ▸ Nat.le_add_right _ _)⟩
    · exact ⟨(hdebits.item item hitem).customerId, hearly _ (hdebits.booked item hitem).2⟩
  | structuring items hfamily hcredits =>
    intro item hitem
    obtain ⟨index, _, hcredit, hbooked, hlimit⟩ := exists_of_mem_forall₂ hcredits hitem
    refine ⟨hcredit.customerId, ?_⟩
    -- the instants are whole hours after nine o'clock, so the last one leaves almost an hour
    rw [hbooked, baseTime] at hlimit ⊢
    generalize (scenario.seed % 20).toNat = dayCount at hlimit ⊢
    simp only [second, daySeconds, datetimeMax] at hlimit ⊢
    change (_ : ℕ) ≤ _ at hlimit
    change (_ : ℕ) ≤ _
    omega
  | ordinary first hfamily hcredit hbooked =>
    rintro item (_ | ⟨_, hitem⟩)
    · exact ⟨hcredit.customerId, hearly _ (hbooked ▸ Nat.le_add_right _ _)⟩
    · cases hitem
  | condition first outgoing hfamily hcredit hbooked hdebits =>
    rintro item (_ | ⟨_, hitem⟩)
    · exact ⟨hcredit.customerId, hearly _ (hbooked ▸ Nat.le_add_right _ _)⟩
    · exact ⟨(hdebits.item item hitem).customerId, hearly _ (hdebits.booked item hitem).2⟩

/-- Something is injected. -/
theorem Shape.ne_nil (hshape : Shape scenario customerId injected) : injected ≠ [] := by
  cases hshape with
  | structuring items hfamily hcredits =>
    obtain ⟨item, hitem, _⟩ := hcredits.exists_base (countOrFive_pos scenario)
    exact List.ne_nil_of_mem hitem
  | _ => exact List.cons_ne_nil _ _

/-- `expected_activity_variance` fires on whatever is injected. -/
theorem variance_fires (hshape : Shape scenario customerId injected) :
    RuleFires expectedActivityVariance customerId injected := by
  have hall : injected.filter (fun item => item.customerId = customerId) = injected :=
    List.filter_eq_self.mpr fun item hitem => decide_eq_true (hshape.item item hitem).1
  unfold RuleFires expectedActivityVariance
  rw [hall]
  cases hlatest : (sortedByBooking injected).getLast? with
  | none =>
    rw [List.getLast?_eq_none_iff] at hlatest
    have hperm := sortedByBooking_perm injected
    rw [hlatest] at hperm
    exact absurd hperm.symm.eq_nil hshape.ne_nil
  | some latest =>
    have hmem : latest ∈ injected := mem_sortedByBooking.mp (List.mem_of_getLast? hlatest)
    exact ⟨_, bind_eq_ok.mpr ⟨_, addSeconds_eq_ok.mpr ⟨(hshape.item latest hmem).2, rfl⟩, rfl⟩⟩

/-- The rule finds its pattern in what a scenario injects. -/
def Triggers (scenario : ScenarioDefinition) (ruleId : String) : Prop :=
  ruleId = "EXPECTED_ACTIVITY_VARIANCE" ∨
    (ruleId = "RAPID_FUNDS_MOVEMENT" ∧ (scenario.pattern.family ∈ conditionFamilies ∨
      scenario.pattern.family = "rapid_funds_movement" ∧ 5000 ≤ cents (amountOr scenario 15000).value)) ∨
    (ruleId = "STRUCTURING_LIKE_REPEATED_CREDITS" ∧
      scenario.pattern.family = "structuring_like" ∧ StructuringRow scenario)

/-- A rule of the table is one of the three. -/
theorem rule_of_lookup {ruleId : String} {rule : AlertRule}
    (hrule : rules.lookup ruleId = some rule) :
    (ruleId = "EXPECTED_ACTIVITY_VARIANCE" ∧ rule = expectedActivityVariance) ∨
      (ruleId = "RAPID_FUNDS_MOVEMENT" ∧ rule = rapidFundsMovement) ∨
      (ruleId = "STRUCTURING_LIKE_REPEATED_CREDITS" ∧ rule = structuringLike) := by
  simp only [rules, List.lookup_cons, List.lookup_nil, beq_eq_decide] at hrule
  grind

/-- A rule of the table fires on what is injected exactly when the scenario triggers it. -/
theorem ruleFires_iff_triggers (hshape : Shape scenario customerId injected) {ruleId : String}
    {rule : AlertRule} (hrule : rules.lookup ruleId = some rule) :
    RuleFires rule customerId injected ↔ Triggers scenario ruleId := by
  unfold Triggers
  obtain ⟨rfl, rfl⟩ | ⟨rfl, rfl⟩ | ⟨rfl, rfl⟩ := rule_of_lookup hrule
  · simp [variance_fires hshape]
  · simp [rapid_fires_iff hshape]
  · simp [structuring_fires_iff hshape]

/-- A rule that is triggered is in the table. -/
theorem exists_rule_of_triggers {ruleId : String} (h : Triggers scenario ruleId) :
    ∃ rule, rules.lookup ruleId = some rule := by
  obtain rfl | ⟨rfl, _⟩ | ⟨rfl, _⟩ := h
  · exact ⟨_, rfl⟩
  · exact ⟨_, rfl⟩
  · exact ⟨_, rfl⟩

end Firing

end Amlguard.Simulation
