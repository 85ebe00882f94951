import Amlguard.Simulation.Generator
import Amlguard.Simulation.Verification

/-!
# The integrity of synthetic data

Whatever the generator draws and whatever scenarios are injected afterwards, with success or not, the
identifiers of a bank are unique and its references lead to records of the same customer.

A transaction's ID names the scenario it is from, between the kind and the number, and ordinary
transactions name `BG`. A number has no hyphen, so the scenario can be read off the ID, and scenarios of
different names never give one ID twice.
-/

namespace Amlguard.Simulation

open Spelling

section Identifiers

/-- The ID of a transaction of a scenario: the kind, the scenario, and something without a hyphen. -/
def NamesScenario (scenarioId id : String) : Prop :=
  ∃ number : List Char, '-' ∉ number ∧ id.toList = ("TX-" ++ scenarioId).toList ++ '-' :: number

/-- A transaction's ID names one scenario. -/
theorem NamesScenario.inj {a b id : String} (ha : NamesScenario a id) (hb : NamesScenario b id) :
    a = b := by
  obtain ⟨number, hnumber, hid⟩ := ha
  obtain ⟨number', hnumber', hid'⟩ := hb
  have hhead := (eq_of_append_cons hnumber hnumber' (hid.symm.trans hid')).1
  rw [String.toList_append, String.toList_append] at hhead
  exact String.toList_inj.mp (List.append_cancel_left hhead)

/-- A padded number as text. -/
@[simp] theorem toList_zeroPadded (width n : ℕ) : (zeroPadded width n).toList = padded width n := by
  simp [zeroPadded]

/-- A padded number has no hyphen. -/
theorem hyphen_notMem_padded (width n : ℕ) : '-' ∉ padded width n := notMem_padded rfl

/-- A sequence number of two digits is padded to two digits. -/
theorem toList_twoDigits (n : ℕ) : (twoDigits n).toList = padded 2 n := by
  have hlength := Nat.length_toDigits_le_iff (n := n) (b := 10) (k := 1) (by decide) (by decide)
  have hpos : 0 < (Nat.toDigits 10 n).length := Nat.length_toDigits_pos
  unfold twoDigits padded
  split
  · rename_i hn
    have hone : (Nat.toDigits 10 n).length = 1 := by
      have := hlength.mpr (by simpa using hn)
      omega
    rw [hone]
    simp
  · rename_i hn
    have htwo : 2 ≤ (Nat.toDigits 10 n).length := by
      by_contra hshort
      have := hlength.mp (by omega)
      omega
    rw [Nat.sub_eq_zero_of_le htwo]
    simp

/-- The ID of an injected transaction. -/
def injectedId (scenarioId : String) (sequence : ℕ) : String :=
  "TX-" ++ scenarioId ++ "-" ++ twoDigits sequence

/-- An injected transaction names its scenario. -/
theorem namesScenario_injectedId (scenarioId : String) (sequence : ℕ) :
    NamesScenario scenarioId (injectedId scenarioId sequence) := by
  refine ⟨padded 2 sequence, hyphen_notMem_padded 2 sequence, ?_⟩
  simp [injectedId, toList_twoDigits]

/-- An ordinary transaction names no scenario but `BG`. -/
theorem namesScenario_ordinary (n : ℕ) : NamesScenario "BG" ("TX-BG-" ++ zeroPadded 8 n) := by
  refine ⟨padded 8 n, hyphen_notMem_padded 8 n, ?_⟩
  simp

/-- A name in front of a padded number determines the number. -/
theorem numbered_inj {head : String} {width n m : ℕ}
    (h : head ++ zeroPadded width n = head ++ zeroPadded width m) : n = m := by
  have hlist := congrArg String.toList h
  rw [String.toList_append, String.toList_append, toList_zeroPadded, toList_zeroPadded] at hlist
  exact padded_inj (List.append_cancel_left hlist)

/-- Sequence numbers tell the injected transactions of a scenario apart. -/
theorem injectedId_inj {scenarioId : String} {n m : ℕ}
    (h : injectedId scenarioId n = injectedId scenarioId m) : n = m := by
  have hlist := congrArg String.toList h
  simp only [injectedId, String.toList_append, toList_twoDigits] at hlist
  exact padded_inj (List.append_cancel_left hlist)

/-- The number of a customer and that of an account tell accounts apart. -/
theorem accountId_inj {n m i j : ℕ}
    (h : "ACC-" ++ zeroPadded 6 n ++ "-" ++ toString i = "ACC-" ++ zeroPadded 6 m ++ "-" ++ toString j) :
    n = m ∧ i = j := by
  have hlist := congrArg String.toList h
  have hnumber (k : ℕ) : '-' ∉ (toString k).toList := by
    rw [← padded_zero]
    exact notMem_padded rfl
  have hsplit : ("ACC-" ++ zeroPadded 6 n).toList ++ '-' :: (toString i).toList =
      ("ACC-" ++ zeroPadded 6 m).toList ++ '-' :: (toString j).toList := by
    simpa using hlist
  obtain ⟨hhead, hlast⟩ := eq_of_append_cons (hnumber i) (hnumber j) hsplit
  exact ⟨numbered_inj (String.toList_inj.mp hhead), Spelling.toString_inj (String.toList_inj.mp hlast)⟩

end Identifiers

section Integrity

/-- A transaction is booked on an account of its customer. -/
def OnOwnAccount (accounts : List SyntheticAccount) (item : SyntheticTransaction) : Prop :=
  ∃ account ∈ accounts, account.accountId = item.accountId ∧ account.customerId = item.customerId

/-- An alert rests on transactions of its customer, all booked before it. -/
structure RestsOn (transactions : List SyntheticTransaction) (alert : SyntheticAlert) : Prop where
  causal : ∀ id ∈ alert.causalTransactionIds, ∃ item ∈ transactions,
    item.transactionId = id ∧ item.customerId = alert.customerId
  dated : ∀ item ∈ transactions, item.transactionId ∈ alert.causalTransactionIds →
    item.bookedAt < alert.createdAt

/-- The identifiers of a bank are unique and its references lead to records of the same customer. -/
structure Integrity (bank : SyntheticBank) : Prop where
  customerIds : (bank.customers.map (·.customerId)).Nodup
  accountIds : (bank.accounts.map (·.accountId)).Nodup
  kycIds : (bank.kycRecords.map (·.kycId)).Nodup
  transactionIds : (bank.transactions.map (·.transactionId)).Nodup
  alertIds : (bank.alerts.map (·.alertId)).Nodup
  owned : ∀ item ∈ bank.transactions, OnOwnAccount bank.accounts item
  positive : ∀ item ∈ bank.transactions, 0 < item.amount.value
  rests : ∀ alert ∈ bank.alerts, RestsOn bank.transactions alert

/-- The transactions and alerts of a bank name one of the scenarios, or are ordinary. -/
structure Named (scenarioIds : List String) (bank : SyntheticBank) : Prop where
  transactions : ∀ item ∈ bank.transactions, ∃ id ∈ "BG" :: scenarioIds,
    NamesScenario id item.transactionId
  alerts : ∀ alert ∈ bank.alerts, ∃ id ∈ scenarioIds, alert.alertId = "ALT-" ++ id

end Integrity

section Generated

variable {source : RandomSources}

/-- The records of the customer of an index. -/
structure IsCustomer (index : ℕ) (records : CustomerRecords) : Prop where
  customerId : records.customer.customerId = "CUS-" ++ zeroPadded 6 (index + 1)
  accounts : records.accounts = customerAccounts index records.customer.customerId
  kycId : records.kyc.kycId = "KYC-" ++ zeroPadded 6 (index + 1)

/-- A pass of the loop makes the records of its index. -/
theorem customerRecords_eq_ok {index : ℕ} {records : CustomerRecords} {s s' : source.State}
    (h : customerRecords source index s = .ok (records, s')) : IsCustomer index records := by
  unfold customerRecords at h
  obtain ⟨turnover, _, _, h⟩ := Drawing.bind_eq_ok.mp h
  obtain ⟨token, _, _, h⟩ := Drawing.bind_eq_ok.mp h
  obtain ⟨occupation, _, _, h⟩ := Drawing.bind_eq_ok.mp h
  obtain ⟨risk, _, _, h⟩ := Drawing.bind_eq_ok.mp h
  rw [← (Drawing.pure_eq_ok.mp h).1]
  exact ⟨rfl, rfl, rfl⟩

/-- What is drawn from a list is in the list. -/
theorem choose_eq_ok {α : Type} {items : List α} {a : α} {s s' : source.State}
    (h : choose source items s = .ok (a, s')) : a ∈ items := by
  unfold choose at h
  cases hitem : items[(source.choice items.length s).1]? with
  | none =>
    simp only [hitem] at h
    cases h
  | some b =>
    simp only [hitem] at h
    cases h
    exact List.mem_of_getElem? hitem

/-- The accounts that are grouped under a customer are the customer's. -/
theorem mem_accountsByCustomer {accounts owned : List SyntheticAccount} {customerId : String}
    (h : (accountsByCustomer accounts).get? customerId = some owned) {account : SyntheticAccount}
    (hmem : account ∈ owned) : account ∈ accounts ∧ account.customerId = customerId := by
  unfold accountsByCustomer at h
  induction accounts using List.reverseRecOn generalizing owned with
  | nil => cases h
  | append_singleton accounts last ih =>
    rw [List.foldl_append, List.foldl_cons, List.foldl_nil, Dict.get?_set] at h
    split at h
    · rename_i hlast
      cases h
      rcases List.mem_append.mp hmem with hbefore | hnew
      · cases hgrouped : (accounts.foldl (fun grouped account => grouped.set account.customerId
            ((grouped.get? account.customerId).getD [] ++ [account])) Dict.empty).get? last.customerId with
        | none =>
          rw [hgrouped] at hbefore
          cases hbefore
        | some grouped =>
          rw [hgrouped] at hbefore
          rw [hlast] at hgrouped
          obtain ⟨hin, hown⟩ := ih hgrouped hbefore
          exact ⟨List.mem_append_left _ hin, hown⟩
      · rw [List.mem_singleton.mp hnew]
        exact ⟨by simp, hlast⟩
    · obtain ⟨hin, hown⟩ := ih h hmem
      exact ⟨List.mem_append_left _ hin, hown⟩

/-- A pass of the loop books the transaction of its index on an account of its customer. -/
theorem ordinaryTransaction_eq_ok {customerCount index : ℕ} {customers : List SyntheticCustomer}
    {accounts : List SyntheticAccount} {counterparties : List SyntheticCounterparty}
    {item : SyntheticTransaction} {s s' : source.State}
    (h : ordinaryTransaction source customerCount customers (accountsByCustomer accounts) counterparties
      index s = .ok (item, s')) :
    item.transactionId = "TX-BG-" ++ zeroPadded 8 (index + 1) ∧ OnOwnAccount accounts item := by
  unfold ordinaryTransaction at h
  obtain ⟨customer, _, _, h⟩ := Drawing.bind_eq_ok.mp h
  obtain ⟨owned, _, howned, h⟩ := Drawing.bind_eq_ok.mp h
  obtain ⟨account, _, haccount, h⟩ := Drawing.bind_eq_ok.mp h
  obtain ⟨ceiling, _, _, h⟩ := Drawing.bind_eq_ok.mp h
  obtain ⟨drawn, _, _, h⟩ := Drawing.bind_eq_ok.mp h
  obtain ⟨amount, _, _, h⟩ := Drawing.bind_eq_ok.mp h
  obtain ⟨counterparty, _, _, h⟩ := Drawing.bind_eq_ok.mp h
  obtain ⟨bookedAt, _, _, h⟩ := Drawing.bind_eq_ok.mp h
  obtain ⟨side, _, _, h⟩ := Drawing.bind_eq_ok.mp h
  obtain ⟨description, _, _, h⟩ := Drawing.bind_eq_ok.mp h
  have hgrouped := orRaise_eq_ok.mp (Drawing.lift_eq_ok.mp howned).1
  obtain ⟨hin, hown⟩ := mem_accountsByCustomer hgrouped (choose_eq_ok haccount)
  split at h
  · rw [← (Drawing.pure_eq_ok.mp h).1]
    exact ⟨rfl, account, hin, rfl, hown⟩
  · cases (Drawing.lift_eq_ok.mp h).1

/-- The IDs of made records are those of the indices. -/
theorem map_eq_of_forall₂ {α β γ : Type} {R : α → β → Prop} {f : α → γ} {g : β → γ} {as : List α}
    {bs : List β} (h : List.Forall₂ R as bs) (hmade : ∀ a b, R a b → g b = f a) :
    bs.map g = as.map f := by
  induction h with
  | nil => rfl
  | cons hfirst _ ih => rw [List.map_cons, List.map_cons, hmade _ _ hfirst, ih]

/-- Numbered names are distinct. -/
theorem nodup_numbered (head : String) (width n : ℕ) :
    ((List.range n).map fun index => head ++ zeroPadded width (index + 1)).Nodup := by
  apply List.Nodup.map _ List.nodup_range
  intro a b h
  exact Nat.succ_injective (numbered_inj h)

/-- The IDs of the accounts of the customer of an index. -/
def accountIdsOf (index : ℕ) : List String :=
  (List.range (if index % 3 = 0 then 2 else 1)).map fun accountIndex =>
    "ACC-" ++ zeroPadded 6 (index + 1) ++ "-" ++ toString (accountIndex + 1)

/-- Account IDs of different customers, or of one, are distinct. -/
theorem nodup_accountIds (n : ℕ) : ((List.range n).flatMap accountIdsOf).Nodup := by
  apply List.nodup_flatMap.mpr
  constructor
  · intro index _
    apply List.Nodup.map _ List.nodup_range
    intro i j h
    exact Nat.succ_injective (accountId_inj h).2
  · apply List.nodup_range.imp
    intro index index' hne id hmem hmem'
    obtain ⟨i, _, rfl⟩ := List.mem_map.mp hmem
    obtain ⟨j, _, h⟩ := List.mem_map.mp hmem'
    exact hne (Nat.succ_injective (accountId_inj h).1).symm

/-- The records of the customers of different indices have distinct IDs. -/
theorem nodup_customerRecords {n : ℕ} {records : List CustomerRecords}
    (h : List.Forall₂ IsCustomer (List.range n) records) :
    ((records.map (·.customer)).map (·.customerId)).Nodup ∧
      ((records.flatMap (·.accounts)).map (·.accountId)).Nodup ∧
        ((records.map (·.kyc)).map (·.kycId)).Nodup := by
  have hcustomers : (records.map (·.customer)).map (·.customerId) =
      (List.range n).map fun index => "CUS-" ++ zeroPadded 6 (index + 1) := by
    rw [List.map_map]
    exact map_eq_of_forall₂ h fun _ _ hcustomer => hcustomer.customerId
  have haccounts : (records.flatMap (·.accounts)).map (·.accountId) =
      (List.range n).flatMap accountIdsOf := by
    rw [List.map_flatMap, List.flatMap_def, List.flatMap_def]
    congr 1
    apply map_eq_of_forall₂ h
    intro index made hcustomer
    rw [hcustomer.accounts, customerAccounts, List.map_map]
    rfl
  have hkyc : (records.map (·.kyc)).map (·.kycId) =
      (List.range n).map fun index => "KYC-" ++ zeroPadded 6 (index + 1) := by
    rw [List.map_map]
    exact map_eq_of_forall₂ h fun _ _ hcustomer => hcustomer.kycId
  rw [hcustomers, haccounts, hkyc]
  exact ⟨nodup_numbered _ _ _, nodup_accountIds n, nodup_numbered _ _ _⟩

/-- A generated bank has integrity, and its transactions are ordinary. -/
theorem generate_eq_ok {seed customerCount transactionCount : ℤ} {bank : SyntheticBank}
    (h : generate source seed customerCount transactionCount = .ok bank) :
    Integrity bank ∧ Named [] bank := by
  obtain ⟨_, _, h⟩ := bind_eq_ok.mp h
  obtain ⟨⟨made, last⟩, hmade, h⟩ := bind_eq_ok.mp h
  cases h
  unfold generateRecords at hmade
  obtain ⟨records, _, hrecords, hmade⟩ := Drawing.bind_eq_ok.mp hmade
  obtain ⟨counterparties, _, _, hmade⟩ := Drawing.bind_eq_ok.mp hmade
  obtain ⟨transactions, _, htransactions, hmade⟩ := Drawing.bind_eq_ok.mp hmade
  obtain ⟨rfl, -⟩ := Drawing.pure_eq_ok.mp hmade
  have hcustomers : List.Forall₂ IsCustomer (List.range customerCount.toNat) records :=
    (Drawing.mapM_eq_ok hrecords).imp fun _ _ ⟨_, _, hpass⟩ => customerRecords_eq_ok hpass
  have hordinary := (Drawing.mapM_eq_ok htransactions).imp
    fun _ _ ⟨_, _, hpass⟩ => ordinaryTransaction_eq_ok hpass
  have hids : transactions.map (·.transactionId) =
      (List.range transactionCount.toNat).map fun index => "TX-BG-" ++ zeroPadded 8 (index + 1) :=
    map_eq_of_forall₂ hordinary fun _ _ h => h.1
  obtain ⟨hcustomerIds, haccountIds, hkycIds⟩ := nodup_customerRecords hcustomers
  constructor
  · constructor
    · exact hcustomerIds
    · exact haccountIds
    · exact hkycIds
    · rw [hids]
      exact nodup_numbered _ _ _
    · exact List.nodup_nil
    · intro item hitem
      obtain ⟨_, _, hpass⟩ := exists_of_mem_forall₂ hordinary hitem
      exact hpass.2
    · exact fun item _ => item.amount_pos
    · nofun
  · constructor
    · intro item hitem
      obtain ⟨index, _, hpass⟩ := exists_of_mem_forall₂ hordinary hitem
      refine ⟨"BG", List.mem_cons_self, ?_⟩
      rw [hpass.1]
      exact namesScenario_ordinary _
    · nofun

end Generated

section Returns

variable {source : RandomSources}

/-- A source whose draws are in range and whose tokens do not run out. -/
structure RandomSources.Lawful (source : RandomSources) : Prop where
  randrange : ∀ start stop s, start < stop →
    start ≤ (source.randrange start stop s).1 ∧ (source.randrange start stop s).1 < stop
  choice : ∀ n s, 0 < n → (source.choice n s).1 < n
  choices : ∀ weights s, weights ≠ [] → (source.choices weights s).1 < weights.length
  lexify : ∀ pattern s, ∃ drawn, source.lexify pattern s = .ok drawn

/-- Something can be chosen among some items. -/
theorem RandomSources.Lawful.exists_choose (hlawful : source.Lawful) {α : Type} {items : List α}
    (h : items ≠ []) (s : source.State) : ∃ a s', choose source items s = .ok (a, s') := by
  have hlt := hlawful.choice items.length s (List.length_pos_iff.mpr h)
  refine ⟨items[(source.choice items.length s).1], (source.choice items.length s).2, ?_⟩
  simp only [choose, List.getElem?_eq_getElem hlt]
  rfl

/-- The records of a customer can be made. -/
theorem RandomSources.Lawful.exists_customerRecords (hlawful : source.Lawful) (index : ℕ)
    (s : source.State) : ∃ records s', customerRecords source index s = .ok (records, s') := by
  have hchoices : ∀ items weights : List _, items.length = weights.length → weights ≠ [] → ∀ s,
      ∃ a s', chooseWeighted source items weights s = .ok (a, s') := by
    intro items weights hlength hne s
    have hlt := hlawful.choices weights s hne
    rw [← hlength] at hlt
    refine ⟨items[(source.choices weights s).1], (source.choices weights s).2, ?_⟩
    simp only [chooseWeighted, List.getElem?_eq_getElem hlt]
    rfl
  have hwork : (if index % 4 = 0 then sectors else occupations) ≠ [] := by
    split <;> simp [sectors, occupations]
  obtain ⟨token, htoken⟩ := hlawful.lexify "????????"
    (source.randrange 2000 (if index % 4 = 0 then 80000 else 12000) s).2
  obtain ⟨occupation, t, hoccupation⟩ := hlawful.exists_choose hwork token.2
  obtain ⟨risk, t', hrisk⟩ := hchoices ["low", "medium", "high"] [75, 22, 3] rfl (by simp) t
  unfold customerRecords
  apply Drawing.exists_bind rfl
  apply Drawing.exists_bind htoken
  apply Drawing.exists_bind hoccupation
  exact Drawing.exists_bind hrisk ⟨_, t', rfl⟩

/-- The turnover of a customer is in the range that it is drawn from. -/
theorem RandomSources.Lawful.turnover_lt (hlawful : source.Lawful) {index : ℕ} {records : CustomerRecords}
    {s s' : source.State} (h : customerRecords source index s = .ok (records, s')) :
    ∃ n < 80000, records.customer.expectedMonthlyTurnover = .ofNat n := by
  unfold customerRecords at h
  obtain ⟨drawn, _, hdrawn, h⟩ := Drawing.bind_eq_ok.mp h
  obtain ⟨token, _, _, h⟩ := Drawing.bind_eq_ok.mp h
  obtain ⟨occupation, _, _, h⟩ := Drawing.bind_eq_ok.mp h
  obtain ⟨risk, _, _, h⟩ := Drawing.bind_eq_ok.mp h
  rw [← (Drawing.pure_eq_ok.mp h).1]
  refine ⟨drawn, ?_, rfl⟩
  have hdraw : _ = drawn := congrArg Prod.fst (Except.ok.inj hdrawn)
  rw [← hdraw]
  split
  · exact (hlawful.randrange 2000 80000 s (by decide)).2
  · exact (hlawful.randrange 2000 12000 s (by decide)).2.trans (by decide)

/-- A number that is not large can be divided by another. -/
theorem exists_quotient {n divisor : ℕ} (hn : n < 10 ^ 27) (hpos : 0 < divisor) :
    ∃ made, (Decimal.ofNat n).dividedBy (.ofNat divisor) = .ok made ∧
      made.value = decimalContext.nearest ((n : ℚ) / divisor) := by
  have hten : (10 : ℚ) ^ 27 ≤ Rounding.ten 999999 := by
    rw [← zpow_natCast]
    exact zpow_le_zpow_right₀ (by norm_num) (by norm_num)
  have hle : (n : ℚ) / divisor ≤ 10 ^ 27 := by
    apply (div_le_self (Nat.cast_nonneg n) (by exact_mod_cast hpos)).trans
    exact_mod_cast hn.le
  have hmade := @Decimal.exists_dividedBy (.ofNat n) (.ofNat divisor)
  simp only [Decimal.value_ofNat] at hmade
  have hnonneg : (0 : ℚ) ≤ n / divisor := div_nonneg (Nat.cast_nonneg n) (Nat.cast_nonneg divisor)
  exact hmade (by exact_mod_cast hpos) hnonneg (hle.trans hten)

/-- The amounts of a customer have a ceiling. -/
theorem exists_ceiling {customer : SyntheticCustomer} {n : ℕ} (hn : n < 80000)
    (hturnover : customer.expectedMonthlyTurnover = .ofNat n) :
    ∃ ceiling, amountCeiling customer = .ok ceiling ∧ 50 ≤ ceiling ∧ ceiling ≤ 80000 := by
  obtain ⟨quarter, hquarter, hvalue⟩ := @exists_quotient n 4 (hn.trans (by decide)) (by decide)
  have hshort : decimalContext.Representable 80000 :=
    ⟨80000, 0, by decide, by decide, by norm_num [Rounding.ten]⟩
  have hlt : (n : ℚ) < 80000 := by exact_mod_cast hn
  have hless : (n : ℚ) / (4 : ℕ) ≤ 80000 := by
    push_cast
    linarith
  have hmono := @Rounding.Format.nearest_mono decimalContext _ _ (by positivity) hless
  rw [hshort.nearest_eq, ← hvalue] at hmono
  have hfloor : ⌊quarter.value⌋ ≤ 80000 := Int.floor_le_iff.mpr (hmono.trans_lt (by norm_num))
  refine ⟨max 50 ⌊quarter.value⌋.toNat, ?_, le_max_left _ _, max_le (by decide) (by omega)⟩
  rw [amountCeiling, hturnover, hquarter]
  rfl

/-- An amount can be made of the cents that are drawn. -/
theorem exists_amount {drawn : ℕ} (hlow : 10 ≤ drawn) (hhigh : drawn < 10 ^ 27) :
    ∃ amount, (Decimal.ofNat drawn).dividedBy (.ofNat 100) = .ok amount ∧ 0 < amount.value := by
  obtain ⟨amount, hamount, hvalue⟩ := @exists_quotient drawn 100 hhigh (by decide)
  have hshort : decimalContext.Representable (1 / 10) :=
    ⟨1, -1, by decide, by decide, by norm_num [Rounding.ten]⟩
  have hten : (10 : ℚ) ≤ drawn := by exact_mod_cast hlow
  have hmore : (1 : ℚ) / 10 ≤ drawn / (100 : ℕ) := by
    push_cast
    linarith
  have hmono := @Rounding.Format.nearest_mono decimalContext _ _ (by norm_num) hmore
  rw [hshort.nearest_eq, ← hvalue] at hmono
  exact ⟨amount, hamount, lt_of_lt_of_le (by norm_num) hmono⟩

/-- Every account is grouped with others of its customer. -/
theorem exists_accountsByCustomer {accounts : List SyntheticAccount} {account : SyntheticAccount}
    (h : account ∈ accounts) :
    ∃ owned, (accountsByCustomer accounts).get? account.customerId = some owned ∧ owned ≠ [] := by
  unfold accountsByCustomer
  induction accounts using List.reverseRecOn with
  | nil => cases h
  | append_singleton accounts last ih =>
    rw [List.foldl_append, List.foldl_cons, List.foldl_nil, Dict.get?_set]
    split
    · exact ⟨_, rfl, by simp⟩
    · rename_i hother
      rcases List.mem_append.mp h with hbefore | hlast
      · exact ih hbefore
      · rw [List.mem_singleton.mp hlast] at hother
        exact absurd rfl hother

/-- Every customer has an account. -/
theorem IsCustomer.exists_account {index : ℕ} {records : CustomerRecords} (h : IsCustomer index records) :
    ∃ account ∈ records.accounts, account.customerId = records.customer.customerId := by
  have hpos : 0 < (if index % 3 = 0 then 2 else 1) := by
    split <;> omega
  rw [h.accounts]
  exact ⟨_, List.mem_map_of_mem (List.mem_range.mpr hpos), rfl⟩

/-- The transaction of an index can be made when it is booked in time. -/
theorem RandomSources.Lawful.exists_ordinaryTransaction (hlawful : source.Lawful)
    {customerCount index : ℕ} {records : List CustomerRecords}
    {counterparties : List SyntheticCounterparty}
    (hrecords : List.Forall₂ IsCustomer (List.range customerCount) records) (hpos : 0 < customerCount)
    (hturnover : ∀ made ∈ records, ∃ n < 80000, made.customer.expectedMonthlyTurnover = .ofNat n)
    (hcounterparties : counterparties ≠ [])
    (hbooked : baseDate + second * (60 * (index * 5)) ≤ datetimeMax) (s : source.State) :
    ∃ item s', ordinaryTransaction source customerCount (records.map (·.customer))
      (accountsByCustomer (records.flatMap (·.accounts))) counterparties index s = .ok (item, s') := by
  have hlength : records.length = customerCount := by
    rw [← hrecords.length_eq, List.length_range]
  have hlt : index % customerCount < records.length := by
    rw [hlength]
    exact Nat.mod_lt _ hpos
  have hmade : records[index % customerCount] ∈ records := List.getElem_mem hlt
  have hread : (records.map (·.customer))[index % customerCount]? =
      some records[index % customerCount].customer := by
    rw [List.getElem?_map, List.getElem?_eq_getElem hlt]
    rfl
  generalize records[index % customerCount] = made at hmade hread
  obtain ⟨_, _, hcustomer⟩ := exists_of_mem_forall₂ hrecords hmade
  obtain ⟨account, haccount, hown⟩ := hcustomer.exists_account
  obtain ⟨owned, howned, hne⟩ :=
    exists_accountsByCustomer (List.mem_flatMap.mpr ⟨_, hmade, haccount⟩)
  rw [hown] at howned
  obtain ⟨chosen, t, hchosen⟩ := hlawful.exists_choose hne s
  obtain ⟨turnover, hlimit, heq⟩ := hturnover made hmade
  obtain ⟨ceiling, hceiling, hleast, hmost⟩ := exists_ceiling hlimit heq
  obtain ⟨hlow, hhigh⟩ := hlawful.randrange 10 (ceiling * 100) t (by omega)
  obtain ⟨amount, hamount, hpositive⟩ := exists_amount hlow (by omega)
  obtain ⟨counterparty, t', hcounterparty⟩ := hlawful.exists_choose hcounterparties
    (source.randrange 10 (ceiling * 100) t).2
  obtain ⟨description, t'', hdescription⟩ := hlawful.exists_choose
    (List.cons_ne_nil "invoice" ["card settlement", "rent", "salary", "transfer"]) (source.random t').2
  unfold ordinaryTransaction
  apply Drawing.exists_bind (Drawing.lift_eq_ok.mpr ⟨orRaise_eq_ok.mpr hread, rfl⟩)
  apply Drawing.exists_bind (Drawing.lift_eq_ok.mpr ⟨orRaise_eq_ok.mpr howned, rfl⟩)
  apply Drawing.exists_bind hchosen
  apply Drawing.exists_bind (Drawing.lift_eq_ok.mpr ⟨hceiling, rfl⟩)
  apply Drawing.exists_bind rfl
  apply Drawing.exists_bind (Drawing.lift_eq_ok.mpr ⟨hamount, rfl⟩)
  apply Drawing.exists_bind hcounterparty
  apply Drawing.exists_bind (Drawing.lift_eq_ok.mpr ⟨addSeconds_eq_ok.mpr ⟨hbooked, rfl⟩, rfl⟩)
  apply Drawing.exists_bind rfl
  apply Drawing.exists_bind hdescription
  rw [dif_pos hpositive]
  exact ⟨_, t'', rfl⟩

/-- A bank is generated from a lawful source when the counts are valid and the last transaction is booked
in time. -/
theorem RandomSources.Lawful.exists_generate (hlawful : source.Lawful)
    {seed customerCount transactionCount : ℤ} (hcustomers : 1 ≤ customerCount)
    (htransactions : customerCount ≤ transactionCount)
    (hbooked : baseDate + second * (60 * (transactionCount.toNat * 5)) ≤ datetimeMax) :
    ∃ bank, generate source seed customerCount transactionCount = .ok bank := by
  obtain ⟨records, t, hrecords⟩ := Drawing.exists_mapM (List.range customerCount.toNat)
    (fun index _ => hlawful.exists_customerRecords index) (source.seeded seed)
  have hmade : List.Forall₂ IsCustomer (List.range customerCount.toNat) records :=
    (Drawing.mapM_eq_ok hrecords).imp fun _ _ ⟨_, _, hpass⟩ => customerRecords_eq_ok hpass
  have hturnover : ∀ made ∈ records, ∃ n < 80000, made.customer.expectedMonthlyTurnover = .ofNat n := by
    intro made hmem
    obtain ⟨_, _, _, _, hpass⟩ := exists_of_mem_forall₂ (Drawing.mapM_eq_ok hrecords) hmem
    exact hlawful.turnover_lt hpass
  obtain ⟨counterparties, t', hcounterparties⟩ := Drawing.exists_mapM
    (List.range (max 200 (customerCount.toNat / 2))) (f := counterparty source)
    (fun index _ s => by
      obtain ⟨country, t, hcountry⟩ := hlawful.exists_choose (by simp [countries] : countries ≠ []) s
      exact Drawing.exists_bind hcountry ⟨_, t, rfl⟩) t
  have hearly : ∀ index ∈ List.range transactionCount.toNat,
      baseDate + second * (60 * (index * 5)) ≤ datetimeMax := by
    intro index hindex
    have hle : index * 5 ≤ transactionCount.toNat * 5 :=
      Nat.mul_le_mul_right 5 (List.mem_range.mp hindex).le
    exact (Nat.add_le_add_left (Nat.mul_le_mul_left _ (Nat.mul_le_mul_left _ hle)) _).trans hbooked
  have hne : counterparties ≠ [] := by
    apply List.ne_nil_of_length_pos
    rw [← (Drawing.mapM_eq_ok hcounterparties).length_eq, List.length_range]
    omega
  obtain ⟨transactions, t'', hmadeTransactions⟩ := Drawing.exists_mapM
    (List.range transactionCount.toNat)
    (fun index hindex =>
      hlawful.exists_ordinaryTransaction hmade (by omega) hturnover hne (hearly index hindex)) t'
  have hgenerated : ∃ bank s', generateRecords source seed customerCount.toNat transactionCount.toNat
      (source.seeded seed) = .ok (bank, s') := by
    unfold generateRecords
    apply Drawing.exists_bind hrecords
    apply Drawing.exists_bind hcounterparties
    exact Drawing.exists_bind hmadeTransactions ⟨_, t'', rfl⟩
  obtain ⟨bank, s', hbank⟩ := hgenerated
  exact ⟨bank, bind_eq_ok.mpr ⟨(), raiseIf_eq_ok.mpr (by omega), bind_eq_ok.mpr ⟨(bank, s'), hbank, rfl⟩⟩⟩

end Returns

section Injected

variable {scenario : ScenarioDefinition} {customerId accountId : String}

/-- The transaction of a sequence number of a scenario, on an account of a customer. -/
structure IsInjected (scenario : ScenarioDefinition) (customerId accountId : String) (sequence : ℕ)
    (item : SyntheticTransaction) : Prop where
  transactionId : item.transactionId = injectedId scenario.scenarioId sequence
  customerId : item.customerId = customerId
  accountId : item.accountId = accountId

/-- A transaction has the ID of its sequence number. -/
theorem isInjected_transaction {sequence : ℕ} {bookedAt : Datetime} {amount : Decimal}
    {direction description : String} {item : SyntheticTransaction}
    (h : transaction scenario customerId accountId sequence bookedAt amount direction description =
      .ok item) : IsInjected scenario customerId accountId sequence item := by
  obtain ⟨_, _, h⟩ := bind_eq_ok.mp h
  split at h
  · cases h
    exact ⟨rfl, rfl, rfl⟩
  · cases h

/-- The three debits have the sequence numbers from two. -/
theorem isInjected_threeDebits {amount : Decimal} {description : String} {items : List SyntheticTransaction}
    (h : threeDebits scenario customerId accountId amount description = .ok items) :
    List.Forall₂ (fun index => IsInjected scenario customerId accountId (index + 2)) (List.range 3)
      items := by
  apply (mapM_eq_ok.mp h).imp
  intro index item hmake
  obtain ⟨_, _, hmake⟩ := bind_eq_ok.mp hmake
  exact isInjected_transaction hmake

/-- A first transaction and three debits have the sequence numbers from one. -/
theorem isInjected_cons {first : SyntheticTransaction} {outgoing : List SyntheticTransaction}
    (hfirst : IsInjected scenario customerId accountId 1 first)
    (houtgoing : List.Forall₂ (fun index => IsInjected scenario customerId accountId (index + 2))
      (List.range 3) outgoing) :
    List.Forall₂ (fun index => IsInjected scenario customerId accountId (index + 1)) (List.range 4)
      (first :: outgoing) := by
  rw [List.range_succ_eq_map]
  exact .cons hfirst (List.forall₂_map_left_iff.mpr houtgoing)

/-- The transactions of a family are numbered from one. -/
theorem isInjected_familyTransactions {injected : List SyntheticTransaction}
    (h : familyTransactions scenario customerId accountId = .ok injected) :
    ∃ count, List.Forall₂ (fun index => IsInjected scenario customerId accountId (index + 1))
      (List.range count) injected := by
  unfold familyTransactions at h
  dsimp only at h
  split at h
  · obtain ⟨first, hfirst, h⟩ := bind_eq_ok.mp h
    obtain ⟨_, _, h⟩ := bind_eq_ok.mp h
    obtain ⟨outgoing, houtgoing, h⟩ := bind_eq_ok.mp h
    cases h
    exact ⟨4, isInjected_cons (isInjected_transaction hfirst) (isInjected_threeDebits houtgoing)⟩
  split at h
  · refine ⟨countOrFive scenario, (mapM_eq_ok.mp h).imp ?_⟩
    intro index item hmake
    obtain ⟨_, _, hmake⟩ := bind_eq_ok.mp hmake
    exact isInjected_transaction hmake
  split at h
  · obtain ⟨first, hfirst, h⟩ := bind_eq_ok.mp h
    have hinjected := isInjected_transaction hfirst
    split at h
    · obtain ⟨outgoing, houtgoing, h⟩ := bind_eq_ok.mp h
      cases h
      exact ⟨4, isInjected_cons ⟨hinjected.1, hinjected.2, hinjected.3⟩ (isInjected_threeDebits houtgoing)⟩
    · cases h
      exact ⟨1, .cons hinjected .nil⟩
  · cases h

/-- The transactions that are injected for a scenario: with distinct IDs that name it, on one account of
the customer. -/
structure InjectedFor (bank : SyntheticBank) (scenario : ScenarioDefinition) (customerId : String)
    (injected : List SyntheticTransaction) : Prop where
  ids : (injected.map (·.transactionId)).Nodup
  named : ∀ item ∈ injected, NamesScenario scenario.scenarioId item.transactionId
  customer : ∀ item ∈ injected, item.customerId = customerId
  owned : ∀ item ∈ injected, OnOwnAccount bank.accounts item

/-- What is prepared is injected for the chosen customer. -/
theorem injectedFor_of_prepare {env : InjectionEnvironment} {bank : SyntheticBank}
    {customer : SyntheticCustomer} {injected : List SyntheticTransaction}
    (h : prepare env bank scenario = .ok (customer, injected)) :
    InjectedFor bank scenario customer.customerId injected := by
  obtain ⟨chosen, _, h⟩ := bind_eq_ok.mp h
  obtain ⟨_, _, h⟩ := bind_eq_ok.mp h
  obtain ⟨account, haccount, h⟩ := bind_eq_ok.mp h
  obtain ⟨made, hmade, h⟩ := bind_eq_ok.mp h
  cases h
  obtain ⟨count, hnumbered⟩ := isInjected_familyTransactions hmade
  have hitem : ∀ item ∈ injected, ∃ sequence,
      IsInjected scenario customer.customerId account.accountId sequence item := by
    intro item hmem
    obtain ⟨index, _, hinjected⟩ := exists_of_mem_forall₂ hnumbered hmem
    exact ⟨index + 1, hinjected⟩
  have haccount := List.mem_filter.mp (List.mem_of_mem_head? (orRaise_eq_ok.mp haccount))
  constructor
  · rw [map_eq_of_forall₂ hnumbered fun _ _ hinjected => hinjected.transactionId]
    apply List.Nodup.map _ List.nodup_range
    intro a b hsame
    exact Nat.succ_injective (injectedId_inj hsame)
  · intro item hmem
    obtain ⟨sequence, hinjected⟩ := hitem item hmem
    rw [hinjected.transactionId]
    exact namesScenario_injectedId _ _
  · intro item hmem
    obtain ⟨_, hinjected⟩ := hitem item hmem
    exact hinjected.customerId
  · intro item hmem
    obtain ⟨_, hinjected⟩ := hitem item hmem
    refine ⟨account, haccount.1, hinjected.accountId.symm, ?_⟩
    rw [hinjected.customerId]
    exact of_decide_eq_true haccount.2

/-- A booking is no later than the latest one. -/
theorem le_latestBooking {items : List SyntheticTransaction} {item : SyntheticTransaction}
    (h : item ∈ items) : item.bookedAt ≤ latestBooking items := by
  unfold latestBooking
  induction items with
  | nil => cases h
  | cons first rest ih =>
    rcases List.mem_cons.mp h with rfl | hrest
    · exact le_max_left _ _
    · exact (ih hrest).trans (le_max_right _ _)

/-- An alert of a customer, made of some of the transactions and dated after them. -/
structure RaisedFrom (customerId : String) (transactions : List SyntheticTransaction)
    (alert : SyntheticAlert) : Prop where
  customer : alert.customerId = customerId
  causal : ∃ causal : List SyntheticTransaction, alert.causalTransactionIds = causal.map (·.transactionId) ∧
    ∀ item ∈ causal, item ∈ transactions ∧ item.customerId = customerId ∧ item.bookedAt < alert.createdAt

/-- The rules of the table raise alerts from the transactions that they are given. -/
theorem raisedFrom_of_rule {ruleId : String} {rule : AlertRule}
    (hrule : rules.lookup ruleId = some rule) {transactions : List SyntheticTransaction}
    {alert : SyntheticAlert} (h : rule customerId transactions = .ok (some alert)) :
    RaisedFrom customerId transactions alert := by
  have hafter (bookedAt latest : ℕ) (hle : bookedAt ≤ latest) : bookedAt < latest + second :=
    Nat.lt_of_le_of_lt hle (Nat.lt_add_of_pos_right (by decide))
  obtain ⟨rfl, rfl⟩ | ⟨rfl, rfl⟩ | ⟨rfl, rfl⟩ := rule_of_lookup hrule
  · unfold expectedActivityVariance at h
    split at h
    · cases h
    · rename_i latest hlatest
      obtain ⟨createdAt, hcreated, h⟩ := bind_eq_ok.mp h
      cases h
      obtain ⟨-, rfl⟩ := addSeconds_eq_ok.mp hcreated
      have hmem := List.mem_filter.mp (mem_sortedByBooking.mp (List.mem_of_getLast? hlatest))
      refine ⟨rfl, [latest], rfl, ?_⟩
      intro item hitem
      rw [List.mem_singleton.mp hitem]
      exact ⟨hmem.1, of_decide_eq_true hmem.2, hafter _ _ le_rfl⟩
  · obtain ⟨incoming, hincoming, hlook⟩ := Search.exists_of_firstHit h
    obtain ⟨_, _, _, _, rfl⟩ := drainedAlert_eq_some (rapidMovement_eq_some hlook).2.2
    refine ⟨rfl, incoming :: following _ incoming, rfl, ?_⟩
    intro item hitem
    have hlisted : item ∈ sortedByBooking (transactions.filter fun item => item.customerId = customerId) := by
      rcases List.mem_cons.mp hitem with rfl | hfollowing
      · exact hincoming
      · exact (mem_following.mp hfollowing).1
    have hmem := List.mem_filter.mp (mem_sortedByBooking.mp hlisted)
    exact ⟨hmem.1, of_decide_eq_true hmem.2, hafter _ _ (le_latestBooking hitem)⟩
  · obtain ⟨first, rest, ⟨hsuffix, _⟩, hwindow⟩ := exists_window_of_fires h
    obtain ⟨_, _, rfl⟩ := windowAlert_eq_some.mp hwindow
    refine ⟨rfl, creditWindow first (first :: rest), rfl, ?_⟩
    intro item hitem
    have hlisted := hsuffix.subset (mem_creditWindow.mp hitem).1
    have hmem := List.mem_filter.mp (mem_sortedByBooking.mp hlisted)
    exact ⟨hmem.1, (of_decide_eq_true hmem.2).1, hafter _ _ (le_latestBooking hitem)⟩

/-- The expected alert has the ID of the scenario and is raised from the injected transactions. -/
theorem raisedFrom_of_verifyAlert {injected : List SyntheticTransaction}
    {expectedAlert : SyntheticAlert} {fired : List String}
    (h : verifyAlert scenario customerId injected = .ok (expectedAlert, fired)) :
    expectedAlert.alertId = "ALT-" ++ scenario.scenarioId ∧
      RaisedFrom customerId injected expectedAlert := by
  obtain ⟨rule, hrule, h⟩ := bind_eq_ok.mp h
  obtain ⟨result, hresult, h⟩ := bind_eq_ok.mp h
  obtain ⟨alert, halert, h⟩ := bind_eq_ok.mp h
  obtain ⟨_, _, h⟩ := bind_eq_ok.mp h
  cases h
  rw [orRaise_eq_ok] at hrule halert
  subst halert
  have hraised := raisedFrom_of_rule hrule hresult
  exact ⟨rfl, hraised.customer, hraised.causal⟩

end Injected

section Runs

variable {env : InjectionEnvironment} {bank bank' : SyntheticBank} {scenario : ScenarioDefinition}
  {scenarioIds : List String}

/-- Transactions for a scenario have been put into the bank, and an alert from them or none. -/
structure Adds (bank : SyntheticBank) (scenario : ScenarioDefinition) (bank' : SyntheticBank)
    (customerId : String) (injected : List SyntheticTransaction) (added : List SyntheticAlert) :
    Prop where
  customers : bank'.customers = bank.customers
  accounts : bank'.accounts = bank.accounts
  kycIds : bank'.kycRecords.map (·.kycId) = bank.kycRecords.map (·.kycId)
  transactions : bank'.transactions = bank.transactions ++ injected
  alerts : bank'.alerts = bank.alerts ++ added
  injectedFor : InjectedFor bank scenario customerId injected
  atMostOne : added.length ≤ 1
  raised : ∀ alert ∈ added,
    alert.alertId = "ALT-" ++ scenario.scenarioId ∧ RaisedFrom customerId injected alert

/-- The change of a KYC record keeps the IDs of the records. -/
theorem kycIds_of_injectKyc {customerId : String} {kycRecords kycRecords' : List SyntheticKYC}
    {kycChange : List InjectedRecord}
    (h : injectKyc scenario customerId kycRecords = .ok (kycRecords', kycChange)) :
    kycRecords'.map (·.kycId) = kycRecords.map (·.kycId) := by
  unfold injectKyc at h
  split at h
  · split at h
    · cases h
    · rename_i index hindex
      split at h
      · cases h
      · rename_i current hcurrent
        cases h
        obtain ⟨hlt, rfl⟩ := List.getElem?_eq_some_iff.mp hcurrent
        rw [List.map_set]
        apply List.ext_getElem
        · simp
        · intro i hi hi'
          rw [List.getElem_set]
          split
          · rename_i heq
            subst heq
            simp [injectedKyc]
          · rfl
  · cases h
    rfl

/-- An injection leaves the bank, or adds transactions and at most one alert; whether it returns or not. -/
theorem inject_adds (env : InjectionEnvironment) (bank : SyntheticBank) (scenario : ScenarioDefinition) :
    (inject env bank scenario).2 = bank ∨ ∃ customerId injected alerts,
      Adds bank scenario (inject env bank scenario).2 customerId injected alerts := by
  unfold inject
  split
  · exact .inl rfl
  · rename_i customer injected hprepare
    have hinjected := injectedFor_of_prepare hprepare
    right
    dsimp only
    split
    · exact ⟨customer.customerId, injected, [], rfl, rfl, rfl, rfl, (List.append_nil _).symm, hinjected,
        Nat.zero_le 1, nofun⟩
    · rename_i expectedAlert fired hverify
      have hraised : ∀ alert ∈ [expectedAlert], alert.alertId = "ALT-" ++ scenario.scenarioId ∧
          RaisedFrom customer.customerId injected alert := by
        intro alert halert
        rw [List.mem_singleton.mp halert]
        exact raisedFrom_of_verifyAlert hverify
      split
      · exact ⟨customer.customerId, injected, [expectedAlert], rfl, rfl, rfl, rfl, rfl, hinjected, le_rfl,
          hraised⟩
      · rename_i kycRecords kycChange hkyc
        exact ⟨customer.customerId, injected, [expectedAlert], rfl, rfl, kycIds_of_injectKyc hkyc, rfl, rfl,
          hinjected, le_rfl, hraised⟩

/-- Two lists of distinct items with no item in common. -/
theorem nodup_map_append {α β : Type} {f : α → β} {l l' : List α} (h : (l.map f).Nodup)
    (h' : (l'.map f).Nodup) (hapart : ∀ a ∈ l, ∀ b ∈ l', f a ≠ f b) : ((l ++ l').map f).Nodup := by
  rw [List.map_append, List.nodup_append]
  refine ⟨h, h', ?_⟩
  intro x hx y hy
  obtain ⟨a, ha, rfl⟩ := List.mem_map.mp hx
  obtain ⟨b, hb, rfl⟩ := List.mem_map.mp hy
  exact hapart a ha b hb

section Step

variable {customerId : String} {injected : List SyntheticTransaction} {alerts : List SyntheticAlert}

/-- What is injected for a new scenario has other IDs than what is in the bank. -/
theorem Adds.apart (hadds : Adds bank scenario bank' customerId injected alerts)
    (hnamed : Named scenarioIds bank) (hnew : scenario.scenarioId ∉ "BG" :: scenarioIds) :
    ∀ a ∈ bank.transactions, ∀ b ∈ injected, a.transactionId ≠ b.transactionId := by
  intro a ha b hb hsame
  obtain ⟨id, hid, hnames⟩ := hnamed.transactions a ha
  rw [hsame] at hnames
  rw [hnames.inj (hadds.injectedFor.named b hb)] at hid
  exact hnew hid

/-- An alert from injected transactions rests on them, in the bank that has them. -/
theorem Adds.restsOn_new (hadds : Adds bank scenario bank' customerId injected alerts)
    (hunique : (bank'.transactions.map (·.transactionId)).Nodup) {alert : SyntheticAlert}
    (halert : alert ∈ alerts) : RestsOn bank'.transactions alert := by
  obtain ⟨hcustomer, causal, hids, hcausal⟩ := (hadds.raised alert halert).2
  have hmem : ∀ item ∈ causal, item ∈ bank'.transactions := by
    intro item hitem
    rw [hadds.transactions]
    exact List.mem_append_right _ (hcausal item hitem).1
  constructor
  · intro id hid
    rw [hids] at hid
    obtain ⟨item, hitem, rfl⟩ := List.mem_map.mp hid
    exact ⟨item, hmem item hitem, rfl, (hcausal item hitem).2.1.trans hcustomer.symm⟩
  · intro item hitem hid
    rw [hids] at hid
    obtain ⟨other, hother, hsame⟩ := List.mem_map.mp hid
    obtain rfl := List.inj_on_of_nodup_map hunique (hmem other hother) hitem hsame
    exact (hcausal other hother).2.2

/-- An alert rests on the same transactions when others are added with other IDs. -/
theorem RestsOn.append {transactions : List SyntheticTransaction} {alert : SyntheticAlert}
    (h : RestsOn transactions alert)
    (hapart : ∀ a ∈ transactions, ∀ b ∈ injected, a.transactionId ≠ b.transactionId) :
    RestsOn (transactions ++ injected) alert := by
  constructor
  · intro id hid
    obtain ⟨item, hitem, hsame⟩ := h.causal id hid
    exact ⟨item, List.mem_append_left _ hitem, hsame⟩
  · intro item hitem hid
    rcases List.mem_append.mp hitem with hold | hnew
    · exact h.dated item hold hid
    · obtain ⟨causal, hcausal, hsame, -⟩ := h.causal _ hid
      exact absurd hsame (hapart causal hcausal item hnew)

/-- What is added for a new scenario keeps the integrity of a bank. -/
theorem Adds.integrity (hadds : Adds bank scenario bank' customerId injected alerts)
    (hintegrity : Integrity bank) (hnamed : Named scenarioIds bank)
    (hnew : scenario.scenarioId ∉ "BG" :: scenarioIds) : Integrity bank' := by
  have hapart := hadds.apart hnamed hnew
  have hunique : (bank'.transactions.map (·.transactionId)).Nodup := by
    rw [hadds.transactions]
    exact nodup_map_append hintegrity.transactionIds hadds.injectedFor.ids hapart
  constructor
  · rw [hadds.customers]
    exact hintegrity.customerIds
  · rw [hadds.accounts]
    exact hintegrity.accountIds
  · rw [hadds.kycIds]
    exact hintegrity.kycIds
  · exact hunique
  · rw [hadds.alerts]
    apply nodup_map_append hintegrity.alertIds
    · match alerts, hadds.atMostOne with
      | [], _ => exact List.nodup_nil
      | [alert], _ => exact List.nodup_singleton _
    · intro old hold alert halert hsame
      obtain ⟨id, hid, hname⟩ := hnamed.alerts old hold
      rw [hname, (hadds.raised alert halert).1] at hsame
      have hlist := congrArg String.toList hsame
      rw [String.toList_append, String.toList_append] at hlist
      rw [String.toList_inj.mp (List.append_cancel_left hlist)] at hid
      exact hnew (List.mem_cons_of_mem _ hid)
  · intro item hitem
    rw [hadds.transactions] at hitem
    rw [hadds.accounts]
    rcases List.mem_append.mp hitem with hold | hinjected
    · exact hintegrity.owned item hold
    · exact hadds.injectedFor.owned item hinjected
  · exact fun item _ => item.amount_pos
  · intro alert halert
    rw [hadds.alerts] at halert
    rcases List.mem_append.mp halert with hold | hraised
    · rw [hadds.transactions]
      exact (hintegrity.rests alert hold).append hapart
    · exact hadds.restsOn_new hunique hraised

/-- What is added for a scenario names it. -/
theorem Adds.named (hadds : Adds bank scenario bank' customerId injected alerts)
    (hnamed : Named scenarioIds bank) : Named (scenario.scenarioId :: scenarioIds) bank' := by
  constructor
  · intro item hitem
    rw [hadds.transactions] at hitem
    rcases List.mem_append.mp hitem with hold | hinjected
    · obtain ⟨id, hid, hnames⟩ := hnamed.transactions item hold
      refine ⟨id, ?_, hnames⟩
      rcases List.mem_cons.mp hid with rfl | hid
      · exact List.mem_cons_self
      · exact List.mem_cons_of_mem _ (List.mem_cons_of_mem _ hid)
    · exact ⟨scenario.scenarioId, by simp, hadds.injectedFor.named item hinjected⟩
  · intro alert halert
    rw [hadds.alerts] at halert
    rcases List.mem_append.mp halert with hold | hraised
    · obtain ⟨id, hid, hname⟩ := hnamed.alerts alert hold
      exact ⟨id, List.mem_cons_of_mem _ hid, hname⟩
    · exact ⟨scenario.scenarioId, List.mem_cons_self, (hadds.raised alert hraised).1⟩

end Step

/-- Scenarios are injected one after the other, whether a call returns or raises. -/
def injectAll (bank : SyntheticBank) (calls : List (InjectionEnvironment × ScenarioDefinition)) :
    SyntheticBank :=
  calls.foldl (fun bank call => (inject call.1 bank call.2).2) bank

/-- Injections of new scenarios keep the integrity of a bank. -/
theorem integrity_injectAll {calls : List (InjectionEnvironment × ScenarioDefinition)}
    (hintegrity : Integrity bank) (hnamed : Named scenarioIds bank)
    (hnew : ∀ call ∈ calls, call.2.scenarioId ∉ "BG" :: scenarioIds)
    (hdistinct : (calls.map fun call => call.2.scenarioId).Nodup) : Integrity (injectAll bank calls) := by
  induction calls generalizing bank scenarioIds with
  | nil => exact hintegrity
  | cons call rest ih =>
    rw [List.map_cons, List.nodup_cons] at hdistinct
    have hfirst := hnew call List.mem_cons_self
    have hrest : ∀ later ∈ rest, later.2.scenarioId ∉ "BG" :: call.2.scenarioId :: scenarioIds := by
      intro later hlater hmem
      have hold := hnew later (List.mem_cons_of_mem _ hlater)
      have hother : later.2.scenarioId ≠ call.2.scenarioId := by
        intro hsame
        exact hdistinct.1 (hsame ▸ List.mem_map_of_mem hlater)
      simp only [List.mem_cons] at hmem hold
      tauto
    have hstep : Integrity (inject call.1 bank call.2).2 ∧
        Named (call.2.scenarioId :: scenarioIds) (inject call.1 bank call.2).2 := by
      rcases inject_adds call.1 bank call.2 with hunchanged | ⟨customerId, injected, alerts, hadds⟩
      · rw [hunchanged]
        refine ⟨hintegrity, ?_, ?_⟩
        · intro item hitem
          obtain ⟨id, hid, hnames⟩ := hnamed.transactions item hitem
          refine ⟨id, ?_, hnames⟩
          simp only [List.mem_cons] at hid ⊢
          tauto
        · intro alert halert
          obtain ⟨id, hid, hname⟩ := hnamed.alerts alert halert
          exact ⟨id, List.mem_cons_of_mem _ hid, hname⟩
      · exact ⟨hadds.integrity hintegrity hnamed hfirst, hadds.named hnamed⟩
    exact ih hstep.1 hstep.2 hrest hdistinct.2

end Runs

/-- A generated bank has integrity after any injections of scenarios with distinct IDs other than `BG`. -/
theorem integrity_of_generated (source : RandomSources) (seed customerCount transactionCount : ℤ)
    (bank : SyntheticBank) (hbank : generate source seed customerCount transactionCount = .ok bank)
    (calls : List (InjectionEnvironment × ScenarioDefinition))
    (hordinary : ∀ call ∈ calls, call.2.scenarioId ≠ "BG")
    (hdistinct : (calls.map fun call => call.2.scenarioId).Nodup) : Integrity (injectAll bank calls) := by
  obtain ⟨hintegrity, hnamed⟩ := generate_eq_ok hbank
  apply integrity_injectAll hintegrity hnamed _ hdistinct
  intro call hcall hmem
  exact hordinary call hcall (List.mem_singleton.mp hmem)

/-- A source that draws the first of everything. -/
def firstSource : RandomSources where
  State := Unit
  seeded _ := ()
  randrange start _ s := (start, s)
  choice _ s := (0, s)
  choices _ s := (0, s)
  random s := (0, s)
  lexify pattern s := .ok (pattern, s)

/-- What it draws is in range. -/
theorem firstSource_lawful : firstSource.Lawful where
  randrange _ _ _ h := ⟨le_rfl, h⟩
  choice _ _ h := h
  choices _ _ h := List.length_pos_iff.mpr h
  lexify _ _ := ⟨_, rfl⟩

/-- Two customers and three transactions, after a scenario that is verified and one whose alert rule is
unknown. -/
theorem integrity_of_generated_two : ∃ bank, generate firstSource 42 2 3 = .ok bank ∧
    Integrity (injectAll bank
      [(sampleEnvironment, sampleScenario "rapid_funds_movement" "RAPID_FUNDS_MOVEMENT"),
        (sampleEnvironment, sampleScenario "ordinary" "UNKNOWN_RULE" "DEV-002")]) := by
  obtain ⟨bank, hbank⟩ := @RandomSources.Lawful.exists_generate firstSource firstSource_lawful 42 2 3
    (by decide) (by decide) (by decide)
  refine ⟨bank, hbank, integrity_of_generated firstSource 42 2 3 bank hbank _ ?_ ?_⟩
  · simp [sampleScenario]
  · simp [sampleScenario]

end Amlguard.Simulation
