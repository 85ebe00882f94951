import Amlguard.Domain.Decimals

/-!
# The synthetic bank

The records of a generated bank, with all their fields. A date is its day number; the amount of a
transaction is positive.
-/

namespace Amlguard.Simulation

/-- A date. -/
abbrev Date := ℕ

/-- A `SyntheticCustomer`. -/
structure SyntheticCustomer where
  customerId : String
  customerType : String
  displayToken : String
  countryCode : String := "FR"
  occupationOrSector : String
  expectedMonthlyTurnover : Decimal
  riskLevel : String
  deriving DecidableEq

/-- A `SyntheticAccount`. -/
structure SyntheticAccount where
  accountId : String
  customerId : String
  currency : String
  openedAt : Date
  status : String := "active"
  deriving DecidableEq

/-- A `SyntheticKYC`. -/
structure SyntheticKYC where
  kycId : String
  customerId : String
  reviewedAt : Date
  purpose : String
  expectedActivity : List (String × Json)
  status : String := "current"
  deriving DecidableEq

/-- A `SyntheticCounterparty`. -/
structure SyntheticCounterparty where
  counterpartyId : String
  displayToken : String
  countryCode : String
  entityType : String
  deriving DecidableEq

/-- A `SyntheticTransaction`. -/
structure SyntheticTransaction where
  transactionId : String
  accountId : String
  customerId : String
  counterpartyId : Option String
  bookedAt : Datetime
  amount : Decimal
  currency : String := "EUR"
  direction : String
  description : String
  injectedScenarioId : Option String := none
  amount_pos : 0 < amount.value
  deriving DecidableEq

/-- A `SyntheticAlert`. -/
structure SyntheticAlert where
  alertId : String
  customerId : String
  ruleId : String
  ruleVersion : String := "1.0"
  causalTransactionIds : List String
  calculationTrace : List (String × Json)
  createdAt : Datetime
  deriving DecidableEq

/-- A `SyntheticBank`. -/
structure SyntheticBank where
  datasetVersion : String := "1.0"
  seed : ℤ
  customers : List SyntheticCustomer
  accounts : List SyntheticAccount
  kycRecords : List SyntheticKYC
  counterparties : List SyntheticCounterparty
  transactions : List SyntheticTransaction
  alerts : List SyntheticAlert := []
  deriving DecidableEq

/-- A bank with one customer, who has one account. -/
def sampleBank : SyntheticBank where
  seed := 1
  customers := [⟨"CUS-000001", "business", "SYN-A", "FR", "retail", .ofNat 4000, "low"⟩]
  accounts := [⟨"ACC-000001-1", "CUS-000001", "EUR", 0, "active"⟩]
  kycRecords := [⟨"KYC-000001", "CUS-000001", 0, "ordinary commercial activity", [], "current"⟩]
  counterparties := [⟨"CTP-000001", "SYN-B", "FR", "merchant"⟩]
  transactions := []

end Amlguard.Simulation
