import Amlguard.Library.Tables
import Amlguard.Simulation.Models
import Mathlib.Data.Rat.Floor

/-!
# The bank in PostgreSQL

`persist_bank` writes a bank into six tables, and the PostgreSQL repository reads them back. An external
ID is kept in a column of its own; references between rows are the UUIDs that `stable_uuid` makes of them.
The in-memory repository reads the bank itself.

The bank is written in one transaction: nothing is, if the database refuses a statement (a value that a
column cannot hold, no rows at all, too many parameters). An instant is one in UTC, as the columns give it
back. A JSONB column may give the fields of an object back in another order.
-/

namespace Amlguard.Simulation

/-- Documents that differ in the order of the fields of their objects alone. -/
inductive SameDocument : Json → Json → Prop where
  | refl (a : Json) : SameDocument a a
  | fields {a b : List (String × Json)} (h : a.Perm b) : SameDocument (.object a) (.object b)
  | field (before after : List (String × Json)) (name : String) {a b : Json} (h : SameDocument a b) :
    SameDocument (.object (before ++ (name, a) :: after)) (.object (before ++ (name, b) :: after))
  | item (before after : List Json) {a b : Json} (h : SameDocument a b) :
    SameDocument (.array (before ++ a :: after)) (.array (before ++ b :: after))
  | trans {a b c : Json} (h : SameDocument a b) (h' : SameDocument b c) : SameDocument a c

section Tables

/-- A row of `bank.customers`. -/
structure CustomerRecord where
  id : UUID
  customerRef : String
  customerType : String
  displayToken : String
  countryCode : String
  occupationOrSector : String
  expectedMonthlyTurnover : Decimal
  riskLevel : String

/-- A row of `bank.accounts`. -/
structure AccountRecord where
  id : UUID
  accountRef : String
  customerId : UUID
  currency : String
  openedAt : Date
  status : String

/-- A row of `bank.kyc_records`. -/
structure KYCRecord where
  id : UUID
  kycRef : String
  customerId : UUID
  validFrom : Date
  reviewedAt : Date
  purpose : String
  expectedActivity : List (String × Json)
  status : String

/-- A row of `bank.counterparties`. -/
structure CounterpartyRecord where
  id : UUID
  counterpartyRef : String
  displayToken : String
  countryCode : String
  entityType : String

/-- A row of `bank.transactions`. -/
structure TransactionRecord where
  id : UUID
  transactionRef : String
  accountId : UUID
  customerId : UUID
  counterpartyId : Option UUID
  bookedAt : Datetime
  amount : Decimal
  currency : String
  direction : String
  description : String
  injectedScenarioId : Option String

/-- A row of `casework.alerts`. -/
structure AlertRecord where
  id : UUID
  alertRef : String
  customerId : UUID
  ruleId : String
  ruleVersion : String
  causalTransactionRefs : List String
  calculationTrace : List (String × Json)
  createdAt : Datetime

/-- The tables of the bank. -/
structure BankDatabase where
  customers : List CustomerRecord := []
  accounts : List AccountRecord := []
  kycRecords : List KYCRecord := []
  counterparties : List CounterpartyRecord := []
  transactions : List TransactionRecord := []
  alerts : List AlertRecord := []

end Tables

/-- What the two repositories take from outside: UUIDs of external IDs, the exception of the first statement
that the database refuses, if it refuses one, what a JSONB column gives back, the order of a query, the texts
of instants and dates, and the digest of a document with sorted fields. -/
structure BankStorage where
  stableUuid : String → UUID
  refusal : BankDatabase → SyntheticBank → Option PyError
  jsonb : List (String × Json) → List (String × Json)
  orderBy : {R : Type} → (R → ℤ) → List R → List R
  datetimeText : Datetime → String
  dateText : Date → String
  canonicalHash : Json → String
  stableUuid_injective : Function.Injective stableUuid
  jsonb_same : ∀ document, SameDocument (.object (jsonb document)) (.object document)
  orderBy_perm : ∀ {R : Type} (key : R → ℤ) (rows : List R), (orderBy key rows).Perm rows
  canonicalHash_same : ∀ {a b : Json}, SameDocument a b → canonicalHash a = canonicalHash b

/-- A value as a `Numeric(18, 2)` column gives it back: with two decimals, halves away from zero, and a zero
without a sign. -/
def numeric2 (amount : Decimal) : Decimal :=
  let digits := ⌊|amount.value| * 100 + 1 / 2⌋.toNat
  { negative := amount.value < 0 ∧ digits ≠ 0, digits, exponent := -2 }

/-- `TRANSACTION_BATCH_SIZE`. -/
def transactionBatchSize : ℕ := 1000

section Persistence

variable (storage : BankStorage)

/-- The row of a customer. -/
def customerRecord (item : SyntheticCustomer) : CustomerRecord where
  id := storage.stableUuid item.customerId
  customerRef := item.customerId
  customerType := item.customerType
  displayToken := item.displayToken
  countryCode := item.countryCode
  occupationOrSector := item.occupationOrSector
  expectedMonthlyTurnover := numeric2 item.expectedMonthlyTurnover
  riskLevel := item.riskLevel

/-- The row of an account. -/
def accountRecord (item : SyntheticAccount) : AccountRecord where
  id := storage.stableUuid item.accountId
  accountRef := item.accountId
  customerId := storage.stableUuid item.customerId
  currency := item.currency
  openedAt := item.openedAt
  status := item.status

/-- The row of a KYC record. -/
def kycRecord (item : SyntheticKYC) : KYCRecord where
  id := storage.stableUuid item.kycId
  kycRef := item.kycId
  customerId := storage.stableUuid item.customerId
  validFrom := item.reviewedAt
  reviewedAt := item.reviewedAt
  purpose := item.purpose
  expectedActivity := storage.jsonb item.expectedActivity
  status := item.status

/-- The row of a counterparty. -/
def counterpartyRecord (item : SyntheticCounterparty) : CounterpartyRecord where
  id := storage.stableUuid item.counterpartyId
  counterpartyRef := item.counterpartyId
  displayToken := item.displayToken
  countryCode := item.countryCode
  entityType := item.entityType

/-- `stable_uuid(item.counterparty_id) if item.counterparty_id else None`. -/
def counterpartyUuid (counterpartyId : Option String) : Option UUID :=
  match counterpartyId with
  | some id => if id = "" then none else some (storage.stableUuid id)
  | none => none

/-- The row of a transaction. -/
def transactionRecord (item : SyntheticTransaction) : TransactionRecord where
  id := storage.stableUuid item.transactionId
  transactionRef := item.transactionId
  accountId := storage.stableUuid item.accountId
  customerId := storage.stableUuid item.customerId
  counterpartyId := counterpartyUuid storage item.counterpartyId
  bookedAt := item.bookedAt
  amount := numeric2 item.amount
  currency := item.currency
  direction := item.direction
  description := item.description
  injectedScenarioId := item.injectedScenarioId

/-- The row of an alert. -/
def alertRecord (item : SyntheticAlert) : AlertRecord where
  id := storage.stableUuid item.alertId
  alertRef := item.alertId
  customerId := storage.stableUuid item.customerId
  ruleId := item.ruleId
  ruleVersion := item.ruleVersion
  causalTransactionRefs := item.causalTransactionIds
  calculationTrace := storage.jsonb item.calculationTrace
  createdAt := item.createdAt

open Tables (batches insertRows) in
/-- The tables with the rows of a bank: rows whose external ID is there already are passed over. -/
def insertBank (db : BankDatabase) (bank : SyntheticBank) : BankDatabase where
  customers := insertRows (·.customerRef) db.customers (bank.customers.map (customerRecord storage))
  accounts := insertRows (·.accountRef) db.accounts (bank.accounts.map (accountRecord storage))
  kycRecords := insertRows (·.kycRef) db.kycRecords (bank.kycRecords.map (kycRecord storage))
  counterparties := insertRows (·.counterpartyRef) db.counterparties
    (bank.counterparties.map (counterpartyRecord storage))
  transactions := ((batches transactionBatchSize bank.transactions).map fun batch =>
    batch.map (transactionRecord storage)).foldl (insertRows (·.transactionRef)) db.transactions
  alerts := if bank.alerts = [] then db.alerts
    else insertRows (·.alertRef) db.alerts (bank.alerts.map (alertRecord storage))

end Persistence

/-- `scalar_one`: the only row. -/
def scalarOne {R : Type} : List R → Except PyError R
  | [] => .error noResultFound
  | [row] => .ok row
  | _ :: _ :: _ => .error
    { typeName := "MultipleResultsFound", bases := ["InvalidRequestError", "SQLAlchemyError"] }

namespace PostgresInvestigationRepository

variable (storage : BankStorage) (db : BankDatabase)

/-- `get_alert`. -/
def getAlert (alertId : String) : Except PyError SyntheticAlert := do
  let record ← scalarOne (db.alerts.filter fun record => record.alertRef = alertId)
  let customer ← scalarOne (db.customers.filter fun customer => customer.id = record.customerId)
  pure
    { alertId := record.alertRef, customerId := customer.customerRef, ruleId := record.ruleId
      ruleVersion := record.ruleVersion, causalTransactionIds := record.causalTransactionRefs
      calculationTrace := record.calculationTrace, createdAt := record.createdAt }

/-- `get_customer`. -/
def getCustomer (customerId : String) : Except PyError SyntheticCustomer := do
  let record ← scalarOne (db.customers.filter fun record => record.customerRef = customerId)
  pure
    { customerId := record.customerRef, customerType := record.customerType
      displayToken := record.displayToken, countryCode := record.countryCode
      occupationOrSector := record.occupationOrSector
      expectedMonthlyTurnover := record.expectedMonthlyTurnover, riskLevel := record.riskLevel }

/-- The rows whose customer has an external ID: a join with the customers. -/
def joinCustomer {R : Type} (owner : R → UUID) (rows : List R) (customerId : String) : List R :=
  rows.flatMap fun row =>
    (db.customers.filter fun customer =>
      customer.id = owner row ∧ customer.customerRef = customerId).map fun _ => row

/-- `get_kyc`: the record with the latest review. -/
def getKyc (customerId : String) : Except PyError SyntheticKYC := do
  let records := joinCustomer db KYCRecord.customerId db.kycRecords customerId
  let record ← scalarOne ((storage.orderBy (fun record => -(record.reviewedAt : ℤ)) records).take 1)
  pure
    { kycId := record.kycRef, customerId, reviewedAt := record.reviewedAt, purpose := record.purpose
      expectedActivity := record.expectedActivity, status := record.status }

/-- A transaction from its row. -/
def transactionOf (customerId : String) (record : TransactionRecord) :
    Except PyError SyntheticTransaction :=
  if h : 0 < record.amount.value then
    .ok
      { transactionId := record.transactionRef, accountId := UUID.str record.accountId, customerId
        counterpartyId := record.counterpartyId.map UUID.str, bookedAt := record.bookedAt
        amount := record.amount, currency := record.currency, direction := record.direction
        description := record.description, injectedScenarioId := record.injectedScenarioId
        amount_pos := h }
  else .error (.validationError [⟨["amount"], "greater_than"⟩])

/-- `get_transactions`: in the order of their booking. -/
def getTransactions (customerId : String) : Except PyError (List SyntheticTransaction) :=
  (storage.orderBy (fun record => (record.bookedAt : ℤ))
    (joinCustomer db TransactionRecord.customerId db.transactions customerId)).mapM
      (transactionOf customerId)

end PostgresInvestigationRepository

namespace InMemoryInvestigationRepository

/-- `_one`: the first item with the value. -/
def one {R : Type} (items : List R) (name : String) (key : R → String) (value : String) :
    Except PyError R :=
  orRaise (items.find? fun item => key item = value)
    (.keyError ("unknown " ++ name ++ "=" ++ value))

variable (bank : SyntheticBank)

/-- `get_alert`. -/
def getAlert (alertId : String) : Except PyError SyntheticAlert :=
  one bank.alerts "alert_id" (·.alertId) alertId

/-- `get_customer`. -/
def getCustomer (customerId : String) : Except PyError SyntheticCustomer :=
  one bank.customers "customer_id" (·.customerId) customerId

/-- `get_kyc`. -/
def getKyc (customerId : String) : Except PyError SyntheticKYC :=
  one bank.kycRecords "customer_id" (·.customerId) customerId

/-- `get_transactions`. -/
def getTransactions (customerId : String) : Except PyError (List SyntheticTransaction) :=
  .ok (bank.transactions.filter fun item => item.customerId = customerId)

end InMemoryInvestigationRepository

end Amlguard.Simulation
