import Amlguard.Library.Dict
import Amlguard.Library.Drawing
import Amlguard.Library.Spelling
import Amlguard.Simulation.AlertRules

/-!
# The generator of synthetic banks

`SyntheticBankGenerator.generate` makes customers with their accounts and KYC records, counterparties,
and ordinary transactions that are booked every five minutes. Every identifier is a number padded with
zeros behind the name of its kind.

What `random.Random` and `Faker` draw is left open: a source answers from a state that it passes on, and
the tokens that `Faker` keeps unique may run out.
-/

namespace Amlguard.Simulation

/-- The random sources of the generator. -/
structure RandomSources where
  State : Type
  seeded : ℤ → State
  randrange : ℕ → ℕ → State → ℕ × State
  choice : ℕ → State → ℕ × State
  choices : List ℕ → State → ℕ × State
  random : State → ℚ × State
  lexify : String → State → Except PyError (String × State)

/-- `SECTORS`. -/
def sectors : List String := ["retail", "consulting", "hospitality", "construction", "technology"]

/-- `OCCUPATIONS`. -/
def occupations : List String := ["engineer", "teacher", "consultant", "trader", "retired"]

/-- `COUNTRIES`. -/
def countries : List String := ["FR", "DE", "ES", "IT", "BE", "NL", "PT"]

/-- A number padded with zeros, as by the format `0{width}d`. -/
def zeroPadded (width n : ℕ) : String := String.ofList (Spelling.padded width n)

/-- The days before a month in a year that is a leap year or not. -/
def daysBeforeMonth (leap : Bool) (month : ℕ) : ℕ :=
  [0, 31, 59, 90, 120, 151, 181, 212, 243, 273, 304, 334].getD (month - 1) 0 +
    if leap ∧ 2 < month then 1 else 0

/-- `date(year, month, day)`, as its ordinal number. -/
def date (year month day : ℕ) : Date :=
  let before := year - 1
  let leap := year % 4 = 0 ∧ (year % 100 ≠ 0 ∨ year % 400 = 0)
  before * 365 + before / 4 - before / 100 + before / 400 + daysBeforeMonth leap month + day

/-- `base_date`. -/
def baseDate : Datetime := (date 2026 1 1 - 1) * (daySeconds * second)

/-- What one customer brings: the customer, the accounts and the KYC record. -/
structure CustomerRecords where
  customer : SyntheticCustomer
  accounts : List SyntheticAccount
  kyc : SyntheticKYC

section Draws

variable (source : RandomSources)

/-- A step of the generator. -/
abbrev Draw (α : Type) := StateT source.State (Except PyError) α

/-- `rng.randrange(start, stop)`. -/
def drawRange (start stop : ℕ) : Draw source ℕ := fun s => .ok (source.randrange start stop s)

/-- `rng.choice(items)`. -/
def choose {α : Type} (items : List α) : Draw source α := fun s =>
  let drawn := source.choice items.length s
  (orRaise items[drawn.1]? { typeName := "IndexError", bases := ["LookupError"] }).map (·, drawn.2)

/-- `rng.choices(items, weights)[0]`. -/
def chooseWeighted (items : List String) (weights : List ℕ) : Draw source String := fun s =>
  let drawn := source.choices weights s
  (orRaise items[drawn.1]? { typeName := "IndexError", bases := ["LookupError"] }).map (·, drawn.2)

/-- `rng.random()`. -/
def drawRandom : Draw source ℚ := fun s => .ok (source.random s)

/-- `faker.unique.lexify(text=…)`. -/
def lexify (pattern : String) : Draw source String := fun s => source.lexify pattern s

/-- The accounts of a customer: a second one for every third. -/
def customerAccounts (index : ℕ) (customerId : String) : List SyntheticAccount :=
  (List.range (if index % 3 = 0 then 2 else 1)).map fun accountIndex =>
    { accountId := "ACC-" ++ zeroPadded 6 (index + 1) ++ "-" ++ toString (accountIndex + 1)
      customerId, currency := "EUR"
      openedAt := date (2018 + index % 7) (1 + index % 12) (1 + index % 25) }

/-- One pass of the loop over the customers. -/
def customerRecords (index : ℕ) : Draw source CustomerRecords := do
  let customerId := "CUS-" ++ zeroPadded 6 (index + 1)
  let isBusiness := index % 4 = 0
  let drawn ← drawRange source 2000 (if isBusiness then 80000 else 12000)
  let turnover := Decimal.ofNat drawn
  let token ← lexify source "????????"
  let occupationOrSector ← choose source (if isBusiness then sectors else occupations)
  let riskLevel ← chooseWeighted source ["low", "medium", "high"] [75, 22, 3]
  pure
    { customer :=
        { customerId, customerType := if isBusiness then "business" else "individual"
          displayToken := "SYN-" ++ token.toUpper
          occupationOrSector, expectedMonthlyTurnover := turnover, riskLevel }
      accounts := customerAccounts index customerId
      kyc :=
        { kycId := "KYC-" ++ zeroPadded 6 (index + 1), customerId
          reviewedAt := date 2025 (1 + index % 12) (1 + index % 25)
          purpose := if isBusiness then "ordinary commercial activity" else "personal banking"
          expectedActivity :=
            [("monthly_turnover", .string turnover.str), ("international", .bool (index % 5 = 0))] } }

/-- One pass of the loop over the counterparties. -/
def counterparty (index : ℕ) : Draw source SyntheticCounterparty := do
  let countryCode ← choose source countries
  pure
    { counterpartyId := "CP-" ++ zeroPadded 6 (index + 1)
      displayToken := "SYN-CP-" ++ zeroPadded 6 (index + 1)
      countryCode, entityType := if index % 3 = 0 then "individual" else "business" }

/-- `accounts_by_customer`. -/
def accountsByCustomer (accounts : List SyntheticAccount) : Dict String (List SyntheticAccount) :=
  accounts.foldl (fun grouped account =>
    grouped.set account.customerId ((grouped.get? account.customerId).getD [] ++ [account])) .empty

/-- `amount_ceiling`. -/
def amountCeiling (customer : SyntheticCustomer) : Except PyError ℕ := do
  let quarter ← customer.expectedMonthlyTurnover.dividedBy (.ofNat 4)
  pure (max 50 ⌊quarter.value⌋.toNat)

/-- One pass of the loop over the transactions. -/
def ordinaryTransaction (customerCount : ℕ) (customers : List SyntheticCustomer)
    (accounts : Dict String (List SyntheticAccount)) (counterparties : List SyntheticCounterparty)
    (index : ℕ) : Draw source SyntheticTransaction := do
  let customer ← StateT.lift (orRaise customers[index % customerCount]?
    { typeName := "IndexError", bases := ["LookupError"] })
  let owned ← StateT.lift (orRaise (accounts.get? customer.customerId) (.keyError customer.customerId))
  let account ← choose source owned
  let ceiling ← StateT.lift (amountCeiling customer)
  let drawn ← drawRange source 10 (ceiling * 100)
  let amount ← StateT.lift ((Decimal.ofNat drawn).dividedBy (.ofNat 100))
  let counterparty ← choose source counterparties
  let bookedAt ← StateT.lift (addSeconds baseDate (60 * (index * 5)))
  let side ← drawRandom source
  let description ← choose source ["invoice", "card settlement", "rent", "salary", "transfer"]
  if h : 0 < amount.value then
    pure
      { transactionId := "TX-BG-" ++ zeroPadded 8 (index + 1), accountId := account.accountId
        customerId := customer.customerId, counterpartyId := some counterparty.counterpartyId, bookedAt
        amount, direction := if side < 48 / 100 then "credit" else "debit", description
        amount_pos := h }
  else StateT.lift (.error (.validationError [⟨["amount"], "greater_than"⟩]))

/-- The loops of `generate`, one after the other. -/
def generateRecords (seed : ℤ) (customerCount transactionCount : ℕ) : Draw source SyntheticBank := do
  let records ← (List.range customerCount).mapM (customerRecords source)
  let customers := records.map (·.customer)
  let accounts := records.flatMap (·.accounts)
  let counterparties ← (List.range (max 200 (customerCount / 2))).mapM (counterparty source)
  let transactions ← (List.range transactionCount).mapM
    (ordinaryTransaction source customerCount customers (accountsByCustomer accounts) counterparties)
  pure { seed, customers, accounts, kycRecords := records.map (·.kyc), counterparties, transactions }

/-- `SyntheticBankGenerator.generate`. -/
def generate (seed : ℤ) (customerCount : ℤ := 1000) (transactionCount : ℤ := 50000) :
    Except PyError SyntheticBank := do
  raiseIf (customerCount < 1 ∨ transactionCount < customerCount)
    (.valueError "transaction_count must be at least customer_count")
  let generated ← generateRecords source seed customerCount.toNat transactionCount.toNat
    (source.seeded seed)
  pure generated.1

end Draws

end Amlguard.Simulation
