import Amlguard.Library.Ranking
import Amlguard.Library.Search
import Amlguard.Simulation.Models
import Mathlib.Data.Nat.Basic

/-!
# The alert rules

The three deterministic detectors. Each sorts the transactions of a customer by their booking and looks
for the first place where its pattern begins. An instant beyond the last one that can be represented
raises an `OverflowError`, and an amount beyond the greatest exponent an `Overflow`.
-/

namespace Amlguard.Simulation

/-- Seconds in a day. -/
def daySeconds : ℕ := 86400

/-- `sorted(items, key=lambda item: item.booked_at)`. -/
def sortedByBooking (items : List SyntheticTransaction) : List SyntheticTransaction :=
  Ranking.sortedBy (·.bookedAt) items

/-- `sum((item.amount for item in items), Decimal("0"))`. -/
def totalAmount (items : List SyntheticTransaction) : Except PyError Decimal :=
  Decimal.total (items.map (·.amount))

/-- `max(item.booked_at for item in items)`, of a list with an item. -/
def latestBooking (items : List SyntheticTransaction) : Datetime :=
  (items.map (·.bookedAt)).foldr max 0

/-- The item is booked within a period, bounds included. -/
def BookedWithin (start deadline : Datetime) (item : SyntheticTransaction) : Prop :=
  start ≤ item.bookedAt ∧ item.bookedAt ≤ deadline

instance (start deadline : Datetime) (item : SyntheticTransaction) :
    Decidable (BookedWithin start deadline item) :=
  inferInstanceAs (Decidable (_ ∧ _))

/-- A detector: whether it fires, and with which alert. -/
abbrev AlertRule := String → List SyntheticTransaction → Except PyError (Option SyntheticAlert)

/-- The alert of a sampled transaction. -/
def varianceAlert (customerId : String) (latest : SyntheticTransaction) (createdAt : Datetime) :
    SyntheticAlert where
  alertId := "ALT-EAV-" ++ customerId
  customerId := customerId
  ruleId := "EXPECTED_ACTIVITY_VARIANCE"
  causalTransactionIds := [latest.transactionId]
  calculationTrace :=
    [("review_reason", .string "sampled benign variance"), ("severity", .string "low")]
  createdAt := createdAt

/-- `expected_activity_variance`. -/
def expectedActivityVariance : AlertRule := fun customerId transactions =>
  match (sortedByBooking (transactions.filter fun item => item.customerId = customerId)).getLast? with
  | none => .ok none
  | some latest => do
    let createdAt ← addSeconds latest.bookedAt 1
    pure (some (varianceAlert customerId latest createdAt))

section Rapid

variable (customerId : String)

/-- The debits that are booked in the three days after a credit. -/
def outgoingAfter (ordered : List SyntheticTransaction) (incoming : SyntheticTransaction)
    (deadline : Datetime) : List SyntheticTransaction :=
  ordered.filter fun item =>
    item.direction = "debit" ∧ BookedWithin incoming.bookedAt deadline item

/-- The alert of a credit with the debits that follow it. -/
def rapidAlert (incoming : SyntheticTransaction) (outgoing : List SyntheticTransaction)
    (totalOut ratio : Decimal) (createdAt : Datetime) : SyntheticAlert where
  alertId := "ALT-RFM-" ++ customerId
  customerId := customerId
  ruleId := "RAPID_FUNDS_MOVEMENT"
  causalTransactionIds := incoming.transactionId :: outgoing.map (·.transactionId)
  calculationTrace :=
    [("incoming", .string incoming.amount.str), ("outgoing_within_3d", .string totalOut.str),
      ("ratio", .string ratio.str)]
  createdAt := createdAt

/-- The alert of a credit, if the debits that follow it come to 80 percent of it. -/
def drainedAlert (incoming : SyntheticTransaction) (outgoing : List SyntheticTransaction) :
    Except PyError (Option SyntheticAlert) := do
  let totalOut ← totalAmount outgoing
  let threshold ← incoming.amount.times .eighty
  if threshold.value ≤ totalOut.value then do
    let ratio ← totalOut.dividedBy incoming.amount
    let createdAt ← addSeconds (latestBooking (incoming :: outgoing)) 1
    pure (some (rapidAlert customerId incoming outgoing totalOut ratio createdAt))
  else pure none

/-- One pass of the loop over the transactions. -/
def rapidMovement (ordered : List SyntheticTransaction) (incoming : SyntheticTransaction) :
    Except PyError (Option SyntheticAlert) :=
  if incoming.direction ≠ "credit" ∨ incoming.amount.value < 5000 then .ok none
  else do
    let deadline ← addSeconds incoming.bookedAt (3 * daySeconds)
    drainedAlert customerId incoming (outgoingAfter ordered incoming deadline)

end Rapid

/-- `rapid_funds_movement`. -/
def rapidFundsMovement : AlertRule := fun customerId transactions =>
  let ordered := sortedByBooking (transactions.filter fun item => item.customerId = customerId)
  Search.firstHit (rapidMovement customerId ordered) ordered

/-- The credits that `structuring_like` looks at. -/
def StructuringCredit (customerId : String) (item : SyntheticTransaction) : Prop :=
  item.customerId = customerId ∧ item.direction = "credit" ∧ 1000 ≤ item.amount.value ∧
    item.amount.value < 10000

instance (customerId : String) (item : SyntheticTransaction) :
    Decidable (StructuringCredit customerId item) :=
  inferInstanceAs (Decidable (_ ∧ _ ∧ _ ∧ _))

/-- The alert of a window of credits. -/
def structuringAlert (customerId : String) (window : List SyntheticTransaction)
    (createdAt : Datetime) : SyntheticAlert where
  alertId := "ALT-STR-" ++ customerId
  customerId := customerId
  ruleId := "STRUCTURING_LIKE_REPEATED_CREDITS"
  causalTransactionIds := window.map (·.transactionId)
  calculationTrace := [("count", .number window.length), ("window_days", .number 7)]
  createdAt := createdAt

/-- The alert of a window, if it has five credits that come to 20000. -/
def windowAlert (customerId : String) (window : List SyntheticTransaction) :
    Except PyError (Option SyntheticAlert) :=
  if 5 ≤ window.length then do
    let total ← totalAmount window
    if 20000 ≤ total.value then do
      let createdAt ← addSeconds (latestBooking window) 1
      pure (some (structuringAlert customerId window createdAt))
    else pure none
  else .ok none

/-- One pass of the loop over the credits: the window begins at the first of those that are left. -/
def structuringWindow (customerId : String) :
    List SyntheticTransaction → Except PyError (Option SyntheticAlert)
  | [] => .ok none
  | first :: rest => do
    let deadline ← addSeconds first.bookedAt (7 * daySeconds)
    windowAlert customerId ((first :: rest).filter (BookedWithin first.bookedAt deadline))

/-- `structuring_like`. -/
def structuringLike : AlertRule := fun customerId transactions =>
  let credits := sortedByBooking (transactions.filter (StructuringCredit customerId))
  Search.firstHit (structuringWindow customerId) credits.tails

/-- `RULES`. -/
def rules : List (String × AlertRule) :=
  [("EXPECTED_ACTIVITY_VARIANCE", expectedActivityVariance),
    ("RAPID_FUNDS_MOVEMENT", rapidFundsMovement),
    ("STRUCTURING_LIKE_REPEATED_CREDITS", structuringLike)]

end Amlguard.Simulation
