import Amlguard.Library.Windows
import Amlguard.Simulation.AlertRules
import Mathlib.Algebra.Order.Ring.Rat

/-!
# What the detectors decide

The patterns speak of any choice of a customer's transactions; the detectors look at the windows that
begin at a listed credit. Both say the same, since the transactions are sorted and all amounts are
positive, as long as the amounts are added exactly. So neither the order of the list nor further
transactions take an alert away.

Sums of twenty-nine digits are rounded, and then the order in which transactions of one instant are listed
can decide. Even so, transactions that are inserted into the list take no alert away, and the transactions
that an alert names give the same alert again.

A detector returns unless an instant lies within its period of the last one that can be represented, or an
amount beyond the greatest exponent.
-/

namespace Amlguard.Simulation

open Decimal (AddedExactly eighty)
open Rounding (ten ten_add ten_pos)

/-- A number of days, in microseconds. -/
def days (n : ℕ) : ℕ := second * (n * daySeconds)

/-- What transactions come to, without rounding. -/
def exactTotal (items : List SyntheticTransaction) : ℚ := (items.map (·.amount.value)).sum

/-- At least five credits of the customer, each from 1000 and below 10000, that span at most seven days
and come to at least 20000. -/
def StructuringPattern (customerId : String) (transactions : List SyntheticTransaction) : Prop :=
  ∃ chosen : List SyntheticTransaction, chosen.Subperm transactions ∧ 5 ≤ chosen.length ∧
    (∀ item ∈ chosen, StructuringCredit customerId item) ∧
    (∀ a ∈ chosen, ∀ b ∈ chosen, b.bookedAt ≤ a.bookedAt + days 7) ∧ 20000 ≤ exactTotal chosen

/-- A debit of the customer in the three days after a credit. -/
def FollowingDebit (customerId : String) (incoming item : SyntheticTransaction) : Prop :=
  item.customerId = customerId ∧ item.direction = "debit" ∧
    BookedWithin incoming.bookedAt (incoming.bookedAt + days 3) item

/-- A credit of the customer of at least 5000, followed within three days by debits of the customer that
come to at least 80 percent of it. -/
def RapidPattern (customerId : String) (transactions : List SyntheticTransaction) : Prop :=
  ∃ incoming ∈ transactions, incoming.customerId = customerId ∧ incoming.direction = "credit" ∧
    5000 ≤ incoming.amount.value ∧ ∃ outgoing : List SyntheticTransaction,
      outgoing.Subperm transactions ∧ (∀ item ∈ outgoing, FollowingDebit customerId incoming item) ∧
        incoming.amount.value * (80 / 100) ≤ exactTotal outgoing

/-- The credits in the range are added exactly: in twenty-eight digits. -/
def StructuringExact (customerId : String) (transactions : List SyntheticTransaction) : Prop :=
  AddedExactly 28 ((transactions.filter (StructuringCredit customerId)).map (·.amount))

/-- The amounts of the customer are added exactly, with a digit to spare for the 80 percent. -/
def RapidExact (customerId : String) (transactions : List SyntheticTransaction) : Prop :=
  AddedExactly 27 ((transactions.filter fun item => item.customerId = customerId).map (·.amount))

section Lists

/-- Adding seconds succeeds up to the last instant. -/
theorem addSeconds_eq_ok {instant deadline : Datetime} {seconds : ℕ} :
    addSeconds instant seconds = .ok deadline ↔
      instant + second * seconds ≤ datetimeMax ∧ deadline = instant + second * seconds := by
  unfold addSeconds
  rw [Nat.add_comm instant]
  split
  · rename_i h
    simp [h, eq_comm]
  · rename_i h
    simp [h]

variable {items items' : List SyntheticTransaction}

@[simp] theorem mem_sortedByBooking {item : SyntheticTransaction} :
    item ∈ sortedByBooking items ↔ item ∈ items := Ranking.mem_sortedBy

/-- Sorting only changes the order. -/
theorem sortedByBooking_perm (items : List SyntheticTransaction) :
    (sortedByBooking items).Perm items := Ranking.sortedBy_perm

/-- Sorted transactions are in the order of their booking. -/
theorem pairwise_sortedByBooking (items : List SyntheticTransaction) :
    (sortedByBooking items).Pairwise fun a b => a.bookedAt ≤ b.bookedAt := Ranking.pairwise_sortedBy

/-- A choice of transactions comes to no more than all of them. -/
theorem exactTotal_le (h : items.Subperm items') : exactTotal items ≤ exactTotal items' :=
  Windows.sum_map_le h fun item _ => item.amount_pos.le

/-- Transactions that are added exactly come to their exact total. -/
theorem exists_totalAmount {digits : ℕ} (h : AddedExactly digits (items.map (·.amount)))
    (hdigits : digits ≤ 28) :
    ∃ total, totalAmount items = .ok total ∧ total.value = exactTotal items := by
  obtain ⟨total, htotal, hvalue⟩ := h.exists_total hdigits
  rw [List.map_map] at hvalue
  exact ⟨total, htotal, hvalue⟩

/-- Transactions that are inserted do not make a total smaller. -/
theorem totalAmount_le {total total' : Decimal} (hsub : items.Sublist items')
    (h : totalAmount items = .ok total) (h' : totalAmount items' = .ok total') :
    total.value ≤ total'.value := by
  apply Decimal.total_le_of_sublist (hsub.map _) _ h h'
  intro d hd
  obtain ⟨item, _, rfl⟩ := List.mem_map.mp hd
  exact item.amount_pos.le

/-- A choice of transactions has a choice of their amounts. -/
theorem subperm_amounts (h : items.Subperm items') :
    (items.map (·.amount)).Subperm (items'.map (·.amount)) := by
  obtain ⟨same, hperm, hsublist⟩ := h
  exact ⟨same.map _, hperm.map _, hsublist.map _⟩

/-- A booking of the list is the latest one. -/
theorem latestBooking_le {bound : ℕ} (h : ∀ item ∈ items, item.bookedAt ≤ bound) :
    latestBooking items ≤ bound := by
  unfold latestBooking
  induction items with
  | nil => exact Nat.zero_le _
  | cons item rest ih =>
    apply max_le (h item List.mem_cons_self)
    exact ih fun other hother => h other (List.mem_cons_of_mem _ hother)

/-- What is kept of a customer's transactions by their IDs, in the order of their booking. -/
theorem sortedByBooking_filter_comm {p q : SyntheticTransaction → Bool} :
    sortedByBooking ((items.filter p).filter q) = (sortedByBooking (items.filter q)).filter p := by
  rw [List.filter_comm]
  exact Ranking.filter_sortedBy.symm

/-- Distinct IDs stay distinct when transactions are left out and sorted. -/
theorem nodup_sortedByBooking {p : SyntheticTransaction → Bool}
    (hunique : (items.map (·.transactionId)).Nodup) :
    ((sortedByBooking (items.filter p)).map (·.transactionId)).Nodup :=
  ((sortedByBooking_perm _).map _).nodup_iff.mpr (hunique.sublist (List.filter_sublist.map _))

end Lists

section Structuring

/-- The credits that `structuring_like` goes through. -/
abbrev sortedCredits (customerId : String) (transactions : List SyntheticTransaction) :
    List SyntheticTransaction := sortedByBooking (transactions.filter (StructuringCredit customerId))

variable {customerId : String}

/-- The window of credits that begins at the first one. -/
abbrev creditWindow (first : SyntheticTransaction) (l : List SyntheticTransaction) :
    List SyntheticTransaction := Windows.window (·.bookedAt) (days 7) first l

theorem mem_creditWindow {first item : SyntheticTransaction} {l : List SyntheticTransaction} :
    item ∈ creditWindow first l ↔
      item ∈ l ∧ first.bookedAt ≤ item.bookedAt ∧ item.bookedAt ≤ first.bookedAt + days 7 :=
  Windows.mem_window

/-- A window is full enough for an alert. -/
def FullWindow (window : List SyntheticTransaction) : Prop :=
  5 ≤ window.length ∧ ∃ total, totalAmount window = .ok total ∧ 20000 ≤ total.value

/-- A window gives its alert when it is full. -/
theorem windowAlert_eq_some {window : List SyntheticTransaction} {alert : SyntheticAlert} :
    windowAlert customerId window = .ok (some alert) ↔
      FullWindow window ∧ latestBooking window + second ≤ datetimeMax ∧
        alert = structuringAlert customerId window (latestBooking window + second) := by
  unfold windowAlert
  constructor
  · intro h
    split at h
    · rename_i hlength
      obtain ⟨total, htotal, h⟩ := bind_eq_ok.mp h
      split at h
      · rename_i henough
        obtain ⟨createdAt, hcreated, hpure⟩ := bind_eq_ok.mp h
        obtain ⟨hlatest, rfl⟩ := addSeconds_eq_ok.mp hcreated
        cases hpure
        exact ⟨⟨hlength, total, htotal, henough⟩, hlatest, rfl⟩
      · cases h
    · cases h
  · intro ⟨⟨hlength, total, htotal, henough⟩, hlatest, heq⟩
    rw [if_pos hlength, htotal, ok_bind, if_pos henough]
    exact bind_eq_ok.mpr ⟨_, addSeconds_eq_ok.mpr ⟨hlatest, rfl⟩, congrArg (Except.ok ∘ some) heq.symm⟩

/-- A window gives no alert when its total can be made and it is not full. -/
theorem windowAlert_eq_none {window : List SyntheticTransaction} :
    windowAlert customerId window = .ok none ↔
      (5 ≤ window.length → ∃ total, totalAmount window = .ok total) ∧ ¬FullWindow window := by
  unfold windowAlert FullWindow
  split
  · rename_i hlength
    simp only [hlength, true_and, true_imp_iff]
    cases totalAmount window with
    | error e => simp [error_bind]
    | ok total =>
      rw [ok_bind]
      split
      · rename_i henough
        simp only [bind_eq_ok, Except.ok.injEq, exists_eq_left']
        simp [henough, pure, Except.pure]
      · rename_i henough
        simp [henough, pure, Except.pure]
  · rename_i hlength
    simp [hlength]

variable {first : SyntheticTransaction} {rest : List SyntheticTransaction}

/-- A pass of the loop looks at the window of the first credit. -/
theorem structuringWindow_cons {result : Option SyntheticAlert} :
    structuringWindow customerId (first :: rest) = .ok result ↔
      first.bookedAt + days 7 ≤ datetimeMax ∧
        windowAlert customerId (creditWindow first (first :: rest)) = .ok result := by
  rw [structuringWindow, bind_eq_ok]
  constructor
  · intro ⟨deadline, hdeadline, h⟩
    obtain ⟨hlimit, rfl⟩ := addSeconds_eq_ok.mp hdeadline
    exact ⟨hlimit, h⟩
  · intro ⟨hlimit, h⟩
    exact ⟨_, addSeconds_eq_ok.mpr ⟨hlimit, rfl⟩, h⟩

/-- A pass returns when the period of the window ends before the last instant, and its total is no
overflow. -/
theorem exists_structuringWindow (hfirst : first.bookedAt + days 7 + second ≤ datetimeMax)
    (htotal : ∃ total, totalAmount (creditWindow first (first :: rest)) = .ok total) :
    ∃ result, structuringWindow customerId (first :: rest) = .ok result := by
  have hdeadline : first.bookedAt + days 7 ≤ datetimeMax := (Nat.le_add_right _ _).trans hfirst
  have hlatest : latestBooking (creditWindow first (first :: rest)) + second ≤ datetimeMax :=
    (Nat.add_le_add_right (latestBooking_le fun item hitem => (mem_creditWindow.mp hitem).2.2) _).trans
      hfirst
  by_cases hfull : FullWindow (creditWindow first (first :: rest))
  · exact ⟨_, structuringWindow_cons.mpr ⟨hdeadline, windowAlert_eq_some.mpr ⟨hfull, hlatest, rfl⟩⟩⟩
  · exact ⟨none, structuringWindow_cons.mpr ⟨hdeadline, windowAlert_eq_none.mpr ⟨fun _ => htotal, hfull⟩⟩⟩

/-- The credits of a window are a choice of the customer's credits. -/
theorem creditWindow_subperm {transactions : List SyntheticTransaction}
    (hsuffix : (first :: rest) <:+ sortedCredits customerId transactions) :
    (creditWindow first (first :: rest)).Subperm (transactions.filter (StructuringCredit customerId)) :=
  (List.filter_sublist.trans hsuffix.sublist).subperm.trans (sortedByBooking_perm _).subperm

/-- The window of the first credit of a suffix is a window of a list that has more credits. -/
theorem creditWindow_sublist {rest' : List SyntheticTransaction} (hrest : rest.Sublist rest') :
    (creditWindow first (first :: rest)).Sublist (creditWindow first (first :: rest')) :=
  (hrest.cons_cons first).filter _

/-- An alert of `structuring_like` is that of a window. -/
theorem exists_window_of_fires {transactions : List SyntheticTransaction} {alert : SyntheticAlert}
    (h : structuringLike customerId transactions = .ok (some alert)) : ∃ first rest,
      ((first :: rest) <:+ sortedCredits customerId transactions ∧
        first.bookedAt + days 7 ≤ datetimeMax) ∧
        windowAlert customerId (creditWindow first (first :: rest)) = .ok (some alert) := by
  obtain ⟨suffix, hsuffix, halert⟩ := Search.exists_of_firstHit h
  rw [List.mem_tails] at hsuffix
  cases suffix with
  | nil => cases halert
  | cons first rest =>
    obtain ⟨hdeadline, hwindow⟩ := structuringWindow_cons.mp halert
    exact ⟨first, rest, ⟨hsuffix, hdeadline⟩, hwindow⟩

/-- `structuring_like` fires exactly when a window is full. -/
theorem structuringLike_isSome {transactions : List SyntheticTransaction} {result : Option SyntheticAlert}
    (h : structuringLike customerId transactions = .ok result) :
    result.isSome ↔ ∃ first rest,
      (first :: rest) <:+ sortedCredits customerId transactions ∧
        FullWindow (creditWindow first (first :: rest)) := by
  cases result with
  | none =>
    have hnone := Search.firstHit_eq_none.mp h
    simp only [Option.isSome_none, Bool.false_eq_true, false_iff]
    intro ⟨first, rest, hsuffix, hfull⟩
    have hwindow := (structuringWindow_cons.mp (hnone _ ((List.mem_tails _ _).mpr hsuffix))).2
    exact (windowAlert_eq_none.mp hwindow).2 hfull
  | some alert =>
    obtain ⟨first, rest, ⟨hsuffix, _⟩, hwindow⟩ := exists_window_of_fires h
    simp only [Option.isSome_some, true_iff]
    exact ⟨first, rest, hsuffix, (windowAlert_eq_some.mp hwindow).1⟩

/-- `structuring_like` decides its pattern where amounts are added exactly. -/
theorem structuringLike_decides {transactions : List SyntheticTransaction} {result : Option SyntheticAlert}
    (hexact : StructuringExact customerId transactions)
    (h : structuringLike customerId transactions = .ok result) :
    result.isSome ↔ StructuringPattern customerId transactions := by
  rw [structuringLike_isSome h]
  constructor
  · intro ⟨first, rest, hsuffix, hlength, total, htotal, henough⟩
    have hsub := creditWindow_subperm hsuffix
    obtain ⟨total', htotal', hvalue⟩ := exists_totalAmount (hexact.mono (subperm_amounts hsub)) le_rfl
    rw [htotal, Except.ok.injEq] at htotal'
    subst htotal'
    refine ⟨_, hsub.trans List.filter_sublist.subperm, hlength, ?_, ?_, hvalue ▸ henough⟩
    · intro item hitem
      exact of_decide_eq_true (List.mem_filter.mp (hsub.subset hitem)).2
    · intro a ha b hb
      have ha := (mem_creditWindow.mp ha).2
      have hb := (mem_creditWindow.mp hb).2
      exact hb.2.trans (Nat.add_le_add_right ha.1 _)
  · intro ⟨chosen, hsub, hlength, hcredits, hspan, htotal⟩
    have hchosen : chosen.Subperm (sortedCredits customerId transactions) :=
      (Windows.subperm_filter hsub fun item hitem => decide_eq_true (hcredits item hitem)).trans
        (sortedByBooking_perm _).symm.subperm
    have hne : chosen ≠ [] := List.ne_nil_of_length_pos (by omega)
    obtain ⟨first, rest, hsuffix, hwindow⟩ :=
      Windows.exists_window (pairwise_sortedByBooking _) hchosen hne hspan
    obtain ⟨total, htotal', hvalue⟩ :=
      exists_totalAmount (hexact.mono (subperm_amounts (creditWindow_subperm hsuffix))) le_rfl
    refine ⟨first, rest, hsuffix, hlength.trans hwindow.length_le, total, htotal', ?_⟩
    rw [hvalue]
    exact htotal.trans (exactTotal_le hwindow)

/-- `structuring_like` still fires when transactions are inserted, whatever the amounts. -/
theorem structuringLike_inserted {transactions transactions' : List SyntheticTransaction}
    {alert : SyntheticAlert} {result : Option SyntheticAlert} (hsub : transactions.Sublist transactions')
    (h : structuringLike customerId transactions = .ok (some alert))
    (h' : structuringLike customerId transactions' = .ok result) : result.isSome := by
  obtain ⟨first, rest, hsuffix, hlength, total, htotal, henough⟩ := (structuringLike_isSome h).mp rfl
  obtain ⟨rest', hsuffix', hrest⟩ :=
    Windows.exists_suffix_of_sublist (Ranking.sublist_sortedBy (hsub.filter _)) hsuffix
  have hwindow : (creditWindow first (first :: rest)).Sublist (creditWindow first (first :: rest')) :=
    creditWindow_sublist hrest
  cases result with
  | some alert => rfl
  | none =>
    have hnone := Search.firstHit_eq_none.mp h' _ ((List.mem_tails _ _).mpr hsuffix')
    obtain ⟨hmade, hnot⟩ := windowAlert_eq_none.mp (structuringWindow_cons.mp hnone).2
    have hlength' := hlength.trans hwindow.length_le
    obtain ⟨total', htotal'⟩ := hmade hlength'
    have hmore := henough.trans (totalAmount_le hwindow htotal htotal')
    exact absurd ⟨hlength', total', htotal', hmore⟩ hnot

/-- `structuring_like` returns where amounts are added exactly and no transaction of the customer lies
within seven days of the last instant. -/
theorem structuringLike_returns {transactions : List SyntheticTransaction}
    (hexact : StructuringExact customerId transactions)
    (hearly : ∀ item ∈ transactions, item.customerId = customerId →
      item.bookedAt + days 7 + second ≤ datetimeMax) :
    ∃ result, structuringLike customerId transactions = .ok result := by
  apply Search.exists_firstHit
  intro suffix hsuffix
  rw [List.mem_tails] at hsuffix
  cases suffix with
  | nil => exact ⟨none, rfl⟩
  | cons first rest =>
    obtain ⟨hmem, hcredit⟩ := List.mem_filter.mp
      (mem_sortedByBooking.mp (hsuffix.subset List.mem_cons_self))
    apply exists_structuringWindow (hearly first hmem (of_decide_eq_true hcredit).1)
    obtain ⟨total, htotal, _⟩ :=
      exists_totalAmount (hexact.mono (subperm_amounts (creditWindow_subperm hsuffix))) le_rfl
    exact ⟨total, htotal⟩

/-- The transactions that a `structuring_like` alert names give the alert again. -/
theorem structuringLike_refires {transactions : List SyntheticTransaction} {alert : SyntheticAlert}
    (hunique : (transactions.map (·.transactionId)).Nodup)
    (h : structuringLike customerId transactions = .ok (some alert)) :
    structuringLike customerId
      (transactions.filter fun item => item.transactionId ∈ alert.causalTransactionIds) =
        .ok (some alert) := by
  obtain ⟨first, rest, ⟨hsuffix, hdeadline⟩, hwindow⟩ := exists_window_of_fires h
  obtain ⟨hfull, hlatest, rfl⟩ := windowAlert_eq_some.mp hwindow
  have hsublist : (creditWindow first (first :: rest)).Sublist (sortedCredits customerId transactions) :=
    List.filter_sublist.trans hsuffix.sublist
  have hcredits := Windows.filter_mark_of_sublist hsublist (nodup_sortedByBooking hunique)
  -- the named credits, sorted, are the window itself, and it begins at its first credit
  have hcons : creditWindow first (first :: rest) = first :: creditWindow first rest :=
    List.filter_cons_of_pos (by simp)
  have hself : creditWindow first (first :: creditWindow first rest) =
      first :: creditWindow first rest := by
    apply Windows.window_eq_self
    intro item hitem
    rw [← hcons] at hitem
    exact (mem_creditWindow.mp hitem).2
  unfold structuringLike
  dsimp only
  rw [sortedByBooking_filter_comm]
  change Search.firstHit _ ((sortedByBooking _).filter fun item =>
    item.transactionId ∈ (creditWindow first (first :: rest)).map (·.transactionId)).tails = _
  rw [hcredits, hcons, List.tails_cons]
  apply Search.firstHit_cons_some
  rw [structuringWindow_cons, hself, ← hcons]
  exact ⟨hdeadline, hwindow⟩

end Structuring

section Rapid

/-- The transactions that `rapid_funds_movement` goes through. -/
abbrev sortedOf (customerId : String) (transactions : List SyntheticTransaction) :
    List SyntheticTransaction := sortedByBooking (transactions.filter fun item => item.customerId = customerId)

variable {customerId : String} {ordered : List SyntheticTransaction} {incoming : SyntheticTransaction}

/-- A credit that is large enough for a rapid movement. -/
def RapidCredit (incoming : SyntheticTransaction) : Prop :=
  incoming.direction = "credit" ∧ 5000 ≤ incoming.amount.value

/-- The debits in the three days after a credit. -/
abbrev following (ordered : List SyntheticTransaction) (incoming : SyntheticTransaction) :
    List SyntheticTransaction :=
  outgoingAfter ordered incoming (incoming.bookedAt + days 3)

/-- The debits after a credit come to at least 80 percent of it. -/
def Drained (incoming : SyntheticTransaction) (outgoing : List SyntheticTransaction) : Prop :=
  ∃ totalOut threshold, totalAmount outgoing = .ok totalOut ∧
    incoming.amount.times eighty = .ok threshold ∧ threshold.value ≤ totalOut.value

theorem mem_following {item : SyntheticTransaction} :
    item ∈ following ordered incoming ↔ item ∈ ordered ∧ item.direction = "debit" ∧
      BookedWithin incoming.bookedAt (incoming.bookedAt + days 3) item := by
  simp [outgoingAfter]

theorem not_rapidCredit :
    ¬RapidCredit incoming ↔ incoming.direction ≠ "credit" ∨ incoming.amount.value < 5000 := by
  rw [RapidCredit, not_and_or, not_le]

/-- The ratio of what has been paid out to a large credit can be made. -/
theorem exists_ratio {totalOut : Decimal} {outgoing : List SyntheticTransaction}
    (hcredit : RapidCredit incoming) (htotal : totalAmount outgoing = .ok totalOut) :
    ∃ ratio, totalOut.dividedBy incoming.amount = .ok ratio := by
  have hnonneg : 0 ≤ totalOut.value :=
    (totalAmount_le (List.nil_sublist outgoing) rfl htotal).trans' (by simp)
  have hlarge : (10 : ℚ) ≤ incoming.amount.value := le_trans (by norm_num) hcredit.2
  obtain ⟨ratio, hratio, _⟩ := @Decimal.exists_dividedBy totalOut incoming.amount incoming.amount_pos
    (div_nonneg hnonneg incoming.amount_pos.le) (by
      have hten : ten 1000000 = ten 999999 * 10 := ten_add 999999 1
      rw [div_le_iff₀ incoming.amount_pos]
      exact ((Decimal.total_lt_ten htotal).le.trans_eq hten).trans
        (mul_le_mul_of_nonneg_left hlarge (ten_pos _).le))
  exact ⟨ratio, hratio⟩

/-- A credit that has been drained gives its alert. -/
theorem drainedAlert_eq_some {outgoing : List SyntheticTransaction} {alert : SyntheticAlert}
    (h : drainedAlert customerId incoming outgoing = .ok (some alert)) :
    Drained incoming outgoing ∧ latestBooking (incoming :: outgoing) + second ≤ datetimeMax ∧
      ∃ totalOut ratio, alert = rapidAlert customerId incoming outgoing totalOut ratio
        (latestBooking (incoming :: outgoing) + second) := by
  obtain ⟨totalOut, htotal, h⟩ := bind_eq_ok.mp h
  obtain ⟨threshold, hthreshold, h⟩ := bind_eq_ok.mp h
  split at h
  · rename_i hdrained
    obtain ⟨ratio, hratio, h⟩ := bind_eq_ok.mp h
    obtain ⟨createdAt, hcreated, hpure⟩ := bind_eq_ok.mp h
    obtain ⟨hlatest, rfl⟩ := addSeconds_eq_ok.mp hcreated
    cases hpure
    exact ⟨⟨totalOut, threshold, htotal, hthreshold, hdrained⟩, hlatest, totalOut, ratio, rfl⟩
  · cases h

/-- A credit gives no alert when it has not been drained. -/
theorem not_drained {outgoing : List SyntheticTransaction}
    (h : drainedAlert customerId incoming outgoing = .ok none) : ¬Drained incoming outgoing := by
  intro ⟨totalOut, threshold, htotal, hthreshold, hdrained⟩
  rw [drainedAlert, htotal, ok_bind, hthreshold, ok_bind, if_pos hdrained] at h
  obtain ⟨_, _, h⟩ := bind_eq_ok.mp h
  obtain ⟨_, _, hpure⟩ := bind_eq_ok.mp h
  cases hpure

/-- Looking at what follows a large credit returns when the latest booking is before the last instant, and
neither the total nor the threshold is an overflow. -/
theorem exists_drainedAlert {outgoing : List SyntheticTransaction} (hcredit : RapidCredit incoming)
    (htotal : ∃ totalOut, totalAmount outgoing = .ok totalOut)
    (hthreshold : ∃ threshold, incoming.amount.times eighty = .ok threshold)
    (hlatest : latestBooking (incoming :: outgoing) + second ≤ datetimeMax) :
    ∃ result, drainedAlert customerId incoming outgoing = .ok result := by
  obtain ⟨totalOut, htotal⟩ := htotal
  obtain ⟨threshold, hthreshold⟩ := hthreshold
  obtain ⟨ratio, hratio⟩ := exists_ratio hcredit htotal
  rw [drainedAlert, htotal, ok_bind, hthreshold, ok_bind]
  split
  · rw [hratio, ok_bind, addSeconds_eq_ok.mpr ⟨hlatest, rfl⟩]
    exact ⟨_, rfl⟩
  · exact ⟨none, rfl⟩

/-- A large credit that has been drained gives an alert. -/
theorem exists_alert_of_drained {outgoing : List SyntheticTransaction} (hcredit : RapidCredit incoming)
    (hdrained : Drained incoming outgoing)
    (hlatest : latestBooking (incoming :: outgoing) + second ≤ datetimeMax) :
    ∃ alert, drainedAlert customerId incoming outgoing = .ok (some alert) := by
  obtain ⟨totalOut, threshold, htotal, hthreshold, _⟩ := id hdrained
  obtain ⟨result, hresult⟩ :=
    @exists_drainedAlert customerId incoming outgoing hcredit ⟨_, htotal⟩ ⟨_, hthreshold⟩ hlatest
  cases result with
  | none => exact absurd hdrained (not_drained hresult)
  | some alert => exact ⟨alert, hresult⟩

/-- A pass of the loop looks at what follows a large credit. -/
theorem rapidMovement_credit {result : Option SyntheticAlert} (hcredit : RapidCredit incoming) :
    rapidMovement customerId ordered incoming = .ok result ↔
      incoming.bookedAt + days 3 ≤ datetimeMax ∧
        drainedAlert customerId incoming (following ordered incoming) = .ok result := by
  rw [rapidMovement, if_neg (fun h => not_rapidCredit.mpr h hcredit), bind_eq_ok]
  constructor
  · intro ⟨deadline, hdeadline, h⟩
    obtain ⟨hlimit, rfl⟩ := addSeconds_eq_ok.mp hdeadline
    exact ⟨hlimit, h⟩
  · intro ⟨hlimit, h⟩
    exact ⟨_, addSeconds_eq_ok.mpr ⟨hlimit, rfl⟩, h⟩

/-- A pass finds nothing at anything else. -/
theorem rapidMovement_other (h : ¬RapidCredit incoming) :
    rapidMovement customerId ordered incoming = .ok none := by
  rw [rapidMovement, if_pos (not_rapidCredit.mp h)]

/-- A pass finds the alert of a large credit that has been drained. -/
theorem rapidMovement_eq_some {alert : SyntheticAlert}
    (h : rapidMovement customerId ordered incoming = .ok (some alert)) :
    RapidCredit incoming ∧ incoming.bookedAt + days 3 ≤ datetimeMax ∧
      drainedAlert customerId incoming (following ordered incoming) = .ok (some alert) := by
  by_cases hcredit : RapidCredit incoming
  · exact ⟨hcredit, (rapidMovement_credit hcredit).mp h⟩
  · rw [rapidMovement_other hcredit] at h
    cases h

/-- `rapid_funds_movement` fires exactly when a large credit has been drained. -/
theorem rapidFundsMovement_isSome {transactions : List SyntheticTransaction}
    {result : Option SyntheticAlert} (h : rapidFundsMovement customerId transactions = .ok result) :
    result.isSome ↔ ∃ incoming ∈ transactions, incoming.customerId = customerId ∧ RapidCredit incoming ∧
      Drained incoming (following (sortedOf customerId transactions) incoming) := by
  have hmem : ∀ item, item ∈ sortedOf customerId transactions ↔
      item ∈ transactions ∧ item.customerId = customerId := by simp
  cases result with
  | none =>
    have hnone := Search.firstHit_eq_none.mp h
    simp only [Option.isSome_none, Bool.false_eq_true, false_iff]
    intro ⟨incoming, hincoming, hcustomer, hcredit, hdrained⟩
    have hlook := hnone incoming ((hmem incoming).mpr ⟨hincoming, hcustomer⟩)
    exact not_drained ((rapidMovement_credit hcredit).mp hlook).2 hdrained
  | some alert =>
    obtain ⟨incoming, hincoming, halert⟩ := Search.exists_of_firstHit h
    obtain ⟨hcredit, _, hdrained⟩ := rapidMovement_eq_some halert
    obtain ⟨hincoming, hcustomer⟩ := (hmem incoming).mp hincoming
    simp only [Option.isSome_some, true_iff]
    exact ⟨incoming, hincoming, hcustomer, hcredit, (drainedAlert_eq_some hdrained).1⟩

variable {transactions : List SyntheticTransaction}

/-- The debits after a credit are a choice of the customer's transactions. -/
theorem following_subperm (incoming : SyntheticTransaction) :
    (following (sortedOf customerId transactions) incoming).Subperm
      (transactions.filter fun item => item.customerId = customerId) :=
  List.filter_sublist.subperm.trans (sortedByBooking_perm _).subperm

/-- Where amounts are added exactly, the total and the threshold are not rounded. -/
theorem RapidExact.drained_iff (hexact : RapidExact customerId transactions)
    (hincoming : incoming ∈ transactions) (hcustomer : incoming.customerId = customerId)
    {outgoing : List SyntheticTransaction}
    (hsub : outgoing.Subperm (transactions.filter fun item => item.customerId = customerId)) :
    (∃ totalOut, totalAmount outgoing = .ok totalOut) ∧
      (∃ threshold, incoming.amount.times eighty = .ok threshold) ∧
      (Drained incoming outgoing ↔ incoming.amount.value * (80 / 100) ≤ exactTotal outgoing) := by
  obtain ⟨totalOut, htotal, hvalue⟩ := exists_totalAmount (hexact.mono (subperm_amounts hsub)) (by decide)
  have hmem : incoming ∈ transactions.filter fun item => item.customerId = customerId :=
    List.mem_filter.mpr ⟨hincoming, decide_eq_true hcustomer⟩
  obtain ⟨threshold, hthreshold, heighty⟩ := hexact.exists_eighty (List.mem_map_of_mem hmem)
  refine ⟨⟨totalOut, htotal⟩, ⟨threshold, hthreshold⟩, ?_⟩
  rw [← hvalue, ← heighty]
  constructor
  · intro ⟨totalOut', threshold', htotal', hthreshold', hle⟩
    rw [htotal, Except.ok.injEq] at htotal'
    rw [hthreshold, Except.ok.injEq] at hthreshold'
    rwa [htotal', hthreshold']
  · exact fun hle => ⟨totalOut, threshold, htotal, hthreshold, hle⟩

/-- `rapid_funds_movement` decides its pattern where amounts are added exactly. -/
theorem rapidFundsMovement_decides {result : Option SyntheticAlert}
    (hexact : RapidExact customerId transactions)
    (h : rapidFundsMovement customerId transactions = .ok result) :
    result.isSome ↔ RapidPattern customerId transactions := by
  rw [rapidFundsMovement_isSome h]
  constructor
  · intro ⟨incoming, hincoming, hcustomer, hcredit, hdrained⟩
    obtain ⟨_, _, hiff⟩ := hexact.drained_iff hincoming hcustomer (following_subperm incoming)
    refine ⟨incoming, hincoming, hcustomer, hcredit.1, hcredit.2, _,
      (following_subperm incoming).trans List.filter_sublist.subperm, ?_, hiff.mp hdrained⟩
    intro item hitem
    obtain ⟨hitem, hdebit, hwithin⟩ := mem_following.mp hitem
    have hcustomer' := of_decide_eq_true (List.mem_filter.mp (mem_sortedByBooking.mp hitem)).2
    exact ⟨hcustomer', hdebit, hwithin⟩
  · intro ⟨incoming, hincoming, hcustomer, hdirection, hamount, outgoing, hsub, hdebits, htotal⟩
    obtain ⟨_, _, hiff⟩ := hexact.drained_iff hincoming hcustomer (following_subperm incoming)
    refine ⟨incoming, hincoming, hcustomer, ⟨hdirection, hamount⟩, hiff.mpr (htotal.trans ?_)⟩
    have hordered : outgoing.Subperm (sortedOf customerId transactions) :=
      (Windows.subperm_filter hsub fun item hitem => decide_eq_true (hdebits item hitem).1).trans
        (sortedByBooking_perm _).symm.subperm
    exact exactTotal_le (Windows.subperm_filter hordered fun item hitem =>
      decide_eq_true (hdebits item hitem).2)

/-- `rapid_funds_movement` still fires when transactions are inserted, whatever the amounts. -/
theorem rapidFundsMovement_inserted {transactions' : List SyntheticTransaction}
    {alert : SyntheticAlert} {result : Option SyntheticAlert} (hsub : transactions.Sublist transactions')
    (h : rapidFundsMovement customerId transactions = .ok (some alert))
    (h' : rapidFundsMovement customerId transactions' = .ok result) : result.isSome := by
  obtain ⟨incoming, hincoming, hcustomer, hcredit, totalOut, threshold, htotal, hthreshold, hle⟩ :=
    (rapidFundsMovement_isSome h).mp rfl
  have hmore : (following (sortedOf customerId transactions) incoming).Sublist
      (following (sortedOf customerId transactions') incoming) :=
    (Ranking.sublist_sortedBy (hsub.filter _)).filter _
  cases result with
  | some alert => rfl
  | none =>
    have hmem : incoming ∈ sortedOf customerId transactions' := by
      simpa using ⟨hsub.subset hincoming, hcustomer⟩
    have hlook := ((rapidMovement_credit hcredit).mp (Search.firstHit_eq_none.mp h' incoming hmem)).2
    obtain ⟨totalOut', htotal', _⟩ := bind_eq_ok.mp hlook
    exact absurd ⟨totalOut', threshold, htotal', hthreshold, hle.trans (totalAmount_le hmore htotal htotal')⟩
      (not_drained hlook)

/-- `rapid_funds_movement` returns where amounts are added exactly and no transaction of the customer lies
within seven days of the last instant. -/
theorem rapidFundsMovement_returns (hexact : RapidExact customerId transactions)
    (hearly : ∀ item ∈ transactions, item.customerId = customerId →
      item.bookedAt + days 7 + second ≤ datetimeMax) :
    ∃ result, rapidFundsMovement customerId transactions = .ok result := by
  apply Search.exists_firstHit
  intro incoming hincoming
  obtain ⟨hincoming, hcustomer⟩ := List.mem_filter.mp (mem_sortedByBooking.mp hincoming)
  have hcustomer := of_decide_eq_true hcustomer
  by_cases hcredit : RapidCredit incoming
  · have hlast : incoming.bookedAt + days 3 + second ≤ datetimeMax :=
      le_trans (Nat.add_le_add_right (Nat.add_le_add_left (by decide) _) _)
        (hearly incoming hincoming hcustomer)
    have hlatest : latestBooking (incoming :: following (sortedOf customerId transactions) incoming) ≤
        incoming.bookedAt + days 3 := by
      apply latestBooking_le
      intro item hitem
      rcases List.mem_cons.mp hitem with rfl | hitem
      · exact Nat.le_add_right _ _
      · exact (mem_following.mp hitem).2.2.2
    obtain ⟨htotal, hthreshold, _⟩ := hexact.drained_iff hincoming hcustomer (following_subperm incoming)
    obtain ⟨result, hresult⟩ := @exists_drainedAlert customerId incoming _ hcredit htotal hthreshold
      ((Nat.add_le_add_right hlatest _).trans hlast)
    exact ⟨result, (rapidMovement_credit hcredit).mpr ⟨(Nat.le_add_right _ _).trans hlast, hresult⟩⟩
  · exact ⟨none, rapidMovement_other hcredit⟩

/-- The transactions that a `rapid_funds_movement` alert names give the alert again. -/
theorem rapidFundsMovement_refires {alert : SyntheticAlert}
    (hunique : (transactions.map (·.transactionId)).Nodup)
    (h : rapidFundsMovement customerId transactions = .ok (some alert)) :
    rapidFundsMovement customerId
      (transactions.filter fun item => item.transactionId ∈ alert.causalTransactionIds) =
        .ok (some alert) := by
  obtain ⟨incoming, hincoming, halert⟩ := Search.exists_of_firstHit h
  obtain ⟨hcredit, hdeadline, hdrained⟩ := rapidMovement_eq_some halert
  have hids : alert.causalTransactionIds = incoming.transactionId ::
      (following (sortedOf customerId transactions) incoming).map (·.transactionId) := by
    obtain ⟨_, _, totalOut, ratio, rfl⟩ := drainedAlert_eq_some hdrained
    rfl
  have hnodup := @nodup_sortedByBooking transactions (fun item => item.customerId = customerId) hunique
  unfold rapidFundsMovement
  unfold sortedOf at hids
  dsimp only
  rw [sortedByBooking_filter_comm]
  generalize sortedByBooking (transactions.filter fun item => item.customerId = customerId) = ordered
    at hincoming hdrained hids hnodup
  -- the debits that follow the credit are all named, and so they are the same
  have hsame : following (ordered.filter fun item => item.transactionId ∈ alert.causalTransactionIds)
      incoming = following ordered incoming := by
    rw [following, outgoingAfter, List.filter_filter]
    apply List.filter_congr
    intro item hitem
    rw [hids, Bool.eq_iff_iff, Bool.and_eq_true, and_iff_left_iff_imp]
    intro hdebit
    have hfollowing : item ∈ following ordered incoming := List.mem_filter.mpr ⟨hitem, hdebit⟩
    exact decide_eq_true (List.mem_cons_of_mem _ (List.mem_map_of_mem hfollowing))
  apply Search.firstHit_of_only (a := incoming)
  · exact List.mem_filter.mpr ⟨hincoming, by simp [hids]⟩
  · rw [rapidMovement_credit hcredit, hsame]
    exact ⟨hdeadline, hdrained⟩
  · intro item hitem
    obtain ⟨hitem, hnamed⟩ := List.mem_filter.mp hitem
    rw [decide_eq_true_eq, hids, List.mem_cons] at hnamed
    rcases hnamed with hid | hdebit
    · exact .inl (List.inj_on_of_nodup_map hnodup hitem hincoming hid)
    · obtain ⟨other, hother, hid⟩ := List.mem_map.mp hdebit
      obtain ⟨hother, hdirection, _⟩ := mem_following.mp hother
      rw [List.inj_on_of_nodup_map hnodup hother hitem hid] at hdirection
      right
      apply rapidMovement_other
      intro hitemCredit
      rw [hitemCredit.1] at hdirection
      exact absurd hdirection (by decide)

end Rapid

section Detectors

/-- A rule decides a pattern where amounts are added exactly. There it fires exactly when the pattern is
there, whatever the order, and it still fires when transactions are added; it returns when no transaction
of the customer lies within seven days of the last instant. Whatever the amounts, it still fires when
transactions are inserted, and what its alert names gives the alert again. -/
structure Detects (rule : AlertRule) (Exact Pattern : String → List SyntheticTransaction → Prop) :
    Prop where
  decides : ∀ customerId transactions result, Exact customerId transactions →
    rule customerId transactions = .ok result → (result.isSome ↔ Pattern customerId transactions)
  reordered : ∀ customerId transactions transactions' result result', transactions.Perm transactions' →
    Exact customerId transactions → rule customerId transactions = .ok result →
      rule customerId transactions' = .ok result' → (result.isSome ↔ result'.isSome)
  added : ∀ customerId transactions transactions' alert result,
    transactions.Subperm transactions' → Exact customerId transactions' →
      rule customerId transactions = .ok (some alert) → rule customerId transactions' = .ok result →
        result.isSome
  inserted : ∀ customerId transactions transactions' alert result,
    transactions.Sublist transactions' → rule customerId transactions = .ok (some alert) →
      rule customerId transactions' = .ok result → result.isSome
  refires : ∀ customerId transactions alert, (transactions.map (·.transactionId)).Nodup →
    rule customerId transactions = .ok (some alert) →
      rule customerId
        (transactions.filter fun item => item.transactionId ∈ alert.causalTransactionIds) =
          .ok (some alert)
  returns : ∀ customerId transactions, Exact customerId transactions →
    (∀ item ∈ transactions, item.customerId = customerId →
      item.bookedAt + days 7 + second ≤ datetimeMax) →
        ∃ result, rule customerId transactions = .ok result

variable {rule : AlertRule} {Exact Pattern : String → List SyntheticTransaction → Prop}

/-- What decides a pattern that further transactions keep does not depend on the order. -/
theorem isSome_of_subperm {customerId : String} {transactions transactions' : List SyntheticTransaction}
    {result result' : Option SyntheticAlert}
    (hdecides : ∀ customerId transactions result, Exact customerId transactions →
      rule customerId transactions = .ok result → (result.isSome ↔ Pattern customerId transactions))
    (hmono : ∀ customerId transactions transactions', transactions.Subperm transactions' →
      Pattern customerId transactions → Pattern customerId transactions')
    (hfewer : ∀ customerId transactions transactions', transactions.Subperm transactions' →
      Exact customerId transactions' → Exact customerId transactions)
    (hsub : transactions.Subperm transactions') (hexact : Exact customerId transactions')
    (h : rule customerId transactions = .ok result) (h' : rule customerId transactions' = .ok result') :
    result.isSome → result'.isSome := by
  rw [hdecides _ _ _ (hfewer _ _ _ hsub hexact) h, hdecides _ _ _ hexact h']
  exact hmono _ _ _ hsub

/-- A rule that decides a pattern which more transactions keep. -/
theorem Detects.of_mono
    (hdecides : ∀ customerId transactions result, Exact customerId transactions →
      rule customerId transactions = .ok result → (result.isSome ↔ Pattern customerId transactions))
    (hmono : ∀ customerId transactions transactions', transactions.Subperm transactions' →
      Pattern customerId transactions → Pattern customerId transactions')
    (hfewer : ∀ customerId transactions transactions', transactions.Subperm transactions' →
      Exact customerId transactions' → Exact customerId transactions)
    (hinserted : ∀ customerId transactions transactions' alert result,
      transactions.Sublist transactions' → rule customerId transactions = .ok (some alert) →
        rule customerId transactions' = .ok result → result.isSome)
    (hrefires : ∀ customerId transactions alert, (transactions.map (·.transactionId)).Nodup →
      rule customerId transactions = .ok (some alert) →
        rule customerId
          (transactions.filter fun item => item.transactionId ∈ alert.causalTransactionIds) =
            .ok (some alert))
    (hreturns : ∀ customerId transactions, Exact customerId transactions →
      (∀ item ∈ transactions, item.customerId = customerId →
        item.bookedAt + days 7 + second ≤ datetimeMax) →
          ∃ result, rule customerId transactions = .ok result) : Detects rule Exact Pattern where
  decides := hdecides
  reordered _ _ _ _ _ hperm hexact h h' :=
    ⟨isSome_of_subperm hdecides hmono hfewer hperm.subperm
      (hfewer _ _ _ hperm.symm.subperm hexact) h h',
      isSome_of_subperm hdecides hmono hfewer hperm.symm.subperm hexact h' h⟩
  added _ _ _ _ _ hsub hexact h h' :=
    isSome_of_subperm hdecides hmono hfewer hsub hexact h h' rfl
  inserted := hinserted
  refires := hrefires
  returns := hreturns

/-- Further transactions keep a structuring pattern. -/
theorem StructuringPattern.mono {customerId : String} {transactions transactions' : List SyntheticTransaction}
    (hsub : transactions.Subperm transactions') (h : StructuringPattern customerId transactions) :
    StructuringPattern customerId transactions' := by
  obtain ⟨chosen, hchosen, hrest⟩ := h
  exact ⟨chosen, hchosen.trans hsub, hrest⟩

/-- Further transactions keep a rapid movement. -/
theorem RapidPattern.mono {customerId : String} {transactions transactions' : List SyntheticTransaction}
    (hsub : transactions.Subperm transactions') (h : RapidPattern customerId transactions) :
    RapidPattern customerId transactions' := by
  obtain ⟨incoming, hincoming, hcustomer, hdirection, hamount, outgoing, houtgoing, hrest⟩ := h
  exact ⟨incoming, hsub.subset hincoming, hcustomer, hdirection, hamount, outgoing,
    houtgoing.trans hsub, hrest⟩

/-- Both detectors decide exactly their patterns where amounts are added exactly. -/
theorem detectors_decide :
    Detects rapidFundsMovement RapidExact RapidPattern ∧
      Detects structuringLike StructuringExact StructuringPattern := by
  constructor
  · apply Detects.of_mono
    · exact fun _ _ _ => rapidFundsMovement_decides
    · exact fun _ _ _ => RapidPattern.mono
    · exact fun _ _ _ hsub hexact => hexact.mono (subperm_amounts (hsub.filter _))
    · exact fun _ _ _ _ _ => rapidFundsMovement_inserted
    · exact fun _ _ _ => rapidFundsMovement_refires
    · exact fun _ _ => rapidFundsMovement_returns
  · apply Detects.of_mono
    · exact fun _ _ _ => structuringLike_decides
    · exact fun _ _ _ => StructuringPattern.mono
    · exact fun _ _ _ hsub hexact => hexact.mono (subperm_amounts (hsub.filter _))
    · exact fun _ _ _ _ _ => structuringLike_inserted
    · exact fun _ _ _ => structuringLike_refires
    · exact fun _ _ => structuringLike_returns

end Detectors

section Rounded

/-- A credit of the customer, with all credits at one instant. -/
def roundedCredit (transactionId : String) (amount : Decimal) (hpos : 0 < amount.value) :
    SyntheticTransaction where
  transactionId
  accountId := "ACC-000001-1"
  customerId := "CUS-000001"
  counterpartyId := none
  bookedAt := 63918493200000000
  amount
  direction := "credit"
  description := "scenario transfer"
  amount_pos := hpos

/-- An amount of twenty-eight digits that is hardly less than 4000. -/
def hardlyLess : Decimal := ⟨false, 3999999999999999999999999996, -24⟩

theorem hardlyLess_pos : 0 < hardlyLess.value := by
  norm_num [hardlyLess, Decimal.value, Decimal.signed, ten]

theorem fourThousand_pos : 0 < (Decimal.ofNat 4000).value := by simp

/-- Three credits of 4000. -/
def evenCredits : List SyntheticTransaction :=
  ["TX-1", "TX-2", "TX-3"].map fun id => roundedCredit id (.ofNat 4000) fourThousand_pos

/-- Two credits that are hardly less. -/
def oddCredits : List SyntheticTransaction :=
  ["TX-4", "TX-5"].map fun id => roundedCredit id hardlyLess hardlyLess_pos

/-- The credits are in the range, and at one instant. -/
theorem roundedCredits : ∀ item ∈ evenCredits ++ oddCredits,
    StructuringCredit "CUS-000001" item ∧ item.bookedAt = 63918493200000000 := by
  decide +kernel

/-- Credits at one instant stay in their order. -/
theorem sortedByBooking_rounded {items : List SyntheticTransaction}
    (h : items ⊆ evenCredits ++ oddCredits) :
    sortedByBooking (items.filter (StructuringCredit "CUS-000001")) = items := by
  rw [List.filter_eq_self.mpr fun item hitem => decide_eq_true (roundedCredits item (h hitem)).1]
  apply List.mergeSort_of_pairwise
  apply List.pairwise_of_forall_mem_list
  intro a ha b hb
  exact decide_eq_true ((roundedCredits a (h ha)).2.trans (roundedCredits b (h hb)).2.symm).le

/-- Five credits that come to less than 20000 are rounded up to it, but not when the two that are hardly
less than 4000 come first. -/
theorem structuringLike_rounded :
    (∃ alert, structuringLike "CUS-000001" (evenCredits ++ oddCredits) = .ok (some alert)) ∧
      ¬StructuringPattern "CUS-000001" (evenCredits ++ oddCredits) ∧
      structuringLike "CUS-000001" (oddCredits ++ evenCredits) = .ok none := by
  refine ⟨?_, ?_, ?_⟩
  · unfold structuringLike
    dsimp only
    rw [sortedByBooking_rounded (List.Subset.refl _)]
    refine ⟨structuringAlert "CUS-000001" (evenCredits ++ oddCredits) 63918493201000000, ?_⟩
    decide +kernel
  · intro ⟨chosen, hsub, _, _, _, htotal⟩
    have hless : exactTotal (evenCredits ++ oddCredits) < 20000 := by decide +kernel
    exact absurd (htotal.trans (exactTotal_le hsub)) (not_le.mpr hless)
  · unfold structuringLike
    dsimp only
    rw [sortedByBooking_rounded (List.perm_append_comm.subset)]
    decide +kernel

end Rounded

end Amlguard.Simulation
