import Mathlib.Data.List.Sort
import Mathlib.Order.Defs.LinearOrder

/-!
# Rankings

Sorting by a key, and what is left of a ranking when it is cut and filtered. Items of one key stay in
their order, so filtering commutes with ranking; when the key tells the items apart, a ranking is
determined by its items. A cut that leaves room for the items that the filter drops loses none of the
items that are wanted.

Cut at two positions, a list falls into three slices, which are empty only where the cuts coincide; the
items of successive slices of a ranking have keys in the order of the slices.
-/

namespace Ranking

variable {α κ : Type} [LinearOrder κ] {key : α → κ} {l : List α} {keep : α → Bool}

/-- The items in the order of their keys. -/
def sortedBy (key : α → κ) (l : List α) : List α := l.mergeSort fun a b => key a ≤ key b

/-- Sorting only changes the order. -/
theorem sortedBy_perm : (sortedBy key l).Perm l := List.mergeSort_perm _ _

@[simp] theorem mem_sortedBy {a : α} : a ∈ sortedBy key l ↔ a ∈ l := sortedBy_perm.mem_iff

/-- The keys of a ranking do not decrease. -/
theorem pairwise_sortedBy : (sortedBy key l).Pairwise fun a b => key a ≤ key b := by
  have hsorted : (sortedBy key l).Pairwise fun a b => decide (key a ≤ key b) = true := by
    apply List.pairwise_mergeSort
    · intro a b c hab hbc
      rw [decide_eq_true_eq] at hab hbc ⊢
      exact hab.trans hbc
    · intro a b
      rw [Bool.or_eq_true, decide_eq_true_eq, decide_eq_true_eq]
      exact le_total _ _
  exact hsorted.imp fun h => of_decide_eq_true h

/-- The same items have the same ranking, when the key tells them apart. -/
theorem sortedBy_congr {l' : List α} (h : l.Perm l') (hkey : ∀ a ∈ l, ∀ b ∈ l, key a = key b → a = b) :
    sortedBy key l = sortedBy key l' := by
  have hantisymm (a b : α) (ha : a ∈ sortedBy key l) (hb : b ∈ sortedBy key l')
      (hab : key a ≤ key b) (hba : key b ≤ key a) : a = b :=
    hkey a (mem_sortedBy.mp ha) b (h.mem_iff.mpr (mem_sortedBy.mp hb)) (le_antisymm hab hba)
  apply List.Perm.eq_of_pairwise hantisymm pairwise_sortedBy pairwise_sortedBy
  exact sortedBy_perm.trans (h.trans sortedBy_perm.symm)

/-- A change that keeps the keys keeps the ranking. -/
theorem map_sortedBy {β : Type} {key' : β → κ} {f : α → β} (h : ∀ a, key' (f a) = key a) :
    (sortedBy key l).map f = sortedBy key' (l.map f) := by
  apply List.map_mergeSort
  intro a _ b _
  simp only [h]

/-- An item is sorted in before the items of its key that come later in the list. -/
theorem sortedBy_cons (a : α) (l : List α) :
    ∃ before after, sortedBy key (a :: l) = before ++ a :: after ∧ sortedBy key l = before ++ after ∧
      (∀ b ∈ before, key b < key a) ∧ ∀ b ∈ after, key a ≤ key b := by
  obtain ⟨before, after, hcons, hrest, hbefore⟩ :=
    @List.mergeSort_cons α (fun a b => decide (key a ≤ key b))
      (fun a b c hab hbc => decide_eq_true ((of_decide_eq_true hab).trans (of_decide_eq_true hbc)))
      (fun a b => by simpa using le_total (key a) (key b)) a l
  refine ⟨before, after, hcons, hrest, ?_, ?_⟩
  · intro b hb
    simpa using hbefore b hb
  · intro b hb
    have hsorted : (sortedBy key (a :: l)).Pairwise fun a b => key a ≤ key b := pairwise_sortedBy
    unfold sortedBy at hsorted
    rw [hcons] at hsorted
    exact (List.pairwise_cons.mp (List.pairwise_append.mp hsorted).2.1).1 b hb

/-- The items of a smaller key are the ones before, and the others those after. -/
theorem filter_lt_append {a : α} {before after : List α} (hbefore : ∀ b ∈ before, key b < key a)
    (hafter : ∀ b ∈ after, key a ≤ key b) :
    (before ++ after).filter (fun b => key b < key a) = before ∧
      (before ++ after).filter (fun b => !decide (key b < key a)) = after := by
  have hbefore' : ∀ b ∈ before, decide (key b < key a) = true := fun b hb => decide_eq_true (hbefore b hb)
  have hafter' : ∀ b ∈ after, decide (key b < key a) = false := fun b hb =>
    decide_eq_false (not_lt.mpr (hafter b hb))
  constructor
  · rw [List.filter_append, List.filter_eq_self.mpr hbefore', List.filter_eq_nil_iff.mpr, List.append_nil]
    simpa using hafter
  · rw [List.filter_append, List.filter_eq_nil_iff.mpr, List.nil_append, List.filter_eq_self.mpr]
    · simpa using hafter
    · simpa using hbefore

/-- Filtering a ranking ranks what is kept. -/
theorem filter_sortedBy : (sortedBy key l).filter keep = sortedBy key (l.filter keep) := by
  induction l with
  | nil => simp [sortedBy]
  | cons a l ih =>
    obtain ⟨before, after, hcons, hrest, hbefore, hafter⟩ := @sortedBy_cons α κ _ key a l
    rw [hrest, List.filter_append] at ih
    rw [hcons, List.filter_append]
    by_cases ha : keep a = true
    · obtain ⟨before', after', hcons', hrest', hbefore', hafter'⟩ :=
        @sortedBy_cons α κ _ key a (l.filter keep)
      -- both rankings are split where the keys reach that of the item
      have hkept : ∀ b ∈ before.filter keep, key b < key a := fun b hb =>
        hbefore b (List.mem_of_mem_filter hb)
      have hkept' : ∀ b ∈ after.filter keep, key a ≤ key b := fun b hb =>
        hafter b (List.mem_of_mem_filter hb)
      have hsplit := filter_lt_append hkept hkept'
      rw [ih, hrest', (filter_lt_append hbefore' hafter').1, (filter_lt_append hbefore' hafter').2] at hsplit
      rw [List.filter_cons_of_pos ha, List.filter_cons_of_pos ha, hcons', ← hsplit.1, ← hsplit.2]
    · rw [List.filter_cons_of_neg ha, List.filter_cons_of_neg ha, ih]

/-- A choice of items in their order is ranked in the order of all of them. -/
theorem sublist_sortedBy {l' : List α} (h : l.Sublist l') :
    (sortedBy key l).Sublist (sortedBy key l') := by
  induction h with
  | slnil => exact List.Sublist.refl _
  | @cons l l' a _ ih =>
    obtain ⟨before, after, hcons, hrest, -, -⟩ := @sortedBy_cons α κ _ key a l'
    rw [hrest] at ih
    rw [hcons]
    exact ih.trans ((List.sublist_cons_self a after).append_left before)
  | @cons_cons l l' a _ ih =>
    obtain ⟨before, after, hcons, hrest, hbefore, hafter⟩ := @sortedBy_cons α κ _ key a l
    obtain ⟨before', after', hcons', hrest', hbefore', hafter'⟩ := @sortedBy_cons α κ _ key a l'
    rw [hrest, hrest'] at ih
    have hfirst := ih.filter fun b => decide (key b < key a)
    have hlast := ih.filter fun b => !decide (key b < key a)
    rw [(filter_lt_append hbefore hafter).1, (filter_lt_append hbefore' hafter').1] at hfirst
    rw [(filter_lt_append hbefore hafter).2, (filter_lt_append hbefore' hafter').2] at hlast
    rw [hcons, hcons']
    exact hfirst.append (hlast.cons_cons a)

/-- A cut to `n` items before a filter that drops at most `m` of them keeps the first `k` that are
wanted, when there is room for both. -/
theorem take_filter_take {n m k : ℕ} (hdropped : ((l.take n).filter fun a => !keep a).length ≤ m)
    (hroom : k + m ≤ n) : ((l.take n).filter keep).take k = (l.filter keep).take k := by
  by_cases hshort : l.length ≤ n
  · rw [List.take_of_length_le hshort]
  · have hlength : (l.take n).length = n := by
      rw [List.length_take]
      omega
    have hsplit := List.length_eq_length_filter_add (l := l.take n) keep
    have hkept : k ≤ ((l.take n).filter keep).length := by
      omega
    calc ((l.take n).filter keep).take k
        = ((l.take n).filter keep ++ (l.drop n).filter keep).take k :=
          (List.take_append_of_le_length hkept).symm
      _ = ((l.take n ++ l.drop n).filter keep).take k := by rw [List.filter_append]
      _ = (l.filter keep).take k := by rw [List.take_append_drop]

/-- Later positions of a ranking have keys that are no smaller. -/
theorem key_le_of_getElem? {i j : ℕ} {a b : α} (hij : i < j) (ha : (sortedBy key l)[i]? = some a)
    (hb : (sortedBy key l)[j]? = some b) : key a ≤ key b := by
  obtain ⟨hi, rfl⟩ := List.getElem?_eq_some_iff.mp ha
  obtain ⟨hj, rfl⟩ := List.getElem?_eq_some_iff.mp hb
  exact List.pairwise_iff_getElem.mp pairwise_sortedBy i j hi hj hij

/-- An item that a cut of a ranking leaves out comes after as many as the cut has room for. -/
theorem mem_take_or {n : ℕ} {a : α} (ha : a ∈ sortedBy key l) :
    a ∈ (sortedBy key l).take n ∨
      ((sortedBy key l).take n).length = n ∧ ∀ b ∈ (sortedBy key l).take n, key b ≤ key a := by
  have hsorted : (sortedBy key l).Pairwise fun a b => key a ≤ key b := pairwise_sortedBy
  generalize sortedBy key l = sorted at ha hsorted
  rw [← List.take_append_drop n sorted] at ha hsorted
  rcases List.mem_append.mp ha with hfirst | hlater
  · exact .inl hfirst
  · right
    constructor
    · have hlength : 0 < (sorted.drop n).length := List.length_pos_of_mem hlater
      rw [List.length_drop] at hlength
      rw [List.length_take]
      omega
    · exact fun b hb => (List.pairwise_append.mp hsorted).2.2 b hb a hlater

/-- The slices between two cuts make up the list. -/
theorem take_append_slice_append_drop {m n : ℕ} (h : m ≤ n) :
    l.take m ++ (l.take n).drop m ++ l.drop n = l := by
  have htake : l.take m = (l.take n).take m := by
    rw [List.take_take, Nat.min_eq_left h]
  rw [htake, List.take_append_drop, List.take_append_drop]

/-- Items of three successive parts of a list stand at three successive positions. -/
theorem exists_positions {l₁ l₂ l₃ : List α} {a b c : α} (ha : a ∈ l₁) (hb : b ∈ l₂) (hc : c ∈ l₃) :
    ∃ i j k : ℕ, i < j ∧ j < k ∧ (l₁ ++ l₂ ++ l₃)[i]? = some a ∧ (l₁ ++ l₂ ++ l₃)[j]? = some b ∧
      (l₁ ++ l₂ ++ l₃)[k]? = some c := by
  obtain ⟨i, hi, rfl⟩ := List.getElem_of_mem ha
  obtain ⟨j, hj, rfl⟩ := List.getElem_of_mem hb
  obtain ⟨k, hk, rfl⟩ := List.getElem_of_mem hc
  refine ⟨i, l₁.length + j, l₁.length + l₂.length + k, by omega, by omega, ?_, ?_, ?_⟩
  · rw [List.append_assoc, List.getElem?_append_left hi, List.getElem?_eq_getElem hi]
  · rw [List.append_assoc, List.getElem?_append_right (by omega), Nat.add_sub_cancel_left,
      List.getElem?_append_left hj, List.getElem?_eq_getElem hj]
  · rw [List.getElem?_append_right (by simp), List.length_append, Nat.add_sub_cancel_left,
      List.getElem?_eq_getElem hk]

end Ranking
