import Mathlib.Algebra.Order.BigOperators.Group.List
import Mathlib.Data.List.Perm.Subperm

/-!
# Windows over a sorted list

A window of a list begins at one of its entries and takes in the entries from there on whose key is within
a fixed width. In a list that is sorted by its key, any choice of entries whose keys span no more than the
width lies in one window, so looking at the windows alone misses nothing.
-/

namespace Windows

variable {α : Type} (key : α → ℕ) (width : ℕ)

/-- The entries whose key is within the width from that of the first. -/
def window (first : α) (l : List α) : List α :=
  l.filter fun a => key first ≤ key a ∧ key a ≤ key first + width

variable {key width}

theorem mem_window {first a : α} {l : List α} :
    a ∈ window key width first l ↔ a ∈ l ∧ key first ≤ key a ∧ key a ≤ key first + width := by
  simp [window]

/-- The entries that all lie within the width are the window. -/
theorem window_eq_self {first : α} {l : List α}
    (h : ∀ a ∈ l, key first ≤ key a ∧ key a ≤ key first + width) : window key width first l = l :=
  List.filter_eq_self.mpr fun a ha => decide_eq_true (h a ha)

/-- A choice of entries that all satisfy a condition is a choice among those that satisfy it. -/
theorem subperm_filter {p : α → Bool} {chosen l : List α} (hsub : chosen.Subperm l)
    (hp : ∀ a ∈ chosen, p a = true) : chosen.Subperm (l.filter p) := by
  have h := hsub.filter p
  rwa [List.filter_eq_self.mpr hp] at h

/-- Entries with distinct marks are found again by their marks, in their order. -/
theorem filter_mark_of_sublist {β : Type} [DecidableEq β] {mark : α → β} {chosen l : List α}
    (hsub : chosen.Sublist l) (hunique : (l.map mark).Nodup) :
    (l.filter fun a => mark a ∈ chosen.map mark) = chosen := by
  induction hsub with
  | slnil => rfl
  | @cons chosen l a hsub ih =>
    obtain ⟨hnew, hunique⟩ := List.nodup_cons.mp hunique
    have hnot : mark a ∉ chosen.map mark := fun hmem => hnew ((hsub.map mark).subset hmem)
    rw [List.filter_cons_of_neg (by simpa using hnot), ih hunique]
  | @cons_cons chosen l a hsub ih =>
    obtain ⟨hnew, hunique⟩ := List.nodup_cons.mp hunique
    rw [List.filter_cons_of_pos (by simp), List.cons_inj_right]
    refine Eq.trans (List.filter_congr fun b hb => ?_) (ih hunique)
    have hother : mark b ≠ mark a := fun heq => hnew (heq ▸ List.mem_map_of_mem hb)
    simp [hother]

/-- A list that has all entries of another in their order has a suffix for each of its suffixes, with the
same beginning. -/
theorem exists_suffix_of_sublist {l l' : List α} (hsub : l.Sublist l') {first : α} {rest : List α}
    (hsuffix : (first :: rest) <:+ l) : ∃ rest', (first :: rest') <:+ l' ∧ rest.Sublist rest' := by
  obtain ⟨before, after, rfl, hfirst, hrest⟩ := List.cons_sublist_iff.mp (hsuffix.sublist.trans hsub)
  obtain ⟨front, back, rfl⟩ := List.append_of_mem hfirst
  refine ⟨back ++ after, ⟨front, ?_⟩, hrest.trans (List.sublist_append_right back after)⟩
  simp

/-- Entries of a sorted list that span no more than the width lie in one window. -/
theorem exists_window {l chosen : List α} (hsorted : l.Pairwise fun a b => key a ≤ key b)
    (hsub : chosen.Subperm l) (hne : chosen ≠ [])
    (hspan : ∀ a ∈ chosen, ∀ b ∈ chosen, key b ≤ key a + width) :
    ∃ first rest, (first :: rest) <:+ l ∧ chosen.Subperm (window key width first (first :: rest)) := by
  induction l with
  | nil => exact absurd (List.subperm_nil.mp hsub) hne
  | cons x l ih =>
    obtain ⟨hleast, hrest⟩ := List.pairwise_cons.mp hsorted
    have hfrom : ∀ a ∈ chosen, key x ≤ key a := by
      intro a ha
      rcases List.mem_cons.mp (hsub.subset ha) with rfl | ha
      · exact le_rfl
      · exact hleast a ha
    by_cases hhead : ∃ a ∈ chosen, key a ≤ key x
    · -- the choice has an entry with the least key, so the first window takes in all of it
      obtain ⟨a, ha, hle⟩ := hhead
      refine ⟨x, l, List.suffix_rfl, subperm_filter hsub fun b hb => ?_⟩
      have hwidth := hspan a ha b hb
      have hb := hfrom b hb
      simp only [decide_eq_true_eq]
      omega
    · have htail : chosen.Subperm l := by
        have h := subperm_filter (p := fun a => decide (key x < key a)) hsub fun a ha =>
          decide_eq_true (lt_of_not_ge fun hle => hhead ⟨a, ha, hle⟩)
        rw [List.filter_cons_of_neg (by simp)] at h
        exact h.trans List.filter_sublist.subperm
      obtain ⟨first, rest, hsuffix, hchosen⟩ := ih hrest htail
      exact ⟨first, rest, hsuffix.trans (List.suffix_cons x l), hchosen⟩

/-- Entries whose keys lie a gap apart are no more than fit into the width. -/
theorem length_mul_gap_le {gap low : ℕ} {l : List α} (hgap : l.Pairwise fun a b => key a + gap ≤ key b)
    (hwithin : ∀ a ∈ l, low ≤ key a ∧ key a ≤ low + width) : l.length * gap ≤ width + gap := by
  induction l generalizing low width with
  | nil => simp
  | cons a rest ih =>
    obtain ⟨hnext, hrest⟩ := List.pairwise_cons.mp hgap
    have ha := hwithin a List.mem_cons_self
    cases rest with
    | nil => simp
    | cons b rest =>
      have hb := hnext b List.mem_cons_self
      have hbound := (hwithin b (List.mem_cons_of_mem _ List.mem_cons_self)).2
      have htail := @ih (width - gap) (low + gap) hrest fun c hc => by
        have hc' := hwithin c (List.mem_cons_of_mem _ hc)
        have hac := hnext c hc
        omega
      rw [List.length_cons, Nat.succ_mul]
      omega

/-- A choice of entries weighs no more than the list, when no entry weighs less than nothing. -/
theorem sum_map_le {M : Type} [AddCommMonoid M] [PartialOrder M] [IsOrderedAddMonoid M] {f : α → M}
    {chosen l : List α} (hsub : chosen.Subperm l) (hf : ∀ a ∈ l, 0 ≤ f a) :
    (chosen.map f).sum ≤ (l.map f).sum := by
  obtain ⟨same, hperm, hsublist⟩ := hsub
  rw [← (hperm.map f).sum_eq]
  apply (hsublist.map f).sum_le_sum
  intro x hx
  obtain ⟨a, ha, rfl⟩ := List.mem_map.mp hx
  exact hf a ha

end Windows
