import Mathlib.Data.List.Basic

/-!
# The first hit

A loop looks at the items of a list in turn and returns what it finds first. Looking at an item may fail,
which ends the loop as well.
-/

namespace Search

variable {α β ε : Type}

/-- What is found first. -/
def firstHit (look : α → Except ε (Option β)) : List α → Except ε (Option β)
  | [] => .ok none
  | a :: rest =>
    match look a with
    | .ok (some b) => .ok (some b)
    | .ok none => firstHit look rest
    | .error e => .error e

variable {look : α → Except ε (Option β)} {l : List α}

/-- The loop ends at a hit. -/
theorem firstHit_cons_some {a : α} {b : β} {rest : List α} (h : look a = .ok (some b)) :
    firstHit look (a :: rest) = .ok (some b) := by
  rw [firstHit, h]

/-- The loop goes on after an item where nothing is found. -/
theorem firstHit_cons_none {a : α} {rest : List α} (h : look a = .ok none) :
    firstHit look (a :: rest) = firstHit look rest := by
  rw [firstHit, h]

/-- The loop finds nothing when nothing is found at any item. -/
theorem firstHit_eq_none : firstHit look l = .ok none ↔ ∀ a ∈ l, look a = .ok none := by
  induction l with
  | nil => simp [firstHit]
  | cons a rest ih =>
    rw [List.forall_mem_cons, ← ih, firstHit]
    split
    · rename_i hsome
      simp [hsome]
    · rename_i hnone
      simp [hnone]
    · rename_i herror
      simp [herror]

/-- What the loop finds has been found at an item. -/
theorem exists_of_firstHit {b : β} (h : firstHit look l = .ok (some b)) :
    ∃ a ∈ l, look a = .ok (some b) := by
  induction l with
  | nil => cases h
  | cons a rest ih =>
    rw [firstHit] at h
    split at h
    · rename_i hsome
      cases h
      exact ⟨a, List.mem_cons_self, hsome⟩
    · obtain ⟨found, hfound, hlook⟩ := ih h
      exact ⟨found, List.mem_cons_of_mem _ hfound, hlook⟩
    · cases h

/-- A hit is found when nothing is found at any other item. -/
theorem firstHit_of_only {a : α} {b : β} (ha : a ∈ l) (hhit : look a = .ok (some b))
    (hothers : ∀ x ∈ l, x = a ∨ look x = .ok none) : firstHit look l = .ok (some b) := by
  induction l with
  | nil => cases ha
  | cons x rest ih =>
    rcases hothers x List.mem_cons_self with rfl | hnone
    · exact firstHit_cons_some hhit
    · rw [firstHit_cons_none hnone]
      rcases List.mem_cons.mp ha with rfl | ha
      · rw [hhit] at hnone
        cases hnone
      · exact ih ha fun y hy => hothers y (List.mem_cons_of_mem _ hy)

/-- The loop returns when no look fails. -/
theorem exists_firstHit (h : ∀ a ∈ l, ∃ found, look a = .ok found) :
    ∃ found, firstHit look l = .ok found := by
  induction l with
  | nil => exact ⟨none, rfl⟩
  | cons a rest ih =>
    obtain ⟨hfirst, hrest⟩ := List.forall_mem_cons.mp h
    obtain ⟨found, hlook⟩ := hfirst
    cases found with
    | some b => exact ⟨some b, firstHit_cons_some hlook⟩
    | none =>
      rw [firstHit_cons_none hlook]
      exact ih hrest

end Search
