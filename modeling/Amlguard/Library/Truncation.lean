import Mathlib.Data.List.Basic

/-!
# Cutting texts to a budget

A text beyond its budget is cut, and a marker takes the end of the budget. What matters of the cut is
how many symbols of the text it keeps: a part of the text that ends within these survives, also when
the result is cut again.
-/

namespace Truncation

variable {α : Type} (marker : List α)

/-- The text within the budget: itself, or what is kept of it and the marker. -/
def cut (limit : ℕ) (text : List α) : List α :=
  if text.length ≤ limit then text else text.take (limit - marker.length) ++ marker

/-- The number of symbols that a cut keeps of a text of the given length. -/
def kept (limit n : ℕ) : ℕ := if n ≤ limit then n else limit - marker.length

variable {marker} {limit : ℕ} {text : List α}

/-- A budget with room for the marker is kept. -/
theorem length_cut (hmarker : marker.length ≤ limit) :
    (cut marker limit text).length = min text.length limit := by
  unfold cut
  split
  · omega
  · simp only [List.length_append, List.length_take]
    omega

/-- What is kept of a text stands at the beginning of the cut. -/
theorem take_prefix_cut : text.take (kept marker limit text.length) <+: cut marker limit text := by
  unfold cut kept
  split
  · simp
  · simp

/-- A beginning of the text within what is kept is a beginning of the cut. -/
theorem prefix_cut {part : List α} (hpart : part <+: text)
    (hlength : part.length ≤ kept marker limit text.length) : part <+: cut marker limit text :=
  (List.prefix_take_iff.mpr ⟨hpart, hlength⟩).trans take_prefix_cut

/-- A smaller budget with room for the marker keeps less, of what a larger budget has left. -/
theorem kept_of_kept {limit' n : ℕ} (hroom : marker.length + limit' ≤ limit) :
    kept marker limit' (min n limit) ≤ kept marker limit n := by
  unfold kept
  split <;> split <;> omega

/-- Far from the end of the budget, the cut is the text. -/
theorem take_cut {n : ℕ} (hroom : n + marker.length ≤ limit) :
    (cut marker limit text).take n = text.take n := by
  unfold cut
  split
  · rfl
  · rw [List.take_append_of_le_length (by rw [List.length_take]; omega), List.take_take]
    congr 1
    omega

/-- What is in a cut is in the part of the text within the budget, or in the marker. -/
theorem mem_cut {a : α} (h : a ∈ cut marker limit text) : a ∈ text.take limit ∨ a ∈ marker := by
  unfold cut at h
  split at h
  · rename_i hshort
    rw [List.take_of_length_le hshort]
    exact .inl h
  · rcases List.mem_append.mp h with h | h
    · exact .inl ((List.take_subset_take_left text (Nat.sub_le _ _)) h)
    · exact .inr h

end Truncation
