import Mathlib.Data.List.Basic

/-!
# Texts made of parts

Two texts that join a left and a right part at a separator are equal when their parts are, or when
one of them has the separator inside a part, where the other joins. A right part that is free of the
separator, such as a decimal number, excludes the second case.

Decimal numbers may be padded with zeros to a width; a longer number keeps all its digits. Texts of
numbers determine the numbers, padded or not.
-/

namespace Spelling

variable {α : Type} {sep : α} {l l' r r' : List α}

/-- Two joined texts agree when their parts do, or when one joins inside a part of the other. -/
theorem append_cons_eq_append_cons_iff : l ++ sep :: r = l' ++ sep :: r' ↔
    l = l' ∧ r = r' ∨ (∃ t, l' = l ++ sep :: t ∧ r = t ++ sep :: r') ∨
      ∃ t, l = l' ++ sep :: t ∧ r' = t ++ sep :: r := by
  rw [List.append_eq_append_iff]
  constructor
  · rintro (⟨m, rfl, hright⟩ | ⟨m, rfl, hright⟩)
    · cases m with
      | nil => simpa [eq_comm] using hright
      | cons c t =>
        obtain ⟨rfl, rfl⟩ := List.cons.inj hright
        exact .inr (.inl ⟨t, rfl, rfl⟩)
    · cases m with
      | nil => simpa [eq_comm] using hright
      | cons c t =>
        obtain ⟨rfl, rfl⟩ := List.cons.inj hright
        exact .inr (.inr ⟨t, rfl, rfl⟩)
  · rintro (⟨rfl, rfl⟩ | ⟨t, rfl, rfl⟩ | ⟨t, rfl, rfl⟩)
    · exact .inl ⟨[], by simp, by simp⟩
    · exact .inl ⟨sep :: t, rfl, rfl⟩
    · exact .inr ⟨sep :: t, rfl, rfl⟩

/-- Right parts without the separator begin after its last occurrence. -/
theorem eq_of_append_cons (hr : sep ∉ r) (hr' : sep ∉ r') (h : l ++ sep :: r = l' ++ sep :: r') :
    l = l' ∧ r = r' := by
  rcases append_cons_eq_append_cons_iff.mp h with hparts | ⟨t, -, rfl⟩ | ⟨t, -, rfl⟩
  · exact hparts
  · exact absurd (by simp) hr
  · exact absurd (by simp) hr'

/-- The decimal digits of a number, padded with zeros to a width. -/
def padded (width n : ℕ) : List Char :=
  List.replicate (width - (Nat.toDigits 10 n).length) '0' ++ Nat.toDigits 10 n

/-- A padded number consists of digits. -/
theorem isDigit_of_mem_padded {width n : ℕ} {c : Char} (h : c ∈ padded width n) : c.isDigit = true := by
  rcases List.mem_append.mp h with hzero | hdigit
  · rw [List.eq_of_mem_replicate hzero]
    rfl
  · exact Nat.isDigit_of_mem_toDigits (by decide) (by decide) hdigit

/-- A character that is no digit does not occur in a padded number. -/
theorem notMem_padded {width n : ℕ} {c : Char} (h : c.isDigit = false) : c ∉ padded width n := by
  intro hmem
  rw [isDigit_of_mem_padded hmem] at h
  cases h

/-- Zeros in front do not change the value. -/
theorem ofDigitChars_padded (width n : ℕ) : Nat.ofDigitChars 10 (padded width n) 0 = n := by
  have hzeros : ∀ k (digits : List Char),
      Nat.ofDigitChars 10 (List.replicate k '0' ++ digits) 0 = Nat.ofDigitChars 10 digits 0 := by
    intro k digits
    induction k with
    | zero => rfl
    | succ k ih => rw [List.replicate_succ, List.cons_append, Nat.ofDigitChars_cons]; simpa using ih
  rw [padded, hzeros, Nat.ofDigitChars_ten_toDigits]

/-- A padded number determines the number, whatever the widths. -/
theorem padded_inj {width width' n m : ℕ} (h : padded width n = padded width' m) : n = m := by
  have hvalue := congrArg (Nat.ofDigitChars 10 · 0) h
  simpa only [ofDigitChars_padded] using hvalue

/-- A number that is not padded. -/
theorem padded_zero (n : ℕ) : padded 0 n = (toString n).toList := by
  simp [padded]

/-- The text of a number determines the number. -/
theorem toString_inj {n m : ℕ} (h : toString n = toString m) : n = m := by
  have hpadded : padded 0 n = padded 0 m := by
    rw [padded_zero, padded_zero, h]
  exact padded_inj hpadded

end Spelling
