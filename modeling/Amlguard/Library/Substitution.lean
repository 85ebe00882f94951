import Mathlib.Data.List.TakeWhile

/-!
# Substituting the matches of a pattern

A matcher says how long the match of a pattern at the beginning of a text is. Matchers are built from
classes of symbols, repeated greedily; a pattern in which a repetition is never followed by a symbol of
its own class has no other match, so nothing is ever given back. `substitute` replaces the matches from
left to right, and a match that a prefix decides does not depend on what follows.
-/

namespace Substitution

variable {α : Type}

/-- The length of the match at the beginning of a text, if there is one. -/
abbrev Matcher (α : Type) := List α → Option ℕ

/-- One symbol of a class. -/
def one (p : α → Bool) : Matcher α
  | [] => none
  | a :: _ => if p a then some 1 else none

/-- One symbol of a class, or none. -/
def optional (p : α → Bool) : Matcher α
  | [] => some 0
  | a :: _ => some (if p a then 1 else 0)

/-- As many symbols of a class as there are. -/
def many (p : α → Bool) : Matcher α := fun s => some (s.takeWhile p).length

/-- As many symbols of a class as there are, at least one. -/
def many1 (p : α → Bool) : Matcher α := fun s =>
  if s.takeWhile p = [] then none else some (s.takeWhile p).length

/-- One match after another. -/
def andThen (m m' : Matcher α) : Matcher α := fun s =>
  match m s with
  | none => none
  | some n => (m' (s.drop n)).map (n + ·)

/-- One symbol of each class in turn. -/
def word : List (α → Bool) → Matcher α
  | [] => fun _ => some 0
  | p :: ps => andThen (one p) (word ps)

/-- Replace the matches of a pattern from left to right. The number counts the symbols of the last
match that are still to be passed over. -/
def substitute (m : Matcher α) (replacement : List α) : ℕ → List α → List α
  | _, [] => []
  | k + 1, _ :: s => substitute m replacement k s
  | 0, a :: s =>
    match m (a :: s) with
    | some (n + 1) => replacement ++ substitute m replacement n s
    | _ => a :: substitute m replacement 0 s

section Substitute

variable {m : Matcher α} {replacement : List α}

/-- Passing over a match leaves what comes after it. -/
theorem substitute_drop (k : ℕ) (s : List α) :
    substitute m replacement k s = substitute m replacement 0 (s.drop k) := by
  induction k generalizing s with
  | zero => rw [List.drop_zero]
  | succ k ih =>
    cases s with
    | nil => rfl
    | cons a s => exact ih s

/-- A match is replaced. -/
theorem substitute_match {s : List α} {n : ℕ} (h : m s = some (n + 1)) (hs : s ≠ []) :
    substitute m replacement 0 s = replacement ++ substitute m replacement 0 (s.drop (n + 1)) := by
  cases s with
  | nil => exact absurd rfl hs
  | cons a s =>
    rw [substitute, h]
    dsimp only
    rw [substitute_drop, List.drop_succ_cons]

/-- Two texts that begin alike are treated alike there when the matches are the same. -/
theorem substitute_cons {a : α} {s t : List α} (hmatch : m (a :: s) = m (a :: t))
    (hrest : ∀ n, (m (a :: s) = some (n + 1) ∨ n = 0 ∧ (m (a :: s) = none ∨ m (a :: s) = some 0)) →
      substitute m replacement n s = substitute m replacement n t) :
    substitute m replacement 0 (a :: s) = substitute m replacement 0 (a :: t) := by
  rw [substitute, substitute, ← hmatch]
  cases hm : m (a :: s) with
  | none => exact congrArg _ (hrest 0 (.inr ⟨rfl, .inl hm⟩))
  | some n =>
    cases n with
    | zero => exact congrArg _ (hrest 0 (.inr ⟨rfl, .inr hm⟩))
    | succ n => exact congrArg _ (hrest n (.inl hm))

end Substitute

section Decided

variable {m m' : Matcher α} {p : α → Bool} {s : List α}

/-- What follows a text has no influence on the match at its beginning. -/
def DecidedBy (m : Matcher α) (s : List α) : Prop := ∀ x, m (s ++ x) = m s

/-- A run ends inside a text that has a symbol outside of the class. -/
theorem takeWhile_append_of_stop (h : ∃ a ∈ s, p a = false) (x : List α) :
    (s ++ x).takeWhile p = s.takeWhile p := by
  induction s with
  | nil =>
    obtain ⟨a, ha, -⟩ := h
    cases ha
  | cons b s ih =>
    rw [List.cons_append, List.takeWhile_cons, List.takeWhile_cons]
    by_cases hb : p b = true
    · rw [if_pos hb, if_pos hb, ih]
      obtain ⟨a, ha, hstop⟩ := h
      rcases List.mem_cons.mp ha with rfl | ha
      · rw [hb] at hstop
        cases hstop
      · exact ⟨a, ha, hstop⟩
    · rw [if_neg hb, if_neg hb]

/-- What is left after a run. -/
theorem drop_takeWhile (p : α → Bool) (s : List α) : s.drop (s.takeWhile p).length = s.dropWhile p := by
  calc s.drop (s.takeWhile p).length
      = (s.takeWhile p ++ s.dropWhile p).drop (s.takeWhile p).length := by
        rw [List.takeWhile_append_dropWhile]
    _ = s.dropWhile p := List.drop_left

/-- A run of at least one symbol is decided where it ends. -/
theorem decidedBy_many1 (h : ∃ a ∈ s, p a = false) : DecidedBy (many1 p) s := by
  intro x
  rw [many1, many1, takeWhile_append_of_stop h]

/-- One symbol is decided by any text that has one. -/
theorem decidedBy_one (h : s ≠ []) : DecidedBy (one p) s := by
  intro x
  cases s with
  | nil => exact absurd rfl h
  | cons a s => rfl

/-- A sequence is decided when both parts are, the second after what the first has taken. -/
theorem DecidedBy.andThen (h : DecidedBy m s)
    (h' : ∀ n, m s = some n → n ≤ s.length ∧ DecidedBy m' (s.drop n)) :
    DecidedBy (andThen m m') s := by
  intro x
  rw [Substitution.andThen, Substitution.andThen, h x]
  cases hm : m s with
  | none => rfl
  | some n =>
    obtain ⟨hn, hdecided⟩ := h' n hm
    dsimp only
    rw [List.drop_append_of_le_length hn, hdecided x]

/-- A word takes one symbol for each of its classes, and is decided by a text of that length. -/
theorem decidedBy_word (ps : List (α → Bool)) (h : ps.length ≤ s.length) : DecidedBy (word ps) s := by
  induction ps generalizing s with
  | nil => exact fun _ => rfl
  | cons p ps ih =>
    cases s with
    | nil => cases h
    | cons a s =>
      apply DecidedBy.andThen
      · exact decidedBy_one (List.cons_ne_nil _ _)
      · intro n hn
        rw [one] at hn
        split at hn
        · cases hn
          exact ⟨Nat.succ_le_succ (Nat.zero_le _), ih (Nat.le_of_succ_le_succ h)⟩
        · cases hn

/-- A word that is found has the length of its classes, and its symbols are in them. -/
theorem word_eq_some {ps : List (α → Bool)} {n : ℕ} (h : word ps s = some n) :
    n = ps.length ∧ ∀ (i : ℕ) (p : α → Bool), ps[i]? = some p → ∃ a, s[i]? = some a ∧ p a = true := by
  induction ps generalizing s n with
  | nil =>
    cases h
    exact ⟨rfl, fun i p hp => by cases hp⟩
  | cons q ps ih =>
    cases s with
    | nil => cases h
    | cons b s =>
      rw [word, Substitution.andThen, one] at h
      by_cases hb : q b = true
      · rw [if_pos hb] at h
        obtain ⟨k, hk, rfl⟩ := Option.map_eq_some_iff.mp h
        obtain ⟨rfl, hsymbols⟩ := ih hk
        refine ⟨Nat.add_comm 1 _, fun i p hp => ?_⟩
        cases i with
        | zero =>
          cases hp
          exact ⟨b, rfl, hb⟩
        | succ i => exact hsymbols i p hp
      · rw [if_neg hb] at h
        cases h

end Decided

end Substitution
