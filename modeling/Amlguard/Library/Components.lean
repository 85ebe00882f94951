/-!
# Components that answer alike

A component answers requests from a state of its own. Two components are compared by sending the same
requests to both, one after another.

Suppose that, in states that correspond, a request that is admitted is answered alike exactly if it is safe,
and a safe one leads to states that correspond again. Then all answers to admitted requests are alike exactly
when every request is safe where it is made.
-/

namespace Components

variable {Q : Type} {A : Q → Type} {S S' S'' : Type}

/-- Someone who answers requests. -/
structure Component (Q : Type) (A : Q → Type) (S : Type) where
  answer : (q : Q) → S → A q × S

namespace Component

/-- The state after some requests. -/
def after (C : Component Q A S) (s : S) (requests : List Q) : S :=
  requests.foldl (fun s q => (C.answer q s).2) s

/-- Every request meets a condition where it is made. -/
def Along (C : Component Q A S) (P : S → Q → Prop) (s : S) : List Q → Prop
  | [] => True
  | q :: rest => P s q ∧ C.Along P (C.answer q s).2 rest

/-- The answers of two components to the same requests are alike, one by one. -/
def AnswersAlike (C : Component Q A S) (C' : Component Q A S') (alike : (q : Q) → A q → A q → Prop)
    (s : S) (s' : S') : List Q → Prop
  | [] => True
  | q :: rest => alike q (C.answer q s).1 (C'.answer q s').1 ∧
      C.AnswersAlike C' alike (C.answer q s).2 (C'.answer q s').2 rest

instance (C : Component Q A S) (P : S → Q → Prop) [∀ s q, Decidable (P s q)] :
    (s : S) → (requests : List Q) → Decidable (C.Along P s requests)
  | _, [] => .isTrue trivial
  | s, q :: rest =>
    have := instDecidableAlong C P (C.answer q s).2 rest
    inferInstanceAs (Decidable (P s q ∧ C.Along P (C.answer q s).2 rest))

end Component

/-- In corresponding states exactly the safe ones among the requests that are admitted are answered alike,
and they lead to corresponding states. -/
structure Corresponds (C : Component Q A S) (C' : Component Q A S') (alike : (q : Q) → A q → A q → Prop)
    (admitted : Q → Prop) (safe : S → Q → Prop) (related : S → S' → Prop) : Prop where
  alike_iff (s : S) (s' : S') (q : Q) (h : related s s') (hq : admitted q) :
    alike q (C.answer q s).1 (C'.answer q s').1 ↔ safe s q
  next (s : S) (s' : S') (q : Q) (h : related s s') (hq : admitted q) (hsafe : safe s q) :
    related (C.answer q s).2 (C'.answer q s').2

variable {C : Component Q A S} {C' : Component Q A S'} {alike : (q : Q) → A q → A q → Prop}
  {admitted : Q → Prop} {safe : S → Q → Prop} {related : S → S' → Prop}

/-- A component corresponds to a third one through a second, from which the answers of the third differ where
requests do not fit. A request that does not fit is compared directly, and leaves both as they are if it is
answered alike. -/
theorem Corresponds.comp {C'' : Component Q A S''} {same : (q : Q) → A q → A q → Prop}
    {fits : S' → Q → Prop} {safe' : S → Q → Prop} {related' : S' → S'' → Prop}
    (h : Corresponds C C' alike admitted safe related) (h' : Corresponds C' C'' same admitted fits related')
    (hsame : ∀ q a b c, same q b c → (alike q a b ↔ alike q a c))
    (hfit : ∀ s s' q, related s s' → fits s' q → (safe' s q ↔ safe s q))
    (hunfit : ∀ s s' s'' q, related s s' → related' s' s'' → admitted q → ¬fits s' q →
      (alike q (C.answer q s).1 (C''.answer q s'').1 ↔ safe' s q) ∧
        (safe' s q → (C.answer q s).2 = s ∧ (C''.answer q s'').2 = s'')) :
    Corresponds C C'' alike admitted safe' (fun s s'' => ∃ s', related s s' ∧ related' s' s'') where
  alike_iff s s'' q hrelated hq := by
    obtain ⟨s', hs, hs'⟩ := hrelated
    by_cases hfits : fits s' q
    · have hanswers := (h'.alike_iff s' s'' q hs' hq).mpr hfits
      rw [← hsame q _ _ _ hanswers, h.alike_iff s s' q hs hq, hfit s s' q hs hfits]
    · exact (hunfit s s' s'' q hs hs' hq hfits).1
  next s s'' q hrelated hq hsafe := by
    obtain ⟨s', hs, hs'⟩ := hrelated
    by_cases hfits : fits s' q
    · have hsafe' := (hfit s s' q hs hfits).mp hsafe
      exact ⟨(C'.answer q s').2, h.next s s' q hs hq hsafe', h'.next s' s'' q hs' hq hfits⟩
    · obtain ⟨hstays, hstays'⟩ := (hunfit s s' s'' q hs hs' hq hfits).2 hsafe
      rw [hstays, hstays']
      exact ⟨s', hs, hs'⟩

/-- Safe requests lead to corresponding states. -/
theorem Corresponds.related_after (h : Corresponds C C' alike admitted safe related) {s : S} {s' : S'}
    {requests : List Q} (hrelated : related s s') (hadmitted : ∀ q ∈ requests, admitted q)
    (hsafe : C.Along safe s requests) : related (C.after s requests) (C'.after s' requests) := by
  induction requests generalizing s s' with
  | nil => exact hrelated
  | cons q rest ih =>
    rw [List.forall_mem_cons] at hadmitted
    exact ih (h.next s s' q hrelated hadmitted.1 hsafe.1) hadmitted.2 hsafe.2

/-- All answers are alike exactly when every request is safe where it is made. -/
theorem Corresponds.answersAlike_iff (h : Corresponds C C' alike admitted safe related) {s : S} {s' : S'}
    {requests : List Q} (hrelated : related s s') (hadmitted : ∀ q ∈ requests, admitted q) :
    C.AnswersAlike C' alike s s' requests ↔ C.Along safe s requests := by
  induction requests generalizing s s' with
  | nil => exact Iff.rfl
  | cons q rest ih =>
    rw [List.forall_mem_cons] at hadmitted
    unfold Component.AnswersAlike Component.Along
    rw [h.alike_iff s s' q hrelated hadmitted.1]
    constructor
    · intro hrest
      exact ⟨hrest.1, (ih (h.next s s' q hrelated hadmitted.1 hrest.1) hadmitted.2).mp hrest.2⟩
    · intro hrest
      exact ⟨hrest.1, (ih (h.next s s' q hrelated hadmitted.1 hrest.1) hadmitted.2).mpr hrest.2⟩

end Components
