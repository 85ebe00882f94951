/-!
# Runs of labelled steps

A run takes one step after another, each allowed where it is taken. An invariant that every
allowed step keeps holds along the run. When a step that is not allowed spoils the state for good,
a run that ends unspoilt has been allowed throughout.
-/

namespace Transitions

variable {S A : Type}

/-- A list of steps leads from one state to another, each step being allowed where it is taken. -/
inductive Run (Step : S → A → S → Prop) (allowed : S → A → Prop) : S → List A → S → Prop where
  | nil (s : S) : Run Step allowed s [] s
  | cons (s s' s'' : S) (a : A) (rest : List A) (hallowed : allowed s a) (hstep : Step s a s')
      (hrest : Run Step allowed s' rest s'') : Run Step allowed s (a :: rest) s''

variable {Step : S → A → S → Prop} {allowed : S → A → Prop} {s s' : S} {steps : List A}

/-- The steps of a run need not be allowed. -/
theorem Run.any (hrun : Run Step allowed s steps s') : Run Step (fun _ _ => True) s steps s' := by
  induction hrun with
  | nil s => exact .nil s
  | cons s s' s'' a rest hallowed hstep hrest ih => exact .cons s s' s'' a rest trivial hstep ih

/-- A run takes one step more. -/
theorem Run.snoc {s'' : S} {a : A} (hrun : Run Step allowed s steps s') (hallowed : allowed s' a)
    (hstep : Step s' a s'') : Run Step allowed s (steps ++ [a]) s'' := by
  induction hrun with
  | nil s => exact .cons s s'' s'' a [] hallowed hstep (.nil s'')
  | cons s s' s'' b rest hb hfirst hrest ih => exact .cons s s' _ b _ hb hfirst (ih hallowed hstep)

/-- A step of a run is taken between two parts of the run. -/
theorem Run.exists_of_mem {a : A} (hrun : Run Step allowed s steps s') (ha : a ∈ steps) :
    ∃ before after first last, Run Step allowed s first before ∧ Step before a after ∧
      Run Step allowed after last s' ∧ steps = first ++ a :: last := by
  induction hrun with
  | nil s => cases ha
  | cons s t s' b rest hallowed hstep hrest ih =>
    obtain rfl | hlater := List.mem_cons.mp ha
    · exact ⟨s, t, [], rest, .nil s, hstep, hrest, rfl⟩
    · obtain ⟨before, after, first, last, hfirst, hnext, hlast, rfl⟩ := ih hlater
      exact ⟨before, after, b :: first, last, .cons s t before b first hallowed hstep hfirst, hnext, hlast,
        rfl⟩

/-- What every allowed step keeps, a run keeps. -/
theorem Run.invariant {I : S → Prop}
    (hkeeps : ∀ s a s', I s → allowed s a → Step s a s' → I s')
    (hrun : Run Step allowed s steps s') (hinit : I s) : I s' := by
  induction hrun with
  | nil s => exact hinit
  | cons s s' s'' a rest hallowed hstep hrest ih => exact ih (hkeeps s a s' hinit hallowed hstep)

/-- Steps that are allowed are allowed under a weaker condition. -/
theorem Run.mono {allowed' : S → A → Prop} (h : ∀ s a, allowed s a → allowed' s a)
    (hrun : Run Step allowed s steps s') : Run Step allowed' s steps s' := by
  induction hrun with
  | nil s => exact .nil s
  | cons s s' s'' a rest hallowed hstep hrest ih => exact .cons s s' s'' a rest (h s a hallowed) hstep ih

/-- What every step keeps may be assumed where a step is taken. -/
theorem Run.strengthen {K : S → Prop} (hkeeps : ∀ s a s', K s → Step s a s' → K s')
    (hrun : Run Step allowed s steps s') (hinit : K s) :
    Run Step (fun s a => K s ∧ allowed s a) s steps s' := by
  induction hrun with
  | nil s => exact .nil s
  | cons s s' s'' a rest hallowed hstep hrest ih =>
    exact .cons s s' s'' a rest ⟨hinit, hallowed⟩ hstep (ih (hkeeps s a s' hinit hstep))

/-- A run is allowed throughout when it ends unspoilt, and the first step that is not allowed would
spoil it. -/
theorem Run.allowed_of_unspoilt {I B : S → Prop}
    (hkeeps : ∀ s a s', I s → allowed s a → Step s a s' → I s')
    (hspoils : ∀ s a s', I s → ¬allowed s a → Step s a s' → B s')
    (hspoilt : ∀ s a s', B s → Step s a s' → B s')
    (hrun : Run Step (fun _ _ => True) s steps s') (hinit : I s) (hend : ¬B s') :
    Run Step allowed s steps s' := by
  induction hrun with
  | nil s => exact .nil s
  | cons s s' s'' a rest htrue hstep hrest ih =>
    by_cases hallowed : allowed s a
    · exact .cons s s' s'' a rest hallowed hstep (ih (hkeeps s a s' hinit hallowed hstep) hend)
    · have hspoilt' : B s'' :=
        Run.invariant (fun s a s' h _ hstep => hspoilt s a s' h hstep) hrest
          (hspoils s a s' hinit hallowed hstep)
      exact absurd hspoilt' hend

/-- A property holds in all states of a run exactly when the run is allowed throughout, if from a state
with the property exactly the allowed steps keep it. -/
theorem Run.throughout_iff {P : S → Prop}
    (hexact : ∀ s a s', P s → Step s a s' → (P s' ↔ allowed s a)) (hinit : P s) :
    (Run Step (fun s _ => P s) s steps s' ∧ P s') ↔ Run Step allowed s steps s' := by
  constructor
  · intro ⟨hrun, hend⟩
    induction hrun with
    | nil s => exact .nil s
    | cons s s' s'' a rest hbefore hstep hrest ih =>
      have hafter : P s' := by
        cases hrest with
        | nil => exact hend
        | cons _ _ _ _ _ hnext => exact hnext
      exact .cons s s' s'' a rest ((hexact s a s' hbefore hstep).mp hafter) hstep (ih hafter hend)
  · intro hrun
    induction hrun with
    | nil s => exact ⟨.nil s, hinit⟩
    | cons s s' s'' a rest hallowed hstep hrest ih =>
      have hafter := (hexact s a s' hinit hstep).mpr hallowed
      exact ⟨.cons s s' s'' a rest hinit hstep (ih hafter).1, (ih hafter).2⟩

end Transitions
