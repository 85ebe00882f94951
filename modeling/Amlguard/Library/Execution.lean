import Amlguard.Library.Conduct

/-!
# Executions of a program on its own

A program that runs from a world to its end with nothing in between. Which outcomes its calls may
have is a parameter, as in `Rules`. The equivalences take an execution apart along the structure of
the program.
-/

namespace Awaited

namespace Prog

variable {S : Signature} {W O : Type} {α β : Type}

/-- Sequencing is associative. -/
theorem bind_assoc {γ : Type} (p : Prog S α) (f : α → Prog S β) (g : β → Prog S γ) :
    (p >>= f) >>= g = p >>= fun a => f a >>= g := by
  change (p.bind f).bind g = p.bind fun a => (f a).bind g
  induction p with
  | done r => cases r <;> rfl
  | mark n p ih => exact congrArg (Prog.mark n) ih
  | await c k ih => exact congrArg (Prog.await c) (funext ih)

/-- A program runs from a world to a result and another world, its calls having admitted outcomes. -/
inductive Executes (M : Machine S W O) (ok : W → O → S.Call → Prop) :
    Prog S α → W → Except S.Fault α → W → Prop where
  | done (r : Except S.Fault α) (w : W) : Executes M ok (.done r) w r w
  | mark (n : S.Mark) (p : Prog S α) (w w' : W) (r : Except S.Fault α)
      (hrest : Executes M ok p (M.record n w) r w') : Executes M ok (.mark n p) w r w'
  | await (c : S.Call) (k : Except S.Fault (S.Reply c) → Prog S α) (w w' : W) (o : O)
      (r : Except S.Fault α) (hok : ok w o c)
      (hrest : Executes M ok (k (M.perform w o c).1) (M.perform w o c).2 r w') :
      Executes M ok (.await c k) w r w'

variable {M : Machine S W O} {ok : W → O → S.Call → Prop} {w w' : W}

/-- How a sequence goes on after its first part. -/
def ThenExecutes (M : Machine S W O) (ok : W → O → S.Call → Prop) (f : α → Prog S β) :
    Except S.Fault α → W → Except S.Fault β → W → Prop
  | .ok a, w, r, w' => (f a).Executes M ok w r w'
  | .error e, w, r, w' => r = .error e ∧ w = w'

@[simp] theorem thenExecutes_ok (f : α → Prog S β) (a : α) (r : Except S.Fault β) :
    ThenExecutes M ok f (.ok a) w r w' ↔ (f a).Executes M ok w r w' := Iff.rfl

/-- A finished program is at its end. -/
theorem executes_done {r r' : Except S.Fault α} :
    (Prog.done r : Prog S α).Executes M ok w r' w' ↔ r' = r ∧ w = w' := by
  constructor
  · intro h
    cases h
    exact ⟨rfl, rfl⟩
  · rintro ⟨rfl, rfl⟩
    exact .done _ _

@[simp] theorem executes_pure {a : α} {r : Except S.Fault α} :
    (pure a : Prog S α).Executes M ok w r w' ↔ r = .ok a ∧ w = w' := executes_done

@[simp] theorem executes_settleResult {r r' : Except S.Fault α} :
    (settleResult r : Prog S α).Executes M ok w r' w' ↔ r' = r ∧ w = w' := executes_done

/-- A mark only changes the history. -/
@[simp] theorem executes_note {n : S.Mark} {r : Except S.Fault Unit} :
    (note n : Prog S Unit).Executes M ok w r w' ↔ r = .ok () ∧ M.record n w = w' := by
  constructor
  · intro h
    cases h with
    | mark _ _ _ _ _ hrest => exact executes_pure.mp hrest
  · rintro ⟨rfl, rfl⟩
    exact .mark n _ w _ _ (.done _ _)

/-- A call has one of its admitted outcomes. -/
theorem executes_call {c : S.Call} {r : Except S.Fault (S.Reply c)} :
    (call c : Prog S (S.Reply c)).Executes M ok w r w' ↔
      ∃ o, ok w o c ∧ r = (M.perform w o c).1 ∧ (M.perform w o c).2 = w' := by
  constructor
  · intro h
    cases h with
    | await _ _ _ _ o _ hok hrest => exact ⟨o, hok, executes_done.mp hrest⟩
  · rintro ⟨o, hok, rfl, rfl⟩
    exact .await c _ w _ o _ hok (.done _ _)

/-- A sequence is executed part by part. -/
theorem executes_bind {p : Prog S α} {f : α → Prog S β} {r : Except S.Fault β} :
    (p >>= f).Executes M ok w r w' ↔
      ∃ r₁ w₁, p.Executes M ok w r₁ w₁ ∧ ThenExecutes M ok f r₁ w₁ r w' := by
  change (p.bind f).Executes M ok w r w' ↔ _
  constructor
  · intro h
    induction p generalizing w with
    | done r₁ =>
      refine ⟨r₁, w, .done r₁ w, ?_⟩
      cases r₁ with
      | ok a => exact h
      | error e => exact executes_done.mp h
    | mark n p ih =>
      cases h with
      | mark _ _ _ _ _ hrest =>
        obtain ⟨r₁, w₁, hfirst, hthen⟩ := ih hrest
        exact ⟨r₁, w₁, .mark n p w w₁ r₁ hfirst, hthen⟩
    | await c k ih =>
      cases h with
      | await _ _ _ _ o _ hok hrest =>
        obtain ⟨r₁, w₁, hfirst, hthen⟩ := ih _ hrest
        exact ⟨r₁, w₁, .await c k w w₁ o r₁ hok hfirst, hthen⟩
  · rintro ⟨r₁, w₁, hfirst, hthen⟩
    induction hfirst with
    | done r₁ w =>
      cases r₁ with
      | ok a => exact hthen
      | error e =>
        obtain ⟨rfl, rfl⟩ := hthen
        exact .done _ _
    | mark n p w w₁ r₁ hrest ih => exact .mark n _ w w' r (ih hthen)
    | await c k w w₁ o r₁ hok hrest ih => exact .await c _ w w' o r hok (ih hthen)

/-- An attempted program hands its exception on as a value. -/
theorem executes_attempt {p : Prog S α} {r : Except S.Fault (Except S.Fault α)} :
    p.attempt.Executes M ok w r w' ↔ ∃ r₁, p.Executes M ok w r₁ w' ∧ r = .ok r₁ := by
  constructor
  · intro h
    induction p generalizing w with
    | done r₁ =>
      obtain ⟨rfl, rfl⟩ := executes_done.mp h
      exact ⟨r₁, .done _ _, rfl⟩
    | mark n p ih =>
      cases h with
      | mark _ _ _ _ _ hrest =>
        obtain ⟨r₁, hp, hr⟩ := ih hrest
        exact ⟨r₁, .mark n p w w' r₁ hp, hr⟩
    | await c k ih =>
      cases h with
      | await _ _ _ _ o _ hok hrest =>
        obtain ⟨r₁, hp, hr⟩ := ih _ hrest
        exact ⟨r₁, .await c k w w' o r₁ hok hp, hr⟩
  · rintro ⟨r₁, hp, rfl⟩
    induction hp with
    | done r w => exact .done _ _
    | mark n p w w' r hrest ih => exact .mark n _ w w' _ ih
    | await c k w w' o r hok hrest ih => exact .await c _ w w' o _ hok ih

/-- A suppressed block ends normally. -/
theorem executes_suppress {p : Prog S Unit} {r : Except S.Fault Unit} :
    (suppress p).Executes M ok w r w' ↔ r = .ok () ∧ ∃ r₁, p.Executes M ok w r₁ w' := by
  rw [suppress, executes_bind]
  constructor
  · rintro ⟨r₁, w₁, hp, hthen⟩
    obtain ⟨r₂, hblock, rfl⟩ := executes_attempt.mp hp
    obtain ⟨rfl, rfl⟩ := executes_pure.mp hthen
    exact ⟨rfl, r₂, hblock⟩
  · rintro ⟨rfl, r₂, hp⟩
    exact ⟨_, w', executes_attempt.mpr ⟨r₂, hp, rfl⟩, executes_pure.mpr ⟨rfl, rfl⟩⟩

/-- A cleanup follows every end of a block. -/
theorem executes_finally' {p : Prog S α} {cleanup : Prog S Unit} {r : Except S.Fault α} :
    (finally' p cleanup).Executes M ok w r w' ↔
      ∃ r₁ w₁, p.Executes M ok w r₁ w₁ ∧ (cleanup >>= fun _ => settleResult r₁).Executes M ok w₁ r w' := by
  rw [finally', executes_bind]
  constructor
  · rintro ⟨r₁, w₁, hp, hthen⟩
    obtain ⟨r₂, hblock, rfl⟩ := executes_attempt.mp hp
    exact ⟨r₂, w₁, hblock, hthen⟩
  · rintro ⟨r₁, w₁, hp, hthen⟩
    exact ⟨.ok r₁, w₁, executes_attempt.mpr ⟨r₁, hp, rfl⟩, hthen⟩

/-- What the calls and the marks of a program keep, its execution keeps. -/
theorem Executes.keeps {calls : S.Call → Prop} {marks : S.Mark → Prop} {I : W → Prop}
    (hcall : ∀ w o c, ok w o c → calls c → I w → I (M.perform w o c).2)
    (hmark : ∀ w n, marks n → I w → I (M.record n w)) {p : Prog S α} {r : Except S.Fault α}
    (h : p.Executes M ok w r w') (hp : p.Only calls marks) (hw : I w) : I w' := by
  induction h with
  | done r w => exact hw
  | mark n p w w' r hrest ih =>
    obtain ⟨hn, hp⟩ := (only_mark n p).mp hp
    exact ih hp (hmark w n hn hw)
  | await c k w w' o r hok hrest ih =>
    obtain ⟨hc, hp⟩ := (only_await c k).mp hp
    exact ih (hp _) (hcall w o c hok hc hw)

/-- What a diagram says of a program is true of its execution, when the phases and the world keep an
assertion and every reply is one that the diagram expects. -/
theorem Executes.follows {P : Type} {D : Diagram S P} {I : P → W → Prop}
    (hcall : ∀ m w o c, ok w o c → I m w → D.expected c (M.perform w o c).1 ∧
      ∀ m', D.onReply m c (M.perform w o c).1 m' → I m' (M.perform w o c).2)
    (hmark : ∀ m n m' w, I m w → D.onMark m n m' → I m' (M.record n w)) {p : Prog S α}
    {r : Except S.Fault α} {post : Except S.Fault α → P → Prop} {m : P}
    (h : p.Executes M ok w r w') (hp : D.Follows p post m) (hw : I m w) :
    ∃ m', post r m' ∧ I m' w' := by
  induction h generalizing m with
  | done r w =>
    rw [Diagram.Follows] at hp
    exact ⟨m, hp, hw⟩
  | mark n p w w' r hrest ih =>
    rw [Diagram.Follows] at hp
    obtain ⟨m', hedge, hp⟩ := hp
    exact ih hp (hmark m n m' w hw hedge)
  | await c k w w' o r hok hrest ih =>
    rw [Diagram.Follows] at hp
    obtain ⟨hexpected, hkeeps⟩ := hcall m w o c hok hw
    obtain ⟨m', hedge, hp⟩ := hp _ hexpected
    exact ih hp (hkeeps m' hedge)

/-- An execution whose calls have admitted outcomes is one under weaker conditions. -/
theorem Executes.mono {ok' : W → O → S.Call → Prop} {p : Prog S α} {r : Except S.Fault α}
    (h : p.Executes M ok w r w') (hok : ∀ w o c, ok w o c → ok' w o c) : p.Executes M ok' w r w' := by
  induction h with
  | done r w => exact .done r w
  | mark n p w w' r hrest ih => exact .mark n p w w' r ih
  | await c k w w' o r hallowed hrest ih => exact .await c k w w' o r (hok w o c hallowed) ih

/-- Every value that a program may return meets a condition. -/
def Yields (Q : α → Prop) : Prog S α → Prop
  | .done (.ok a) => Q a
  | .done (.error _) => True
  | .mark _ p => p.Yields Q
  | .await _ k => ∀ r, (k r).Yields Q

@[simp] theorem yields_pure {Q : α → Prop} {a : α} : (pure a : Prog S α).Yields Q ↔ Q a := Iff.rfl

/-- A stored exception is no value. -/
theorem yields_error {Q : α → Prop} {e : S.Fault} :
    (settleResult (.error e) : Prog S α).Yields Q := trivial

/-- A sequence yields what its second part does, whatever the first part returns. -/
theorem yields_bind {Q : β → Prop} {p : Prog S α} {f : α → Prog S β} (h : ∀ a, (f a).Yields Q) :
    (p >>= f).Yields Q := by
  change (p.bind f).Yields Q
  induction p with
  | done r =>
    cases r with
    | ok a => exact h a
    | error e => trivial
  | mark n p ih => exact ih
  | await c k ih => exact fun r => ih r

/-- An execution returns what the program yields. -/
theorem Executes.yields {Q : α → Prop} {p : Prog S α} {a : α} (h : p.Executes M ok w (.ok a) w')
    (hp : p.Yields Q) : Q a := by
  generalize hr : (Except.ok a : Except S.Fault α) = r at h
  induction h with
  | done r w =>
    subst hr
    exact hp
  | mark n p w w' r hrest ih => exact ih hp hr
  | await c k w w' o r hok hrest ih => exact ih (hp _) hr

/-- A sequence yields what its second part does with the values that the first part yields. -/
theorem Yields.bind {Q : α → Prop} {Q' : β → Prop} {p : Prog S α} {f : α → Prog S β} (hp : p.Yields Q)
    (hf : ∀ a, Q a → (f a).Yields Q') : (p >>= f).Yields Q' := by
  change (p.bind f).Yields Q'
  induction p with
  | done r =>
    cases r with
    | ok a => exact hf a hp
    | error e => trivial
  | mark n p ih => exact ih hp
  | await c k ih => exact fun r => ih r (hp r)

/-- An attempted program hands on what it yields, or an exception. -/
theorem Yields.attempt {Q : α → Prop} {p : Prog S α} (hp : p.Yields Q) :
    p.attempt.Yields fun r => ∀ a, r = .ok a → Q a := by
  induction p with
  | done r =>
    cases r with
    | ok a =>
      intro b hb
      cases hb
      exact hp
    | error e => exact fun b hb => (by cases hb)
  | mark n p ih => exact ih hp
  | await c k ih => exact fun r => ih r (hp r)

/-- A cleanup changes nothing about what is yielded. -/
theorem Yields.finally' {Q : α → Prop} {p : Prog S α} {cleanup : Prog S Unit} (hp : p.Yields Q) :
    (finally' p cleanup).Yields Q := by
  apply hp.attempt.bind
  intro r hr
  apply yields_bind
  intro _
  cases r with
  | ok a => exact hr a rfl
  | error e => trivial

/-- An execution in the course of which a call with a property is performed. -/
inductive Meets (M : Machine S W O) (ok : W → O → S.Call → Prop) (P : W → O → S.Call → Prop) :
    Prog S α → W → Except S.Fault α → W → Prop where
  | mark (n : S.Mark) (p : Prog S α) (w w' : W) (r : Except S.Fault α)
      (hrest : Meets M ok P p (M.record n w) r w') : Meets M ok P (.mark n p) w r w'
  | here (c : S.Call) (k : Except S.Fault (S.Reply c) → Prog S α) (w w' : W) (o : O)
      (r : Except S.Fault α) (hok : ok w o c) (hP : P w o c)
      (hrest : Executes M ok (k (M.perform w o c).1) (M.perform w o c).2 r w') :
      Meets M ok P (.await c k) w r w'
  | later (c : S.Call) (k : Except S.Fault (S.Reply c) → Prog S α) (w w' : W) (o : O)
      (r : Except S.Fault α) (hok : ok w o c)
      (hrest : Meets M ok P (k (M.perform w o c).1) (M.perform w o c).2 r w') :
      Meets M ok P (.await c k) w r w'

section Meets

variable {P : W → O → S.Call → Prop}

/-- A finished program performs nothing. -/
theorem not_meets_done {r r' : Except S.Fault α} : ¬(Prog.done r : Prog S α).Meets M ok P w r' w' :=
  nofun

/-- A program whose calls do not have the property meets none. -/
theorem not_meets_of_only {calls : S.Call → Prop} {marks : S.Mark → Prop} {p : Prog S α}
    {r : Except S.Fault α} (hp : p.Only calls marks) (hcalls : ∀ w o c, calls c → ¬P w o c) :
    ¬p.Meets M ok P w r w' := by
  intro h
  induction h with
  | mark n p w w' r _ ih => exact ih ((only_mark n p).mp hp).2
  | here c k w w' o r _ hP _ => exact hcalls w o c ((only_await c k).mp hp).1 hP
  | later c k w w' o r _ _ ih => exact ih (((only_await c k).mp hp).2 _)

/-- A single call is the one that is met. -/
theorem meets_call {c : S.Call} {r : Except S.Fault (S.Reply c)} :
    (call c : Prog S (S.Reply c)).Meets M ok P w r w' ↔
      ∃ o, ok w o c ∧ P w o c ∧ r = (M.perform w o c).1 ∧ (M.perform w o c).2 = w' := by
  constructor
  · intro h
    cases h with
    | here _ _ _ _ o _ hok hP hrest => exact ⟨o, hok, hP, executes_done.mp hrest⟩
    | later _ _ _ _ o _ hok hrest => exact absurd hrest not_meets_done
  · intro h
    obtain ⟨o, hok, hP, rfl, rfl⟩ := h
    exact .here c _ w _ o _ hok hP (.done _ _)

/-- In a sequence, the call is met in the first part or in the second. -/
theorem meets_bind {p : Prog S α} {f : α → Prog S β} {r : Except S.Fault β} :
    (p >>= f).Meets M ok P w r w' ↔
      (∃ r₁ w₁, p.Meets M ok P w r₁ w₁ ∧ ThenExecutes M ok f r₁ w₁ r w') ∨
        ∃ a w₁, p.Executes M ok w (.ok a) w₁ ∧ (f a).Meets M ok P w₁ r w' := by
  change (p.bind f).Meets M ok P w r w' ↔ _
  constructor
  · intro h
    induction p generalizing w with
    | done r₁ =>
      cases r₁ with
      | ok a => exact .inr ⟨a, w, .done _ _, h⟩
      | error e => exact absurd h not_meets_done
    | mark n p ih =>
      cases h with
      | mark _ _ _ _ _ hrest =>
        rcases ih hrest with ⟨r₁, w₁, hfirst, hthen⟩ | ⟨a, w₁, hfirst, hthen⟩
        · exact .inl ⟨r₁, w₁, .mark n p w w₁ r₁ hfirst, hthen⟩
        · exact .inr ⟨a, w₁, .mark n p w w₁ _ hfirst, hthen⟩
    | await c k ih =>
      cases h with
      | here _ _ _ _ o _ hok hP hrest =>
        obtain ⟨r₁, w₁, hfirst, hthen⟩ := executes_bind.mp hrest
        exact .inl ⟨r₁, w₁, .here c k w w₁ o r₁ hok hP hfirst, hthen⟩
      | later _ _ _ _ o _ hok hrest =>
        rcases ih _ hrest with ⟨r₁, w₁, hfirst, hthen⟩ | ⟨a, w₁, hfirst, hthen⟩
        · exact .inl ⟨r₁, w₁, .later c k w w₁ o r₁ hok hfirst, hthen⟩
        · exact .inr ⟨a, w₁, .await c k w w₁ o _ hok hfirst, hthen⟩
  · intro h
    rcases h with ⟨r₁, w₁, hfirst, hthen⟩ | ⟨a, w₁, hfirst, hthen⟩
    · induction hfirst with
      | mark n p w w₁ r₁ _ ih => exact .mark n _ w w' r (ih hthen)
      | here c k w w₁ o r₁ hok hP hrest =>
        exact .here c _ w w' o r hok hP (executes_bind.mpr ⟨r₁, w₁, hrest, hthen⟩)
      | later c k w w₁ o r₁ hok _ ih => exact .later c _ w w' o r hok (ih hthen)
    · generalize hr : (Except.ok a : Except S.Fault α) = r₁ at hfirst
      induction hfirst with
      | done r₁ w =>
        subst hr
        exact hthen
      | mark n p w w₁ r₁ _ ih => exact .mark n _ w w' r (ih hthen hr)
      | await c k w w₁ o r₁ hok _ ih => exact .later c _ w w' o r hok (ih hthen hr)

/-- A first part that meets none leaves the call to the rest. -/
theorem Meets.rest {p : Prog S α} {f : α → Prog S β} {r : Except S.Fault β}
    (h : (p >>= f).Meets M ok P w r w') (hp : ∀ r₁ w₁, ¬p.Meets M ok P w r₁ w₁) :
    ∃ a w₁, p.Executes M ok w (.ok a) w₁ ∧ (f a).Meets M ok P w₁ r w' := by
  rcases meets_bind.mp h with ⟨r₁, w₁, hfirst, -⟩ | hrest
  · exact absurd hfirst (hp r₁ w₁)
  · exact hrest

/-- An attempted program meets what it meets. -/
theorem meets_attempt {p : Prog S α} {r : Except S.Fault (Except S.Fault α)} :
    p.attempt.Meets M ok P w r w' ↔ ∃ r₁, p.Meets M ok P w r₁ w' ∧ r = .ok r₁ := by
  constructor
  · intro h
    induction p generalizing w with
    | done r₁ => exact absurd h not_meets_done
    | mark n p ih =>
      cases h with
      | mark _ _ _ _ _ hrest =>
        obtain ⟨r₁, hp, hr⟩ := ih hrest
        exact ⟨r₁, .mark n p w w' r₁ hp, hr⟩
    | await c k ih =>
      cases h with
      | here _ _ _ _ o _ hok hP hrest =>
        obtain ⟨r₁, hp, hr⟩ := executes_attempt.mp hrest
        exact ⟨r₁, .here c k w w' o r₁ hok hP hp, hr⟩
      | later _ _ _ _ o _ hok hrest =>
        obtain ⟨r₁, hp, hr⟩ := ih _ hrest
        exact ⟨r₁, .later c k w w' o r₁ hok hp, hr⟩
  · intro h
    obtain ⟨r₁, hp, rfl⟩ := h
    induction hp with
    | mark n p w w' r _ ih => exact .mark n _ w w' _ ih
    | here c k w w' o r hok hP hrest =>
      exact .here c _ w w' o _ hok hP (executes_attempt.mpr ⟨r, hrest, rfl⟩)
    | later c k w w' o r hok _ ih => exact .later c _ w w' o _ hok ih

/-- How a rescued block goes on after its end. -/
def answered (handler : S.Fault → Prog S α) : Except S.Fault α → Prog S α
  | .ok a => pure a
  | .error e => handler e

/-- An answer that meets none leaves the call to the block. -/
theorem Meets.of_rescue {p : Prog S α} {handler : S.Fault → Prog S α} {r : Except S.Fault α}
    (h : (rescue p handler).Meets M ok P w r w')
    (hhandler : ∀ e w r w', ¬(handler e).Meets M ok P w r w') :
    ∃ r₁ w₁, p.Meets M ok P w r₁ w₁ ∧ (answered handler r₁).Executes M ok w₁ r w' := by
  rcases meets_bind.mp h with ⟨r₁, w₁, hfirst, hthen⟩ | ⟨r₁, w₁, -, hrest⟩
  · obtain ⟨r₂, hp, rfl⟩ := meets_attempt.mp hfirst
    refine ⟨r₂, w₁, hp, ?_⟩
    cases r₂ with
    | ok a => exact hthen
    | error e => exact hthen
  · cases r₁ with
    | ok a => exact absurd hrest not_meets_done
    | error e => exact absurd hrest (hhandler e _ _ _)

/-- A cleanup that meets none leaves the call to the block. -/
theorem Meets.of_finally' {p : Prog S α} {cleanup : Prog S Unit} {r : Except S.Fault α}
    (h : (finally' p cleanup).Meets M ok P w r w')
    (hcleanup : ∀ w r w', ¬cleanup.Meets M ok P w r w') :
    ∃ r₁ w₁, p.Meets M ok P w r₁ w₁ ∧
      (cleanup >>= fun _ => settleResult r₁).Executes M ok w₁ r w' := by
  rcases meets_bind.mp h with ⟨r₁, w₁, hfirst, hthen⟩ | ⟨r₁, w₁, -, hrest⟩
  · obtain ⟨r₂, hp, rfl⟩ := meets_attempt.mp hfirst
    exact ⟨r₂, w₁, hp, hthen⟩
  · obtain ⟨_, w₂, -, hdone⟩ := hrest.rest (hcleanup w₁)
    exact absurd hdone not_meets_done

end Meets

/-- An attempted program keeps to the condition of the program. -/
theorem Only.attempt {calls : S.Call → Prop} {marks : S.Mark → Prop} {p : Prog S α}
    (hp : p.Only calls marks) : p.attempt.Only calls marks := by
  induction p with
  | done r => exact only_pure r
  | mark n p ih =>
    obtain ⟨hn, hp⟩ := (only_mark n p).mp hp
    exact (only_mark n p.attempt).mpr ⟨hn, ih hp⟩
  | await c k ih =>
    obtain ⟨hc, hk⟩ := (only_await c k).mp hp
    exact (only_await c _).mpr ⟨hc, fun r => ih r (hk r)⟩

/-- A suppressed block keeps to the condition of the block. -/
theorem Only.suppress {calls : S.Call → Prop} {marks : S.Mark → Prop} {p : Prog S Unit}
    (hp : p.Only calls marks) : (suppress p).Only calls marks :=
  hp.attempt.bind fun _ => only_pure ()

/-- A block with a cleanup keeps to the condition of both. -/
theorem Only.finally' {calls : S.Call → Prop} {marks : S.Mark → Prop} {p : Prog S α}
    {cleanup : Prog S Unit} (hp : p.Only calls marks) (hcleanup : cleanup.Only calls marks) :
    (finally' p cleanup).Only calls marks :=
  hp.attempt.bind fun r => hcleanup.bind fun _ => only_settleResult r

/-- A rescued block keeps to a condition when the block and the handler do. -/
theorem Only.rescue {calls : S.Call → Prop} {marks : S.Mark → Prop} {p : Prog S α}
    {handler : S.Fault → Prog S α} (hp : p.Only calls marks)
    (hhandler : ∀ e, (handler e).Only calls marks) : (rescue p handler).Only calls marks := by
  apply hp.attempt.bind
  intro r
  cases r with
  | ok a => exact only_pure a
  | error e => exact hhandler e

/-- What is left of a program after its leading marks keeps to the condition. -/
theorem Only.settle {calls : S.Call → Prop} {marks : S.Mark → Prop} (record : S.Mark → W → W)
    {p : Prog S α} (hp : p.Only calls marks) (w : W) : (p.settle record w).1.Only calls marks := by
  induction p generalizing w with
  | done r => exact hp
  | mark n p ih => exact ih ((only_mark n p).mp hp).2 (record n w)
  | await c k => exact hp

/-- A program may write these marks and end so, with some replies to its calls. -/
inductive Marked : Prog S α → List S.Mark → Except S.Fault α → Prop where
  | done (r : Except S.Fault α) : Marked (.done r) [] r
  | mark (n : S.Mark) (p : Prog S α) (marks : List S.Mark) (r : Except S.Fault α)
      (h : Marked p marks r) : Marked (.mark n p) (n :: marks) r
  | await (c : S.Call) (k : Except S.Fault (S.Reply c) → Prog S α)
      (reply : Except S.Fault (S.Reply c)) (marks : List S.Mark) (r : Except S.Fault α)
      (h : Marked (k reply) marks r) : Marked (.await c k) marks r

variable {marks : List S.Mark}

/-- A finished program writes nothing. -/
theorem marked_done {r r' : Except S.Fault α} :
    (Prog.done r : Prog S α).Marked marks r' ↔ marks = [] ∧ r' = r := by
  constructor
  · rintro ⟨⟩
    exact ⟨rfl, rfl⟩
  · rintro ⟨rfl, rfl⟩
    exact .done _

@[simp] theorem marked_pure {a : α} {r : Except S.Fault α} :
    (pure a : Prog S α).Marked marks r ↔ marks = [] ∧ r = .ok a := marked_done

@[simp] theorem marked_settleResult {r r' : Except S.Fault α} :
    (settleResult r : Prog S α).Marked marks r' ↔ marks = [] ∧ r' = r := marked_done

/-- A call writes nothing. -/
theorem marked_call {c : S.Call} {r : Except S.Fault (S.Reply c)}
    (h : (call c : Prog S (S.Reply c)).Marked marks r) : marks = [] := by
  cases h with
  | await _ _ _ _ _ hrest => exact (marked_done.mp hrest).1

/-- A mark is written. -/
theorem marked_note {n : S.Mark} {r : Except S.Fault Unit}
    (h : (note n : Prog S Unit).Marked marks r) : marks = [n] := by
  cases h with
  | mark _ _ rest _ hrest =>
    obtain ⟨rfl, -⟩ := marked_pure.mp hrest
    rfl

/-- A sequence that returns has written what its parts have written, both of which return. -/
theorem Marked.bind_ok {p : Prog S α} {f : α → Prog S β} {b : β}
    (h : (p >>= f).Marked marks (.ok b)) :
    ∃ first a rest, marks = first ++ rest ∧ p.Marked first (.ok a) ∧ (f a).Marked rest (.ok b) := by
  change (p.bind f).Marked marks (.ok b) at h
  induction p generalizing marks with
  | done r =>
    cases r with
    | ok a => exact ⟨[], a, marks, rfl, .done _, h⟩
    | error e =>
      obtain ⟨-, hr⟩ := marked_done.mp h
      cases hr
  | mark n p ih =>
    cases h with
    | mark _ _ later _ hlater =>
      obtain ⟨first, a, rest, rfl, hp, hf⟩ := ih hlater
      exact ⟨n :: first, a, rest, rfl, .mark n p first _ hp, hf⟩
  | await c k ih =>
    cases h with
    | await _ _ reply _ _ hlater =>
      obtain ⟨first, a, rest, rfl, hp, hf⟩ := ih reply hlater
      exact ⟨first, a, rest, rfl, .await c k reply first _ hp, hf⟩

/-- Run a program with one outcome for all its calls, as long as a test admits them. -/
def runChecked (M : Machine S W O) (check : W → O → S.Call → Bool) (o : O) :
    Prog S α → W → Option (Except S.Fault α × W)
  | .done r, w => some (r, w)
  | .mark n p, w => p.runChecked M check o (M.record n w)
  | .await c k, w =>
    if check w o c then (k (M.perform w o c).1).runChecked M check o (M.perform w o c).2 else none

/-- A run that the test admits is an execution. -/
theorem executes_of_runChecked {check : W → O → S.Call → Bool}
    (hcheck : ∀ w o c, check w o c = true → ok w o c) {o : O} {p : Prog S α} {r : Except S.Fault α}
    (h : p.runChecked M check o w = some (r, w')) : p.Executes M ok w r w' := by
  induction p generalizing w with
  | done r =>
    cases h
    exact .done _ _
  | mark n p ih => exact .mark n p w w' r (ih h)
  | await c k ih =>
    rw [runChecked] at h
    split at h
    · exact .await c k w w' o r (hcheck w o c (by assumption)) (ih _ h)
    · cases h

/-- A run that passes a test shows that there is an execution with that end. -/
theorem exists_executes (M : Machine S W O) (check : W → O → S.Call → Bool)
    (hcheck : ∀ w o c, check w o c = true → ok w o c) (o : O) (p : Prog S α) (w : W)
    (test : Except S.Fault α × W → Bool)
    (h : (p.runChecked M check o w).any test = true) :
    ∃ r w', p.Executes M ok w r w' ∧ test (r, w') = true := by
  obtain ⟨⟨r, w'⟩, hrun, htest⟩ := (Option.any_eq_true _ _).mp h
  exact ⟨r, w', executes_of_runChecked hcheck hrun, htest⟩

/-- Run a program with the outcomes that its calls draw, as long as a test admits them, and say whether
a watched call was performed. -/
def runWatched (M : Machine S W O) (check : W → O → S.Call → Bool) (draw : S.Call → O)
    (watch : S.Call → Bool) : Prog S α → W → Option ((Except S.Fault α × W) × Bool)
  | .done r, w => some ((r, w), false)
  | .mark n p, w => p.runWatched M check draw watch (M.record n w)
  | .await c k, w =>
    if check w (draw c) c then
      ((k (M.perform w (draw c) c).1).runWatched M check draw watch (M.perform w (draw c) c).2).map
        fun ended => (ended.1, watch c || ended.2)
    else none

/-- A run that the test admits is an execution, and meets the calls it has watched. -/
theorem executes_of_runWatched {P : W → O → S.Call → Prop} {check : W → O → S.Call → Bool}
    {draw : S.Call → O} {watch : S.Call → Bool} (hcheck : ∀ w o c, check w o c = true → ok w o c)
    (hwatch : ∀ w c, watch c = true → P w (draw c) c) {p : Prog S α} {r : Except S.Fault α} {seen : Bool}
    (h : p.runWatched M check draw watch w = some ((r, w'), seen)) :
    p.Executes M ok w r w' ∧ (seen = true → p.Meets M ok P w r w') := by
  induction p generalizing w seen with
  | done r =>
    cases h
    exact ⟨.done _ _, nofun⟩
  | mark n p ih =>
    obtain ⟨hexecutes, hmeets⟩ := ih h
    exact ⟨.mark n p w w' r hexecutes, fun hseen => .mark n p w w' r (hmeets hseen)⟩
  | await c k ih =>
    rw [runWatched] at h
    split at h
    · rename_i hadmitted
      obtain ⟨⟨ended, later⟩, hrest, heq⟩ := Option.map_eq_some_iff.mp h
      cases heq
      obtain ⟨hexecutes, hmeets⟩ := ih _ hrest
      have hok := hcheck w (draw c) c hadmitted
      refine ⟨.await c k w w' (draw c) r hok hexecutes, fun hseen => ?_⟩
      cases hwatched : watch c with
      | true => exact .here c k w w' (draw c) r hok (hwatch w c hwatched) hexecutes
      | false =>
        rw [hwatched, Bool.false_or] at hseen
        exact .later c k w w' (draw c) r hok (hmeets hseen)
    · cases h

end Prog

-- A program is walked by the rules above, never by computing it.
attribute [irreducible] Prog.Yields

end Awaited
