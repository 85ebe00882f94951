import Amlguard.Library.Execution

/-!
# Programs that do not listen to an observer

Some calls of a program only tell an observer something. A program is deaf to them when it goes on in the
same way whatever the observer answers. It then ends in the same way, in the same world, for every
observer, while all other calls are answered by a machine whose outcomes come from one sequence of draws.
-/

namespace Awaited

/-- Someone who answers calls from a state of its own. -/
structure Observer (S : Signature) where
  State : Type
  start : State
  answer : State → (c : S.Call) → Except S.Fault (S.Reply c) × State

namespace Prog

variable {S : Signature} {W O : Type} {α β : Type}

/-- A program that goes on in the same way after every reply to a silent call. -/
inductive Deaf (silent : S.Call → Bool) : Prog S α → Prop where
  | done (r : Except S.Fault α) : Deaf silent (.done r)
  | mark (n : S.Mark) (p : Prog S α) (hrest : Deaf silent p) : Deaf silent (.mark n p)
  | heard (c : S.Call) (k : Except S.Fault (S.Reply c) → Prog S α) (hc : silent c = false)
      (hrest : ∀ r, Deaf silent (k r)) : Deaf silent (.await c k)
  | unheard (c : S.Call) (k : Except S.Fault (S.Reply c) → Prog S α) (hc : silent c = true)
      (hsame : ∀ r r', k r = k r') (hrest : ∀ r, Deaf silent (k r)) : Deaf silent (.await c k)

/-- Run a program to its end. Silent calls go to the observer and leave the world as it is; the others
take one draw each. -/
def evaluate (M : Machine S W O) (silent : S.Call → Bool) (observer : Observer S) (draw : ℕ → O) :
    Prog S α → W → ℕ → observer.State → Except S.Fault α × W × ℕ × observer.State
  | .done r, w, i, s => (r, w, i, s)
  | .mark n p, w, i, s => p.evaluate M silent observer draw (M.record n w) i s
  | .await c k, w, i, s =>
    if silent c then
      (k (observer.answer s c).1).evaluate M silent observer draw w i (observer.answer s c).2
    else
      (k (M.perform w (draw i) c).1).evaluate M silent observer draw (M.perform w (draw i) c).2 (i + 1) s

variable {silent : S.Call → Bool}

theorem deaf_pure (a : α) : (pure a : Prog S α).Deaf silent := .done _

theorem deaf_note (n : S.Mark) : (note n : Prog S Unit).Deaf silent := .mark n _ (.done _)

theorem deaf_settleResult (r : Except S.Fault α) : (settleResult r : Prog S α).Deaf silent := .done r

theorem deaf_call {c : S.Call} (h : silent c = false) : (call c : Prog S (S.Reply c)).Deaf silent :=
  .heard c _ h fun r => .done r

/-- A program that makes no silent call listens to no one. -/
theorem Deaf.of_only {marks : S.Mark → Prop} {p : Prog S α}
    (hp : p.Only (fun c => silent c = false) marks) : p.Deaf silent := by
  induction p with
  | done r => exact .done r
  | mark n p ih => exact .mark n p (ih ((only_mark n p).mp hp).2)
  | await c k ih =>
    obtain ⟨hc, hk⟩ := (only_await c k).mp hp
    exact .heard c k hc fun r => ih r (hk r)

/-- A sequence of deaf programs is deaf. -/
theorem Deaf.bind {p : Prog S α} {f : α → Prog S β} (hp : p.Deaf silent)
    (hf : ∀ a, (f a).Deaf silent) : (p >>= f).Deaf silent := by
  change (p.bind f).Deaf silent
  induction hp with
  | done r =>
    cases r with
    | ok a => exact hf a
    | error e => exact .done _
  | mark n p _ ih => exact .mark n _ ih
  | heard c k hc _ ih => exact .heard c _ hc ih
  | unheard c k hc hsame _ ih =>
    exact .unheard c _ hc (fun r r' => congrArg (fun p => Prog.bind p f) (hsame r r')) ih

/-- An attempt of a deaf program is deaf. -/
theorem Deaf.attempt {p : Prog S α} (hp : p.Deaf silent) : p.attempt.Deaf silent := by
  induction hp with
  | done r => exact .done _
  | mark n p _ ih => exact .mark n _ ih
  | heard c k hc _ ih => exact .heard c _ hc ih
  | unheard c k hc hsame _ ih =>
    exact .unheard c _ hc (fun r r' => congrArg Prog.attempt (hsame r r')) ih

/-- A cleanup that is deaf leaves a block deaf. -/
theorem Deaf.finally' {p : Prog S α} {cleanup : Prog S Unit} (hp : p.Deaf silent)
    (hcleanup : cleanup.Deaf silent) : (finally' p cleanup).Deaf silent :=
  hp.attempt.bind fun r => hcleanup.bind fun _ => deaf_settleResult r

variable {M : Machine S W O} {draw : ℕ → O}

/-- A deaf program ends in the same way for every observer. -/
theorem Deaf.evaluate_eq {p : Prog S α} (hp : p.Deaf silent) (a b : Observer S) (w : W) (i : ℕ)
    (s : a.State) (t : b.State) :
    (p.evaluate M silent a draw w i s).1 = (p.evaluate M silent b draw w i t).1 ∧
      (p.evaluate M silent a draw w i s).2.1 = (p.evaluate M silent b draw w i t).2.1 ∧
      (p.evaluate M silent a draw w i s).2.2.1 = (p.evaluate M silent b draw w i t).2.2.1 := by
  induction hp generalizing w i s t with
  | done r => exact ⟨rfl, rfl, rfl⟩
  | mark n p _ ih => exact ih (M.record n w) i s t
  | heard c k hc _ ih =>
    simp only [evaluate, hc, Bool.false_eq_true, if_false]
    exact ih _ _ _ _ _
  | unheard c k hc hsame _ ih =>
    simp only [evaluate, hc, if_true]
    rw [hsame (a.answer s c).1 (b.answer t c).1]
    exact ih _ _ _ _ _

/-- What is evaluated is an execution on the machine, if the machine may answer the silent calls as the
observer does. -/
theorem executes_of_evaluate {observer : Observer S}
    (hanswer : ∀ w c (r : Except S.Fault (S.Reply c)), silent c = true → ∃ o, M.perform w o c = (r, w))
    (p : Prog S α) (w : W) (i : ℕ) (s : observer.State) :
    p.Executes M (fun _ _ _ => True) w (p.evaluate M silent observer draw w i s).1
      (p.evaluate M silent observer draw w i s).2.1 := by
  induction p generalizing w i s with
  | done r => exact .done r w
  | mark n p ih => exact .mark n p w _ _ (ih (M.record n w) i s)
  | await c k ih =>
    rw [evaluate]
    split
    · rename_i hc
      obtain ⟨o, ho⟩ := hanswer w c (observer.answer s c).1 hc
      have hrest := ih (observer.answer s c).1 w i (observer.answer s c).2
      exact .await c k w _ o _ trivial (by rw [ho]; exact hrest)
    · exact .await c k w _ (draw i) _ trivial (ih _ _ _ _)

end Prog

end Awaited
