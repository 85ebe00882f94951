import Amlguard.Library.Program

/-!
# Programs that keep to a scope

A scope says what a program may call and mark, and after which replies it goes on. Which replies these
are may depend on what the program does with them, but on nothing that follows the program.

A world need not see all marks. Two programs that differ only in marks that are not seen are the same
without them, and a world that sees the rest cannot tell the two apart.
-/

namespace Awaited

/-- What may be called and marked, and with which replies a program that awaits a call goes on. -/
structure Scope (S : Signature) where
  calls : S.Call → Prop
  marks : S.Mark → Prop
  Hears : (c : S.Call) → (α : Type) → (Except S.Fault (S.Reply c) → Prog S α) →
    (Except S.Fault (S.Reply c) → Prop) → Prop
  hears_bind : ∀ (c : S.Call) (α β : Type) (k : Except S.Fault (S.Reply c) → Prog S α)
    (R : Except S.Fault (S.Reply c) → Prop) (f : α → Prog S β),
    Hears c α k R → Hears c β (fun r => (k r).bind f) R
  hears_attempt : ∀ (c : S.Call) (α : Type) (k : Except S.Fault (S.Reply c) → Prog S α)
    (R : Except S.Fault (S.Reply c) → Prop),
    Hears c α k R → Hears c (Except S.Fault α) (fun r => (k r).attempt) R

namespace Scope

variable {S : Signature} {α β : Type}

/-- The program keeps to the scope and ends as the postcondition says. -/
inductive Within (C : Scope S) (post : Except S.Fault α → Prop) : Prog S α → Prop where
  | done (r : Except S.Fault α) (h : post r) : Within C post (.done r)
  | mark (n : S.Mark) (p : Prog S α) (hn : C.marks n) (hp : Within C post p) : Within C post (.mark n p)
  | await (c : S.Call) (k : Except S.Fault (S.Reply c) → Prog S α)
      (R : Except S.Fault (S.Reply c) → Prop) (hc : C.calls c) (hk : C.Hears c α k R)
      (h : ∀ r, R r → Within C post (k r)) : Within C post (.await c k)

variable {C : Scope S}

/-- A weaker postcondition is easier to reach. -/
theorem Within.mono {post post' : Except S.Fault α → Prop} {p : Prog S α} (hp : C.Within post p)
    (h : ∀ r, post r → post' r) : C.Within post' p := by
  induction hp with
  | done r hr => exact .done r (h r hr)
  | mark n p hn _ ih => exact .mark n p hn ih
  | await c k R hc hk _ ih => exact .await c k R hc hk ih

/-- A sequence keeps to the scope when both of its parts do. -/
theorem Within.bind {mid : Except S.Fault α → Prop} {post : Except S.Fault β → Prop} {p : Prog S α}
    {f : α → Prog S β} (hp : C.Within mid p) (hok : ∀ a, mid (.ok a) → C.Within post (f a))
    (herror : ∀ e, mid (.error e) → post (.error e)) : C.Within post (p >>= f) := by
  change C.Within post (p.bind f)
  induction hp with
  | done r hr =>
    cases r with
    | ok a => exact hok a hr
    | error e => exact .done _ (herror e hr)
  | mark n p hn _ ih => exact .mark n _ hn ih
  | await c k R hc hk _ ih => exact .await c _ R hc (C.hears_bind c α β k R f hk) ih

/-- A call whose replies are heard, and what follows it. -/
theorem within_call_bind {post : Except S.Fault β → Prop} {c : S.Call} {f : S.Reply c → Prog S β}
    (R : Except S.Fault (S.Reply c) → Prop) (hc : C.calls c)
    (hk : C.Hears c β (fun r => (Prog.done r).bind f) R) (hok : ∀ a, R (.ok a) → C.Within post (f a))
    (herror : ∀ e, R (.error e) → post (.error e)) : C.Within post (Prog.call c >>= f) := by
  apply Within.await c _ R hc hk
  intro r hr
  cases r with
  | ok a => exact hok a hr
  | error e => exact .done _ (herror e hr)

/-- A mark of the scope and what follows it. -/
theorem within_note_bind {post : Except S.Fault β → Prop} {n : S.Mark} {f : Unit → Prog S β}
    (hn : C.marks n) (hf : C.Within post (f ())) : C.Within post (Prog.note n >>= f) :=
  .mark n _ hn hf

/-- An attempted program hands its exception on as a value. -/
theorem Within.attempt {post : Except S.Fault (Except S.Fault α) → Prop} {p : Prog S α}
    (hp : C.Within (fun r => post (.ok r)) p) : C.Within post p.attempt := by
  induction hp with
  | done r hr => exact .done _ hr
  | mark n p hn _ ih => exact .mark n _ hn ih
  | await c k R hc hk _ ih => exact .await c _ R hc (C.hears_attempt c α k R hk) ih

/-- A suppressed block ends in every case. -/
theorem Within.suppress {mid : Except S.Fault Unit → Prop} {post : Except S.Fault Unit → Prop}
    {p : Prog S Unit} (hp : C.Within mid p) (h : post (.ok ())) : C.Within post (Prog.suppress p) := by
  have hattempt : C.Within (fun r => ∃ r', r = .ok r') p.attempt :=
    Within.attempt (hp.mono fun r _ => ⟨r, rfl⟩)
  apply hattempt.bind
  · intro _ _
    exact .done _ h
  · rintro e ⟨r, hr⟩
    cases hr

/-- A cleanup runs after every end, and then the end stands. -/
theorem Within.finally' {mid : Except S.Fault Unit → Prop} {post : Except S.Fault α → Prop}
    {p : Prog S α} {cleanup : Prog S Unit} (hp : C.Within post p) (hcleanup : C.Within mid cleanup)
    (herror : ∀ e, post (.error e)) : C.Within post (Prog.finally' p cleanup) := by
  have hattempt : C.Within (fun r => ∀ r', r = .ok r' → post r') p.attempt := by
    apply Within.attempt
    apply hp.mono
    rintro r hr _ ⟨⟩
    exact hr
  apply hattempt.bind
  · intro r hr
    apply hcleanup.bind
    · intro _ _
      exact .done r (hr r rfl)
    · intro e _
      exact herror e
  · intro e _
    exact herror e

/-- Settling a program writes marks of the scope, and what it rests on keeps to the scope. -/
theorem Within.settle {W : Type} {I : W → Prop} {record : S.Mark → W → W}
    (hrecord : ∀ n w, C.marks n → I w → I (record n w)) {post : Except S.Fault α → Prop} {p : Prog S α}
    {w : W} (hp : C.Within post p) (hw : I w) :
    C.Within post (p.settle record w).1 ∧ I (p.settle record w).2 := by
  induction hp generalizing w with
  | done r hr => exact ⟨.done r hr, hw⟩
  | mark n p hn _ ih => exact ih (hrecord n w hn hw)
  | await c k R hc hk h _ => exact ⟨.await c k R hc hk h, hw⟩

end Scope

namespace Prog

variable {S : Signature} {α β : Type} (seen : S.Mark → Bool)

/-- The program without the marks that are not seen. -/
def sight : Prog S α → Prog S α
  | .done r => .done r
  | .mark n p => if seen n then .mark n p.sight else p.sight
  | .await c k => .await c fun r => (k r).sight

variable {seen}

/-- What is seen of a sequence. -/
theorem sight_bind (p : Prog S α) (f : α → Prog S β) :
    (p >>= f).sight seen = p.sight seen >>= fun a => (f a).sight seen := by
  change (p.bind f).sight seen = (p.sight seen).bind fun a => (f a).sight seen
  induction p with
  | done r => cases r <;> rfl
  | mark n p ih =>
    simp only [bind, sight, ih]
    split
    · rfl
    · rfl
  | await c k ih => simp only [bind, sight, ih]

/-- What is seen of an attempt. -/
theorem sight_attempt (p : Prog S α) : p.attempt.sight seen = (p.sight seen).attempt := by
  induction p with
  | done r => rfl
  | mark n p ih =>
    simp only [attempt, sight, ih]
    split
    · rfl
    · rfl
  | await c k ih => simp only [attempt, sight, ih]

/-- Sequences of parts of which the same is seen. -/
theorem sight_bind_congr {p q : Prog S α} {f g : α → Prog S β} (hp : p.sight seen = q.sight seen)
    (hf : ∀ a, (f a).sight seen = (g a).sight seen) :
    (p >>= f).sight seen = (q >>= g).sight seen := by
  rw [sight_bind, sight_bind, hp]
  congr 1
  funext a
  exact hf a

/-- Nothing is seen of a mark that is not. -/
theorem sight_note {n : S.Mark} (h : seen n = false) : (note n).sight seen = pure () := by
  simp only [note, sight, h, Bool.false_eq_true, if_false]
  rfl

/-- Suppressed blocks of which the same is seen. -/
theorem sight_suppress_congr {p q : Prog S Unit} (h : p.sight seen = q.sight seen) :
    (suppress p).sight seen = (suppress q).sight seen := by
  apply sight_bind_congr
  · rw [sight_attempt, sight_attempt, h]
  · exact fun _ => rfl

/-- Blocks with cleanups of which the same is seen. -/
theorem sight_finally'_congr {p q : Prog S α} {cleanup cleanup' : Prog S Unit}
    (h : p.sight seen = q.sight seen) (hcleanup : cleanup.sight seen = cleanup'.sight seen) :
    (finally' p cleanup).sight seen = (finally' q cleanup').sight seen := by
  apply sight_bind_congr
  · rw [sight_attempt, sight_attempt, h]
  · exact fun _ => sight_bind_congr hcleanup fun _ => rfl

/-- A program that rests is at its end when it is seen there. -/
theorem Rests.of_sight_done {p : Prog S α} {r : Except S.Fault α} (hp : p.Rests)
    (h : p.sight seen = .done r) : p = .done r := by
  cases p with
  | done r' => exact h
  | mark n p => exact hp.elim
  | await c k => cases h

/-- A program that rests awaits the call that it is seen to await. -/
theorem Rests.of_sight_await {p : Prog S α} {c : S.Call} {k : Except S.Fault (S.Reply c) → Prog S α}
    (hp : p.Rests) (h : p.sight seen = .await c k) :
    ∃ k', p = .await c k' ∧ ∀ r, (k' r).sight seen = k r := by
  cases p with
  | done r => cases h
  | mark n p => exact hp.elim
  | await c' k' =>
    rw [sight] at h
    injection h with hc hk
    subst hc
    exact ⟨k', rfl, congrFun (eq_of_heq hk)⟩

/-- Settling what is seen of a program, in a world that looks the same, leads to what is seen of what
it rests on, and again to a world that looks the same. -/
theorem settle_sight {W : Type} {record : S.Mark → W → W} {Same : W → W → Prop}
    (hseen : ∀ n w w', Same w w' → Same (record n w) (record n w'))
    (hunseen : ∀ n w w', seen n = false → Same w w' → Same (record n w) w')
    (p : Prog S α) (w w' : W) (h : Same w w') :
    ((p.sight seen).settle record w').1 = (p.settle record w).1.sight seen ∧
      Same (p.settle record w).2 ((p.sight seen).settle record w').2 := by
  induction p generalizing w w' with
  | done r => exact ⟨rfl, h⟩
  | mark n p ih =>
    rw [sight]
    split
    · exact ih (record n w) (record n w') (hseen n w w' h)
    · rename_i hn
      exact ih (record n w) w' (hunseen n w w' (Bool.eq_false_iff.mpr hn) h)
  | await c k => exact ⟨rfl, h⟩

end Prog

end Awaited
