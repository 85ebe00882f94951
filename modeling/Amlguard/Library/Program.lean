import Mathlib.Order.Basic

/-!
# Programs that await calls one at a time

An asynchronous function is a tree: it has finished with a value or an exception, or it
awaits one call and continues with the reply. The reply may itself be an exception, so
`attempt` and sequencing model `try`, `except` and `finally` exactly. A mark is a write to
the world that awaits nothing, such as a history entry; no program reads it back.

`wp` folds a tree into a weakest precondition over pairs of worlds: the world in which the
current atomic step began and the world reached so far. The equations at the end are all
that a proof about a concrete program needs.
-/

namespace Awaited

/-- The calls a program may await, their replies, its exceptions and its history marks. -/
structure Signature where
  Call : Type
  Reply : Call → Type
  Fault : Type
  Mark : Type

/-- A program over a signature that produces a value or an exception. -/
inductive Prog (S : Signature) (α : Type) : Type where
  | done (result : Except S.Fault α)
  | mark (note : S.Mark) (rest : Prog S α)
  | await (call : S.Call) (next : Except S.Fault (S.Reply call) → Prog S α)

namespace Prog

variable {S : Signature} {α β γ : Type}

/-- Continue with the value, or end with the exception. -/
def bind : Prog S α → (α → Prog S β) → Prog S β
  | .done (.ok a), f => f a
  | .done (.error e), _ => .done (.error e)
  | .mark m p, f => .mark m (p.bind f)
  | .await c k, f => .await c fun r => (k r).bind f

/-- Run a program and hand its exception on as a value. -/
def attempt : Prog S α → Prog S (Except S.Fault α)
  | .done r => .done (.ok r)
  | .mark m p => .mark m p.attempt
  | .await c k => .await c fun r => (k r).attempt

instance : Monad (Prog S) where
  pure a := .done (.ok a)
  bind := bind

/-- End with a stored result: its value, or its exception again. -/
def settleResult (r : Except S.Fault α) : Prog S α := .done r

/-- Await one call and return its reply. -/
def call (c : S.Call) : Prog S (S.Reply c) := .await c .done

/-- Write one history mark. -/
def note (m : S.Mark) : Prog S Unit := .mark m (pure ())

/-- `with suppress(Exception)`: an exception ends the block and nothing else. -/
def suppress (p : Prog S Unit) : Prog S Unit := p.attempt >>= fun _ => pure ()

/-- `try … except Exception`: an exception is answered by the handler. -/
def rescue (p : Prog S α) (handler : S.Fault → Prog S α) : Prog S α :=
  p.attempt >>= fun
    | .ok a => pure a
    | .error e => handler e

/-- `try … finally`: the cleanup runs on both ways out and the result stands. -/
def finally' (p : Prog S α) (cleanup : Prog S Unit) : Prog S α :=
  p.attempt >>= fun r => cleanup >>= fun _ => settleResult r

/-- Write the leading marks, stopping at the next awaited call or at the end. -/
def settle {W : Type} (record : S.Mark → W → W) : Prog S α → W → Prog S α × W
  | .mark m p, w => p.settle record (record m w)
  | p, w => (p, w)

/-- What a program rests on between two atomic steps: no mark is left to write. -/
def Rests : Prog S α → Prop
  | .mark _ _ => False
  | _ => True

/-- Settling leaves no leading mark. -/
theorem settle_rests {W : Type} (record : S.Mark → W → W) (p : Prog S α) (w : W) :
    (p.settle record w).1.Rests := by
  induction p generalizing w with
  | done r => trivial
  | mark m p ih => exact ih (record m w)
  | await c k => trivial

end Prog

/-- How calls act on a world under an outcome chosen from outside, and how marks do. -/
structure Machine (S : Signature) (W O : Type) where
  perform : W → O → (c : S.Call) → Except S.Fault (S.Reply c) × W
  record : S.Mark → W → W

/-- What a proof about one program maintains, relies on, guarantees and assumes.

`pre` must hold of every call at the moment in which it is performed. `ok` selects the outcomes
that a run admits: it is where a theorem's assumptions on failures and schedules enter. -/
structure Rules (S : Signature) (W O : Type) where
  inv : W → Prop
  rely : W → W → Prop
  guar : W → W → Prop
  pre : W → S.Call → Prop
  ok : W → O → S.Call → Prop

namespace Prog

variable {S : Signature} {W O : Type} {α β : Type}

/-- Weakest precondition of a program from the world `w`, its current step begun in `w₀`.

At each awaited call the finished step meets the guarantee, any interference allowed by
the rely may follow, and every admitted outcome of the call continues safely. -/
def wp (M : Machine S W O) (R : Rules S W O) :
    Prog S α → (Except S.Fault α → W → W → Prop) → W → W → Prop
  | .done r, post, w₀, w => post r w₀ w
  | .mark m p, post, w₀, w => p.wp M R post w₀ (M.record m w)
  | .await c k, post, w₀, w =>
    (R.guar w₀ w ∧ R.inv w) ∧ ∀ w₁, R.rely w w₁ → R.inv w₁ → R.pre w₁ c ∧ ∀ o, R.ok w₁ o c →
      (k (M.perform w₁ o c).1).wp M R post w₁ (M.perform w₁ o c).2

variable {M : Machine S W O} {R : Rules S W O}

/-- The postcondition of a sequence, seen from its first part. -/
def thenWp (M : Machine S W O) (R : Rules S W O) (f : α → Prog S β)
    (post : Except S.Fault β → W → W → Prop) : Except S.Fault α → W → W → Prop
  | .ok a, w₀, w => (f a).wp M R post w₀ w
  | .error e, w₀, w => post (.error e) w₀ w

@[simp] theorem thenWp_ok (f : α → Prog S β) (post : Except S.Fault β → W → W → Prop)
    (a : α) (w₀ w : W) : thenWp M R f post (.ok a) w₀ w = (f a).wp M R post w₀ w := rfl

/-- A mark only changes the history. -/
@[simp] theorem wp_note (m : S.Mark) (post : Except S.Fault Unit → W → W → Prop) (w₀ w : W) :
    (note m).wp M R post w₀ w = post (.ok ()) w₀ (M.record m w) := rfl

/-- Weakest preconditions compose along sequencing. -/
@[simp] theorem wp_bind (p : Prog S α) (f : α → Prog S β)
    (post : Except S.Fault β → W → W → Prop) (w₀ w : W) :
    (p >>= f).wp M R post w₀ w = p.wp M R (thenWp M R f post) w₀ w := by
  change (p.bind f).wp M R post w₀ w = _
  induction p generalizing w₀ w with
  | done r => cases r <;> rfl
  | mark m p ih => exact ih w₀ (M.record m w)
  | await c k ih =>
    simp only [bind, wp, ih]

/-- An attempted program hands its exception on as a value. -/
@[simp] theorem wp_attempt (p : Prog S α) (post : Except S.Fault (Except S.Fault α) → W → W → Prop)
    (w₀ w : W) :
    p.attempt.wp M R post w₀ w = p.wp M R (fun r => post (.ok r)) w₀ w := by
  induction p generalizing w₀ w with
  | done r => rfl
  | mark m p ih => exact ih w₀ (M.record m w)
  | await c k ih => simp only [attempt, wp, ih]

/-- The postcondition of a rescued block, seen from the block. -/
def rescueWp (M : Machine S W O) (R : Rules S W O) (handler : S.Fault → Prog S α)
    (post : Except S.Fault α → W → W → Prop) : Except S.Fault α → W → W → Prop
  | .ok a, w₀, w => post (.ok a) w₀ w
  | .error e, w₀, w => (handler e).wp M R post w₀ w

@[simp] theorem rescueWp_error (handler : S.Fault → Prog S α)
    (post : Except S.Fault α → W → W → Prop) (e : S.Fault) (w₀ w : W) :
    rescueWp M R handler post (.error e) w₀ w = (handler e).wp M R post w₀ w := rfl

/-- A rescued block ends with its value, or with what the handler does. -/
@[simp] theorem wp_rescue (p : Prog S α) (handler : S.Fault → Prog S α)
    (post : Except S.Fault α → W → W → Prop) (w₀ w : W) :
    (rescue p handler).wp M R post w₀ w = p.wp M R (rescueWp M R handler post) w₀ w := by
  rw [rescue, wp_bind, wp_attempt]
  congr 1
  funext r w₀ w
  cases r <;> rfl

/-- A cleanup runs after every end and then the end stands. -/
@[simp] theorem wp_finally' (p : Prog S α) (cleanup : Prog S Unit)
    (post : Except S.Fault α → W → W → Prop) (w₀ w : W) :
    (finally' p cleanup).wp M R post w₀ w =
      p.wp M R (fun r => cleanup.wp M R (thenWp M R (fun _ => settleResult r) post)) w₀ w := by
  rw [finally', wp_bind, wp_attempt]
  congr 1
  funext r w₀ w
  exact wp_bind cleanup (fun _ => settleResult r) post w₀ w

/-- Settled marks are already accounted for by the weakest precondition. -/
theorem wp_settle (p : Prog S α) (post : Except S.Fault α → W → W → Prop) (w₀ w : W)
    (hp : p.wp M R post w₀ w) :
    (p.settle M.record w).1.wp M R post w₀ (p.settle M.record w).2 := by
  induction p generalizing w with
  | done r => exact hp
  | mark m p ih => exact ih (M.record m w) hp
  | await c k => exact hp

end Prog

end Awaited
