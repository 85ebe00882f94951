import Amlguard.Library.Program
import Mathlib.Logic.Relation

/-!
# Pools of concurrent programs

A pool holds one shared world and the tasks that were started on it. A move starts a task
or lets one task perform the call it awaits and run to its next one; between two calls of
a task any other task may move. Every schedule of asynchronous requests on one shared
store is a sequence of such moves.

`Discipline.safe` carries an invariant to every reachable pool of interleaved tasks, each of which
relies on what the others guarantee.
-/

namespace Awaited

/-- A machine together with the programs of the operations that may be started on it.

The program of an operation may name the index of its task; `enroll` writes the history
entry of a start. -/
structure System (S : Signature) (W O Op : Type) extends Machine S W O where
  program : ℕ → Op → Prog S Unit
  enroll : ℕ → Op → W → W

/-- One started operation and what is left of its program. -/
structure Task (S : Signature) (Op : Type) where
  op : Op
  prog : Prog S Unit

/-- A task is live while it awaits a call. -/
def Task.Live {S : Signature} {Op : Type} (t : Task S Op) : Prop :=
  match t.prog with
  | .await _ _ => True
  | _ => False

/-- The shared world and the tasks in the order in which they were started. -/
structure Pool (S : Signature) (W Op : Type) where
  world : W
  tasks : List (Task S Op)

/-- Start an operation, or let one task perform its awaited call with a chosen outcome. -/
inductive Move (Op O : Type) where
  | start (op : Op)
  | advance (task : ℕ) (outcome : O)

variable {S : Signature} {W O Op : Type}

/-- The call that a task of the pool awaits. -/
def Pool.awaits (p : Pool S W Op) (i : ℕ) : Option S.Call :=
  match p.tasks[i]? with
  | some ⟨_, .await c _⟩ => some c
  | _ => none

/-- The operations that have been started. -/
def Pool.ops (p : Pool S W Op) : List Op := p.tasks.map (·.op)

/-- A task that awaits a call is started and has got to it. -/
theorem Pool.exists_of_awaits {p : Pool S W Op} {i : ℕ} {c : S.Call} (h : p.awaits i = some c) :
    ∃ op k, p.tasks[i]? = some ⟨op, .await c k⟩ := by
  unfold Pool.awaits at h
  split at h
  · rename_i op call k htask
    cases h
    exact ⟨op, k, htask⟩
  · cases h

namespace System

variable (sys : System S W O Op)

/-- Run a program up to its next awaited call, writing its marks. -/
def rest (p : Prog S Unit) (w : W) : Prog S Unit × W := p.settle sys.record w

/-- The effect of one move, when the pool admits it. -/
def move (p : Pool S W Op) : Move Op O → Option (Pool S W Op)
  | .start op =>
    let entry := sys.enroll p.tasks.length op p.world
    let q := sys.rest (sys.program p.tasks.length op) entry
    some ⟨q.2, p.tasks ++ [⟨op, q.1⟩]⟩
  | .advance i o =>
    match p.tasks[i]? with
    | some ⟨op, .await c k⟩ =>
      let r := sys.perform p.world o c
      let q := sys.rest (k r.1) r.2
      some ⟨q.2, p.tasks.set i ⟨op, q.1⟩⟩
    | _ => none

/-- The effect of a list of moves, when each is admitted in turn. -/
def run (p : Pool S W Op) : List (Move Op O) → Option (Pool S W Op)
  | [] => some p
  | m :: rest => (sys.move p m).bind fun q => run q rest

/-- One move that the run's assumptions allow. -/
def Step (allowed : Pool S W Op → Move Op O → Prop) (p q : Pool S W Op) : Prop :=
  ∃ m, allowed p m ∧ sys.move p m = some q

/-- The pools reachable by allowed moves. -/
def Reaches (allowed : Pool S W Op → Move Op O → Prop) : Pool S W Op → Pool S W Op → Prop :=
  Relation.ReflTransGen (sys.Step allowed)

/-- Every move of a list is allowed in the pool in which it is made. -/
def Admits (allowed : Pool S W Op → Move Op O → Prop) (p : Pool S W Op) :
    List (Move Op O) → Prop
  | [] => True
  | m :: rest => allowed p m ∧ ∀ q ∈ sys.move p m, Admits allowed q rest

/-- A pool in which nothing has been started. -/
def fresh (w : W) : Pool S W Op := ⟨w, []⟩

variable {sys}

/-- An admitted list of moves reaches the pool it computes. -/
theorem reaches_of_run {allowed : Pool S W Op → Move Op O → Prop} (moves : List (Move Op O))
    {p q : Pool S W Op} (hrun : sys.run p moves = some q) (hall : sys.Admits allowed p moves) :
    sys.Reaches allowed p q := by
  induction moves generalizing p with
  | nil => cases hrun; exact .refl
  | cons m rest ih =>
    obtain ⟨mid, hmove, hrest⟩ := Option.bind_eq_some_iff.mp hrun
    exact .head ⟨m, hall.1, hmove⟩ (ih hrest (hall.2 mid hmove))

/-- A list of moves whose result passes a test reaches a pool that passes it. -/
theorem exists_run (sys : System S W O Op) (p : Pool S W Op) (moves : List (Move Op O))
    (test : Pool S W Op → Bool)
    (h : (sys.run p moves).any test = true) : ∃ q, sys.run p moves = some q ∧ test q = true := by
  cases hrun : sys.run p moves with
  | none => simp [hrun] at h
  | some q => exact ⟨q, rfl, by simpa [hrun] using h⟩

/-- The effect of a list of moves, when each passes a check and is admitted in turn. -/
def runChecked (sys : System S W O Op) (check : Pool S W Op → Move Op O → Bool)
    (p : Pool S W Op) : List (Move Op O) → Option (Pool S W Op)
  | [] => some p
  | m :: rest => if check p m then (sys.move p m).bind fun q => sys.runChecked check q rest else none

/-- A list of checked moves whose result passes a test reaches a pool that passes it. -/
theorem exists_reaches (sys : System S W O Op) {allowed : Pool S W Op → Move Op O → Prop}
    (check : Pool S W Op → Move Op O → Bool) (hcheck : ∀ p m, check p m = true → allowed p m)
    (p : Pool S W Op) (moves : List (Move Op O)) (test : Pool S W Op → Bool)
    (h : (sys.runChecked check p moves).any test = true) :
    ∃ q, sys.Reaches allowed p q ∧ test q = true := by
  induction moves generalizing p with
  | nil => exact ⟨p, .refl, by simpa [runChecked] using h⟩
  | cons m rest ih =>
    unfold runChecked at h
    split at h
    · rename_i hm
      cases hmove : sys.move p m with
      | none => simp [hmove] at h
      | some q =>
        rw [hmove] at h
        obtain ⟨q', hreach, htest⟩ := ih q h
        exact ⟨q', .head ⟨m, hcheck p m hm, hmove⟩ hreach, htest⟩
    · simp at h

/-- A start appends the settled program of its operation. -/
theorem move_start (p : Pool S W Op) (op : Op) :
    sys.move p (.start op) =
      some ⟨(sys.rest (sys.program p.tasks.length op) (sys.enroll p.tasks.length op p.world)).2,
        p.tasks ++ [⟨op, (sys.rest (sys.program p.tasks.length op)
          (sys.enroll p.tasks.length op p.world)).1⟩]⟩ := rfl

/-- An advance performs the awaited call of a live task and settles the continuation. -/
theorem move_advance {p q : Pool S W Op} {i : ℕ} {o : O} (h : sys.move p (.advance i o) = some q) :
    ∃ op c k, p.tasks[i]? = some ⟨op, .await c k⟩ ∧
      q = ⟨(sys.rest (k (sys.perform p.world o c).1) (sys.perform p.world o c).2).2,
        p.tasks.set i ⟨op, (sys.rest (k (sys.perform p.world o c).1)
          (sys.perform p.world o c).2).1⟩⟩ := by
  cases htask : p.tasks[i]? with
  | none => simp [move, htask] at h
  | some t =>
    obtain ⟨op, prog⟩ := t
    cases prog with
    | done r => simp [move, htask] at h
    | mark m rest => simp [move, htask] at h
    | await c k =>
      refine ⟨op, c, k, rfl, ?_⟩
      simpa [move, htask] using h.symm

/-- A move keeps the operations that have been started, and may start one more. -/
theorem move_ops {p q : Pool S W Op} {m : Move Op O} (h : sys.move p m = some q) :
    q.ops = p.ops ∨ ∃ op, m = .start op ∧ q.ops = p.ops ++ [op] := by
  cases m with
  | start op =>
    rw [move_start] at h
    cases h
    exact .inr ⟨op, rfl, by simp [Pool.ops]⟩
  | advance i o =>
    obtain ⟨op, c, k, htask, rfl⟩ := move_advance h
    left
    obtain ⟨hlt, hget⟩ := List.getElem?_eq_some_iff.mp htask
    apply List.ext_getElem?
    intro j
    by_cases hj : i = j
    · subst hj
      simp [Pool.ops, hlt, hget]
    · simp [Pool.ops, List.getElem?_set_ne hj]

/-- An invariant of the start that every allowed step keeps holds in every reachable pool. -/
theorem Reaches.invariant {allowed : Pool S W Op → Move Op O → Prop} {I : Pool S W Op → Prop}
    {p q : Pool S W Op} (hreach : sys.Reaches allowed p q) (hinit : I p)
    (hstep : ∀ a b, I a → sys.Step allowed a b → I b) : I q := by
  induction hreach with
  | refl => exact hinit
  | tail _ hmove ih => exact hstep _ _ ih hmove

/-- What every allowed step keeps may be assumed of the pools in which moves are made. -/
theorem Reaches.strengthen {allowed : Pool S W Op → Move Op O → Prop} {K : Pool S W Op → Prop}
    {p q : Pool S W Op} (hreach : sys.Reaches allowed p q) (hinit : K p)
    (hstep : ∀ a b, K a → sys.Step allowed a b → K b) :
    sys.Reaches (fun a m => allowed a m ∧ K a) p q := by
  induction hreach with
  | refl => exact .refl
  | tail hprior hmove ih =>
    obtain ⟨m, hallowed, hm⟩ := hmove
    exact .tail ih ⟨m, ⟨hallowed, Reaches.invariant hprior hinit hstep⟩, hm⟩

/-- What every mark keeps is kept by the marks up to the next call. -/
theorem rest_keeps {I : W → Prop} (hrecord : ∀ n w, I w → I (sys.record n w)) (prog : Prog S Unit)
    (w : W) (h : I w) : I (sys.rest prog w).2 := by
  unfold rest
  induction prog generalizing w with
  | done r => exact h
  | await c k => exact h
  | mark n rest ih => exact ih _ (hrecord n w h)

/-- What a start writes about its operation, and nothing erases, is kept for all tasks. -/
theorem ops_step {allowed : Pool S W Op → Move Op O → Prop} {R : Op → W → Prop}
    (hstart : ∀ i op w, R op (sys.enroll i op w))
    (henroll : ∀ i op op' w, R op w → R op (sys.enroll i op' w))
    (hperform : ∀ op w o c, R op w → R op (sys.perform w o c).2)
    (hrecord : ∀ op n w, R op w → R op (sys.record n w)) {p q : Pool S W Op}
    (hp : ∀ t ∈ p.tasks, R t.op p.world) (hstep : sys.Step allowed p q) :
    ∀ t ∈ q.tasks, R t.op q.world := by
  obtain ⟨m, -, hmove⟩ := hstep
  cases m with
  | start op =>
    rw [move_start] at hmove
    cases hmove
    intro t ht
    rcases List.mem_append.mp ht with hold | hnew
    · exact rest_keeps (hrecord t.op) _ _ (henroll _ _ _ _ (hp t hold))
    · obtain rfl := List.mem_singleton.mp hnew
      exact rest_keeps (hrecord op) _ _ (hstart _ _ _)
  | advance i o =>
    obtain ⟨op, c, k, htask, rfl⟩ := move_advance hmove
    intro t ht
    have hop : R t.op p.world := by
      rcases List.mem_or_eq_of_mem_set ht with hold | rfl
      · exact hp t hold
      · exact hp ⟨op, .await c k⟩ (List.mem_of_getElem? htask)
    exact rest_keeps (hrecord t.op) _ _ (hperform _ _ _ _ hop)

/-- A finer assumption on the moves reaches fewer pools. -/
theorem Reaches.mono {allowed allowed' : Pool S W Op → Move Op O → Prop}
    (h : ∀ p m, allowed p m → allowed' p m) {p q : Pool S W Op}
    (hreach : sys.Reaches allowed p q) : sys.Reaches allowed' p q :=
  Relation.ReflTransGen.mono (fun _ _ ⟨m, hm, hq⟩ => ⟨m, h _ m hm, hq⟩) _ _ hreach

end System

/-- Every allowed outcome of an awaited call is one that the rules assume. -/
def Assumes (ok : ℕ → Op → W → O → S.Call → Prop)
    (allowed : Pool S W Op → Move Op O → Prop) : Prop :=
  ∀ (p : Pool S W Op) (i : ℕ) (o : O) (op : Op) (c : S.Call)
    (k : Except S.Fault (S.Reply c) → Prog S Unit),
    p.tasks[i]? = some ⟨op, .await c k⟩ → allowed p (.advance i o) → ok i op p.world o c

/-- Starts are free, and every performed call meets a condition on its outcome. -/
def Outcomes (ok : W → O → S.Call → Prop) (p : Pool S W Op) : Move Op O → Prop
  | .start _ => True
  | .advance i o => ∀ c ∈ p.awaits i, ok p.world o c

instance (ok : W → O → S.Call → Prop) [∀ w o c, Decidable (ok w o c)] (p : Pool S W Op) :
    (m : Move Op O) → Decidable (Outcomes ok p m)
  | .start _ => isTrue trivial
  | .advance i _ => inferInstanceAs (Decidable (∀ c ∈ p.awaits i, _))

/-- Whether a list of moves meets a condition on its outcomes can be computed. -/
instance decidableAdmits (sys : System S W O Op) (ok : W → O → S.Call → Prop)
    [∀ w o c, Decidable (ok w o c)] :
    (p : Pool S W Op) → (moves : List (Move Op O)) → Decidable (sys.Admits (Outcomes ok) p moves)
  | _, [] => isTrue trivial
  | p, m :: rest =>
    have : ∀ q, Decidable (sys.Admits (Outcomes ok) q rest) := fun q =>
      decidableAdmits sys ok q rest
    inferInstanceAs (Decidable (_ ∧ ∀ q ∈ sys.move p m, _))

/-- The condition on outcomes is what the rules may assume. -/
theorem assumes_outcomes (ok : W → O → S.Call → Prop) :
    Assumes (fun (_ : ℕ) (_ : Op) => ok) (Outcomes ok) := by
  intro p i o op c k htask hallowed
  exact hallowed c (by simp [Pool.awaits, htask])

/-- The rules of every task of a system, compatible with each other.

A step that keeps one task's guarantee may be relied on by every other task. -/
structure Discipline (S : Signature) (W O Op : Type) where
  inv : W → Prop
  rely : ℕ → Op → W → W → Prop
  guar : ℕ → Op → W → W → Prop
  pre : W → S.Call → Prop
  ok : ℕ → Op → W → O → S.Call → Prop
  rely_refl : ∀ i op w, rely i op w w
  rely_trans : ∀ i op w₀ w₁ w₂, rely i op w₀ w₁ → rely i op w₁ w₂ → rely i op w₀ w₂
  compatible : ∀ i j a b w w', i ≠ j → inv w → inv w' → guar i a w w' → rely j b w w'

namespace Discipline

variable (D : Discipline S W O Op) {sys : System S W O Op}

/-- The rules under which the task of index `i` is verified. -/
def rules (i : ℕ) (op : Op) : Rules S W O := 
  ⟨D.inv, D.rely i op, D.guar i op, D.pre, D.ok i op⟩

/-- The task ends in a finished step. -/
def ends (i : ℕ) (op : Op) : Except S.Fault Unit → W → W → Prop :=
  fun _ w₀ w => D.guar i op w₀ w ∧ D.inv w

/-- A task is verified from some earlier world on which it relies. -/
def Secure (sys : System S W O Op) (w : W) (i : ℕ) (t : Task S Op) : Prop :=
  t.Live → ∃ w₀ w₁, t.prog.wp sys.toMachine (D.rules i t.op) (D.ends i t.op) w₀ w₁ ∧
    D.rely i t.op w₁ w

/-- The invariant holds and every task is verified. -/
def SafePool (sys : System S W O Op) (p : Pool S W Op) : Prop :=
  D.inv p.world ∧ ∀ i t, p.tasks[i]? = some t → D.Secure sys p.world i t

/-- Every operation that may be started is verified from its start. -/
def Verified (sys : System S W O Op) (allowed : Pool S W Op → Move Op O → Prop) : Prop :=
  ∀ (p : Pool S W Op) (op : Op), allowed p (.start op) → D.inv p.world →
    (sys.program p.tasks.length op).wp sys.toMachine (D.rules p.tasks.length op)
      (D.ends p.tasks.length op) p.world (sys.enroll p.tasks.length op p.world)

variable {D}

/-- A finished step of a verified program keeps the guarantee and the invariant. -/
theorem wp_finished {i : ℕ} {op : Op} {p : Prog S Unit} {w₀ w : W}
    (hp : p.wp sys.toMachine (D.rules i op) (D.ends i op) w₀ w) (hrests : p.Rests) :
    D.guar i op w₀ w ∧ D.inv w := by
  cases p with
  | done r => exact hp
  | mark m rest => exact hrests.elim
  | await c k => exact hp.1

/-- Settling a verified program finishes its step and leaves the rest verified. -/
theorem settle_secure {i : ℕ} {op : Op} {p : Prog S Unit} {w₀ w : W}
    (hp : p.wp sys.toMachine (D.rules i op) (D.ends i op) w₀ w) :
    (D.guar i op w₀ (sys.rest p w).2 ∧ D.inv (sys.rest p w).2) ∧
      D.Secure sys (sys.rest p w).2 i ⟨op, (sys.rest p w).1⟩ := by
  have hsettled := Prog.wp_settle p (D.ends i op) w₀ w hp
  refine ⟨wp_finished hsettled (Prog.settle_rests sys.record p w), fun _ => ?_⟩
  exact ⟨w₀, (sys.rest p w).2, hsettled, D.rely_refl i op _⟩

/-- Interference that a task relies on keeps it verified. -/
theorem Secure.mono {w w' : W} {i : ℕ} {t : Task S Op} (h : D.Secure sys w i t)
    (hrely : D.rely i t.op w w') : D.Secure sys w' i t := by
  intro hlive
  obtain ⟨w₀, w₁, hwp, hw⟩ := h hlive
  exact ⟨w₀, w₁, hwp, D.rely_trans i t.op _ _ _ hw hrely⟩

/-- What an allowed move of a safe pool guarantees, and to which task it belongs. -/
theorem step_safe {allowed : Pool S W Op → Move Op O → Prop} (hver : D.Verified sys allowed)
    (hok : Assumes D.ok allowed) {p q : Pool S W Op} (hp : D.SafePool sys p)
    (hstep : sys.Step allowed p q) :
    (∃ i op, D.guar i op p.world q.world) ∧ D.SafePool sys q := by
  obtain ⟨m, hallowed, hmove⟩ := hstep
  cases m with
  | start op =>
    rw [System.move_start] at hmove
    cases hmove
    obtain ⟨⟨hguar, hinv⟩, hsecure⟩ := settle_secure (hver p op hallowed hp.1)
    refine ⟨⟨_, _, hguar⟩, hinv, fun j t hj => ?_⟩
    rcases Nat.lt_trichotomy j p.tasks.length with hlt | heq | hgt
    · rw [List.getElem?_append_left hlt] at hj
      exact (hp.2 j t hj).mono
        (D.compatible _ j _ t.op _ _ (by omega) hp.1 hinv hguar)
    · subst heq
      rw [List.getElem?_concat_length] at hj
      cases hj
      exact hsecure
    · rw [List.getElem?_eq_none (by simp; omega)] at hj
      cases hj
  | advance i o =>
    obtain ⟨op, c, k, htask, rfl⟩ := System.move_advance hmove
    obtain ⟨w₀, w₁, hwp, hrely⟩ := hp.2 i _ htask trivial
    have hnext := (hwp.2 p.world hrely hp.1).2 o (hok p i o op c k htask hallowed)
    obtain ⟨⟨hguar, hinv⟩, hsecure⟩ := settle_secure hnext
    refine ⟨⟨i, op, hguar⟩, hinv, fun j t hj => ?_⟩
    by_cases hij : i = j
    · subst hij
      have hlt : i < p.tasks.length := (List.getElem?_eq_some_iff.mp htask).1
      rw [List.getElem?_set_self hlt] at hj
      cases hj
      exact hsecure
    · rw [List.getElem?_set_ne hij] at hj
      exact (hp.2 j t hj).mono (D.compatible i j op t.op _ _ hij hp.1 hinv hguar)

/-- A call that a task of a safe pool awaits meets its precondition. -/
theorem SafePool.pre {p : Pool S W Op} (hp : D.SafePool sys p) {i : ℕ} {op : Op} {c : S.Call}
    {k : Except S.Fault (S.Reply c) → Prog S Unit} (htask : p.tasks[i]? = some ⟨op, .await c k⟩) :
    D.pre p.world c := by
  obtain ⟨w₀, w₁, hwp, hrely⟩ := hp.2 i _ htask trivial
  exact (hwp.2 p.world hrely hp.1).1

/-- A pool with nothing started is safe when its world meets the invariant. -/
theorem safe_fresh {w : W} (h : D.inv w) : D.SafePool sys (System.fresh w) :=
  ⟨h, fun _ _ hj => by simp [System.fresh] at hj⟩

/-- Every reachable pool of verified operations is safe. -/
theorem safe {allowed : Pool S W Op → Move Op O → Prop} (hver : D.Verified sys allowed)
    (hok : Assumes D.ok allowed) {w : W} (hinit : D.inv w) {p : Pool S W Op}
    (hreach : sys.Reaches allowed (System.fresh w) p) : D.SafePool sys p :=
  System.Reaches.invariant (I := D.SafePool sys) hreach (safe_fresh hinit)
    fun _ _ ha hstep => (step_safe hver hok ha hstep).2

end Discipline

end Awaited
