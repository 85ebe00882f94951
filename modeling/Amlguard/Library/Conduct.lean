import Amlguard.Library.Pool
import Mathlib.Logic.Function.Basic

/-!
# Conduct of programs

A diagram says through which phases a task moves: where a mark leads, and where a call leads
with each of its replies. A program follows a diagram when every mark it writes and every
call it awaits, with whatever expected reply, moves along an edge. A program is walked through
once, and what it may do next is known from its phase alone.

In a pool every task is then in some phase, and a move of the pool is one edge of one task and
the marks that follow. An invariant of all phases and the world is therefore proved by cases on
the edges, whatever the interleaving: `Keeps.reaches` carries it to every reachable pool.
-/

namespace Awaited

/-- The edges between the phases of a task. -/
structure Diagram (S : Signature) (P : Type) where
  onMark : P → S.Mark → P → Prop
  onReply : P → (c : S.Call) → Except S.Fault (S.Reply c) → P → Prop
  expected : (c : S.Call) → Except S.Fault (S.Reply c) → Prop

namespace Prog

variable {S : Signature} {α β : Type}

/-- A program whose calls and marks all meet a condition. -/
def Only (calls : S.Call → Prop) (marks : S.Mark → Prop) : Prog S α → Prop
  | .done _ => True
  | .mark n p => marks n ∧ p.Only calls marks
  | .await c k => calls c ∧ ∀ r, (k r).Only calls marks

variable {calls : S.Call → Prop} {marks : S.Mark → Prop}

@[simp] theorem only_pure (a : α) : (pure a : Prog S α).Only calls marks := trivial

@[simp] theorem only_settleResult (r : Except S.Fault α) :
    (settleResult r : Prog S α).Only calls marks := trivial

@[simp] theorem only_note (n : S.Mark) : (note n).Only calls marks ↔ marks n :=
  ⟨fun h => h.1, fun h => ⟨h, trivial⟩⟩

theorem only_mark (n : S.Mark) (p : Prog S α) :
    (Prog.mark n p).Only calls marks ↔ marks n ∧ p.Only calls marks := Iff.rfl

theorem only_await (c : S.Call) (k : Except S.Fault (S.Reply c) → Prog S α) :
    (Prog.await c k).Only calls marks ↔ calls c ∧ ∀ r, (k r).Only calls marks := Iff.rfl

@[simp] theorem only_call (c : S.Call) : (call c).Only calls marks ↔ calls c :=
  ⟨fun h => h.1, fun h => ⟨h, fun _ => trivial⟩⟩

/-- A sequence keeps to a condition when both parts do. -/
theorem Only.bind {p : Prog S α} {f : α → Prog S β} (hp : p.Only calls marks)
    (hf : ∀ a, (f a).Only calls marks) : (p >>= f).Only calls marks := by
  change (p.bind f).Only calls marks
  induction p with
  | done r =>
    cases r with
    | ok a => exact hf a
    | error e => trivial
  | mark n p ih => exact ⟨hp.1, ih hp.2⟩
  | await c k ih => exact ⟨hp.1, fun r => ih r (hp.2 r)⟩

/-- A program that keeps to a condition keeps to a weaker one. -/
theorem Only.mono {calls' : S.Call → Prop} {marks' : S.Mark → Prop} {p : Prog S α}
    (hp : p.Only calls marks) (hcalls : ∀ c, calls c → calls' c)
    (hmarks : ∀ n, marks n → marks' n) : p.Only calls' marks' := by
  induction p with
  | done r => exact only_settleResult r
  | mark n p ih =>
    obtain ⟨hn, hp⟩ := (only_mark n p).mp hp
    exact (only_mark n p).mpr ⟨hmarks n hn, ih hp⟩
  | await c k ih =>
    obtain ⟨hc, hk⟩ := (only_await c k).mp hp
    exact (only_await c k).mpr ⟨hcalls c hc, fun r => ih r (hk r)⟩

end Prog

namespace Diagram

variable {S : Signature} {P : Type} (D : Diagram S P) {α β : Type}

/-- The program moves along the edges of the diagram and ends as the postcondition says. -/
def Follows : Prog S α → (Except S.Fault α → P → Prop) → P → Prop
  | .done r, post, m => post r m
  | .mark n p, post, m => ∃ m', D.onMark m n m' ∧ Follows p post m'
  | .await c k, post, m =>
    ∀ r, D.expected c r → ∃ m', D.onReply m c r m' ∧ Follows (k r) post m'

variable {D}

/-- The postcondition of a sequence, seen from its first part. -/
def thenFollows (D : Diagram S P) (f : α → Prog S β) (post : Except S.Fault β → P → Prop) :
    Except S.Fault α → P → Prop
  | .ok a, m => D.Follows (f a) post m
  | .error e, m => post (.error e) m

@[simp] theorem follows_pure (a : α) (post : Except S.Fault α → P → Prop) (m : P) :
    D.Follows (pure a) post m ↔ post (.ok a) m := Iff.rfl

@[simp] theorem follows_settleResult (r : Except S.Fault α)
    (post : Except S.Fault α → P → Prop) (m : P) :
    D.Follows (Prog.settleResult r) post m ↔ post r m := Iff.rfl

/-- A mark moves along one of its edges. -/
theorem follows_note (n : S.Mark) (post : Except S.Fault Unit → P → Prop) (m : P) :
    D.Follows (Prog.note n) post m ↔ ∃ m', D.onMark m n m' ∧ post (.ok ()) m' := Iff.rfl

/-- A call moves along an edge for each expected reply. -/
theorem follows_call (c : S.Call) (post : Except S.Fault (S.Reply c) → P → Prop)
    (m : P) :
    D.Follows (Prog.call c) post m ↔
      ∀ r, D.expected c r → ∃ m', D.onReply m c r m' ∧ post r m' := Iff.rfl

/-- Conduct composes along sequencing. -/
@[simp] theorem follows_bind (p : Prog S α) (f : α → Prog S β)
    (post : Except S.Fault β → P → Prop) (m : P) :
    D.Follows (p >>= f) post m ↔ D.Follows p (thenFollows D f post) m := by
  change D.Follows (p.bind f) post m ↔ _
  induction p generalizing m with
  | done r => cases r <;> rfl
  | mark n p ih => simp only [Prog.bind, Follows, ih]
  | await c k ih => simp only [Prog.bind, Follows, ih]

/-- An attempted program hands its exception on as a value. -/
@[simp] theorem follows_attempt (p : Prog S α)
    (post : Except S.Fault (Except S.Fault α) → P → Prop) (m : P) :
    D.Follows p.attempt post m ↔ D.Follows p (fun r => post (.ok r)) m := by
  induction p generalizing m with
  | done r => rfl
  | mark n p ih => simp only [Prog.attempt, Follows, ih]
  | await c k ih => simp only [Prog.attempt, Follows, ih]

/-- A suppressed block continues normally after every end. -/
@[simp] theorem follows_suppress (p : Prog S Unit) (post : Except S.Fault Unit → P → Prop)
    (m : P) :
    D.Follows (Prog.suppress p) post m ↔ D.Follows p (fun _ => post (.ok ())) m := by
  rw [Prog.suppress, follows_bind, follows_attempt]
  rfl

/-- A cleanup runs after every end and then the end stands. -/
@[simp] theorem follows_finally' (p : Prog S α) (cleanup : Prog S Unit)
    (post : Except S.Fault α → P → Prop) (m : P) :
    D.Follows (Prog.finally' p cleanup) post m ↔
      D.Follows p
        (fun r => D.Follows cleanup (thenFollows D (fun _ => Prog.settleResult r) post)) m := by
  rw [Prog.finally', follows_bind, follows_attempt]
  apply iff_of_eq
  congr 1
  funext r m
  exact propext (follows_bind cleanup (fun _ => Prog.settleResult r) post m)

/-- The postcondition of a rescued block, seen from the block. -/
def rescueFollows (D : Diagram S P) (handler : S.Fault → Prog S α)
    (post : Except S.Fault α → P → Prop) : Except S.Fault α → P → Prop
  | .ok a, m => post (.ok a) m
  | .error e, m => D.Follows (handler e) post m

/-- A rescued block ends with its value, or with what the handler does. -/
@[simp] theorem follows_rescue (p : Prog S α) (handler : S.Fault → Prog S α)
    (post : Except S.Fault α → P → Prop) (m : P) :
    D.Follows (Prog.rescue p handler) post m ↔ D.Follows p (rescueFollows D handler post) m := by
  rw [Prog.rescue, follows_bind, follows_attempt]
  apply iff_of_eq
  congr 1
  funext r m
  cases r <;> rfl

/-- A weaker postcondition is easier to reach. -/
theorem Follows.mono {post post' : Except S.Fault α → P → Prop} {p : Prog S α} {m : P}
    (hp : D.Follows p post m) (h : ∀ r m, post r m → post' r m) : D.Follows p post' m := by
  induction p generalizing m with
  | done r => exact h r m hp
  | mark n p ih =>
    obtain ⟨m', hedge, hrest⟩ := hp
    exact ⟨m', hedge, ih hrest⟩
  | await c k ih =>
    intro r hr
    obtain ⟨m', hedge, hrest⟩ := hp r hr
    exact ⟨m', hedge, ih r hrest⟩

/-- What every edge keeps of a phase is kept to the end. -/
theorem Follows.keeping {I : P → Prop} {p : Prog S α} {post : Except S.Fault α → P → Prop} {m : P}
    (hp : D.Follows p post m) (hm : I m) (hmark : ∀ m n m', I m → D.onMark m n m' → I m')
    (hreply : ∀ m c r m', I m → D.onReply m c r m' → I m') :
    D.Follows p (fun r m' => I m' ∧ post r m') m := by
  induction p generalizing m with
  | done r => exact ⟨hm, hp⟩
  | mark n p ih =>
    obtain ⟨m', hedge, hrest⟩ := hp
    exact ⟨m', hedge, ih hrest (hmark m n m' hm hedge)⟩
  | await c k ih =>
    intro r hr
    obtain ⟨m', hedge, hrest⟩ := hp r hr
    exact ⟨m', hedge, ih r hrest (hreply m c r m' hm hedge)⟩

/-- A program of calls and marks that may stay in a phase, or fall from it on an exception. -/
theorem follows_of_only {calls : S.Call → Prop} {marks : S.Mark → Prop} {p : Prog S α}
    {I : P → Prop} {m : P} (hp : p.Only calls marks) (hm : I m)
    (hmark : ∀ m n, I m → marks n → ∃ m', D.onMark m n m' ∧ I m')
    (hcall : ∀ m c r, I m → calls c → ∃ m', D.onReply m c r m' ∧ I m') :
    D.Follows p (fun _ => I) m := by
  induction p generalizing m with
  | done r => exact hm
  | mark n p ih =>
    obtain ⟨m', hedge, hm'⟩ := hmark m n hm hp.1
    exact ⟨m', hedge, ih hp.2 hm'⟩
  | await c k ih =>
    intro r _
    obtain ⟨m', hedge, hm'⟩ := hcall m c r hm hp.1
    exact ⟨m', hedge, ih r (hp.2 r) hm'⟩

/-- The edges of a diagram that start from phases which meet a condition. -/
def within (D : Diagram S P) (I : P → Prop) : Diagram S P where
  onMark m n m' := I m ∧ D.onMark m n m'
  onReply m c r m' := I m ∧ D.onReply m c r m'
  expected := D.expected

/-- A program that follows a diagram never leaves a condition that every edge keeps. -/
theorem Follows.within {I : P → Prop} {p : Prog S α} {post : Except S.Fault α → P → Prop} {m : P}
    (hp : D.Follows p post m) (hm : I m) (hmark : ∀ m n m', I m → D.onMark m n m' → I m')
    (hreply : ∀ m c r m', I m → D.onReply m c r m' → I m') : (D.within I).Follows p post m := by
  induction p generalizing m with
  | done r => exact hp
  | mark n p ih =>
    obtain ⟨m', hedge, hrest⟩ := hp
    exact ⟨m', ⟨hm, hedge⟩, ih hrest (hmark m n m' hm hedge)⟩
  | await c k ih =>
    intro r hr
    obtain ⟨m', hedge, hrest⟩ := hp r hr
    exact ⟨m', ⟨hm, hedge⟩, ih r hrest (hreply m c r m' hm hedge)⟩

/-- What every edge of a mark keeps of the phase and the world is kept while the marks are written. -/
theorem Follows.rest {W O Op : Type} (sys : System S W O Op) {Q : P → W → Prop} {prog : Prog S Unit}
    {post : Except S.Fault Unit → P → Prop} {m : P} {w : W} (hp : D.Follows prog post m) (hQ : Q m w)
    (hmark : ∀ m n m' w, Q m w → D.onMark m n m' → Q m' (sys.record n w)) :
    ∃ m', D.Follows (sys.rest prog w).1 post m' ∧ Q m' (sys.rest prog w).2 := by
  unfold System.rest
  induction prog generalizing m w with
  | done r => exact ⟨m, hp, hQ⟩
  | await c k => exact ⟨m, hp, hQ⟩
  | mark n rest ih =>
    obtain ⟨m', hedge, hrest⟩ := hp
    exact ih hrest (hmark m n m' w hQ hedge)

end Diagram

/-- The diagram of every task of a system, the phase in which a task starts, how it ends, and
the operations for which this is so. -/
structure Chart (S : Signature) (Op P : Type) where
  diagram : ℕ → Op → Diagram S P
  initial : P
  Ends : Op → Except S.Fault Unit → P → Prop
  Serves : Op → Prop

/-- Every program that is served follows its diagram. -/
def Chart.Covers {S : Signature} {W O Op P : Type} (C : Chart S Op P) (sys : System S W O Op) :
    Prop :=
  ∀ i op, C.Serves op → (C.diagram i op).Follows (sys.program i op) (C.Ends op) C.initial

namespace Chart

variable {S : Signature} {W O Op P : Type}

/-- The chart whose tasks stay in phases that meet a condition on their operation. -/
def within (C : Chart S Op P) (I : Op → P → Prop) : Chart S Op P where
  diagram i op := (C.diagram i op).within (I op)
  initial := C.initial
  Ends := C.Ends
  Serves := C.Serves

/-- A condition that every edge keeps may be assumed of all phases. -/
theorem Covers.within {C : Chart S Op P} {sys : System S W O Op} {I : Op → P → Prop}
    (h : C.Covers sys) (hinitial : ∀ op, I op C.initial)
    (hmark : ∀ i op m n m', I op m → (C.diagram i op).onMark m n m' → I op m')
    (hreply : ∀ i op m c r m', I op m → (C.diagram i op).onReply m c r m' → I op m') :
    (C.within I).Covers sys :=
  fun i op hop => (h i op hop).within (hinitial op) (hmark i op) (hreply i op)

/-- Every task of the pool follows its diagram from its phase. -/
structure Traces (C : Chart S Op P) (p : Pool S W Op) (φ : ℕ → P) : Prop where
  follows : ∀ i t, p.tasks[i]? = some t →
    C.Serves t.op ∧ (C.diagram i t.op).Follows t.prog (C.Ends t.op) (φ i)
  unstarted : ∀ i, p.tasks.length ≤ i → φ i = C.initial

/-- An assertion `I` about the phases and the world that every allowed move keeps, by way of an
assertion `J i` while the task `i` is acting. -/
structure Keeps (C : Chart S Op P) (sys : System S W O Op)
    (allowed : Pool S W Op → Move Op O → Prop) (I : (ℕ → P) → W → Prop)
    (J : ℕ → (ℕ → P) → W → Prop) : Prop where
  serves : ∀ p op, allowed p (.start op) → C.Serves op
  start : ∀ p op φ, C.Traces p φ → allowed p (.start op) → I φ p.world →
    J p.tasks.length φ (sys.enroll p.tasks.length op p.world)
  expected : ∀ p i o op c k φ, C.Traces p φ → p.tasks[i]? = some ⟨op, .await c k⟩ →
    allowed p (.advance i o) → I φ p.world →
    (C.diagram i op).expected c (sys.perform p.world o c).1
  call : ∀ p i o op c k φ m, C.Traces p φ → p.tasks[i]? = some ⟨op, .await c k⟩ →
    allowed p (.advance i o) → I φ p.world →
    (C.diagram i op).onReply (φ i) c (sys.perform p.world o c).1 m →
    J i (Function.update φ i m) (sys.perform p.world o c).2
  mark : ∀ i op n φ m w, C.Serves op → J i φ w → (C.diagram i op).onMark (φ i) n m →
    J i (Function.update φ i m) (sys.record n w)
  settled : ∀ i φ w, J i φ w → I φ w

/-- Nothing has been started: every task is in its first phase. -/
theorem traces_fresh (C : Chart S Op P) (w : W) :
    C.Traces (System.fresh w) fun _ => C.initial :=
  ⟨fun _ _ h => by simp [System.fresh] at h, fun _ _ => rfl⟩

/-- A task that awaits a call is in a phase from which an edge leads on, along which it follows its diagram. -/
theorem Traces.next {C : Chart S Op P} {p : Pool S W Op} {φ : ℕ → P} (hφ : C.Traces p φ) {i : ℕ}
    {op : Op} {c : S.Call} {k : Except S.Fault (S.Reply c) → Prog S Unit}
    (htask : p.tasks[i]? = some ⟨op, .await c k⟩) {r : Except S.Fault (S.Reply c)}
    (hr : (C.diagram i op).expected c r) :
    ∃ m, (C.diagram i op).onReply (φ i) c r m ∧ (C.diagram i op).Follows (k r) (C.Ends op) m :=
  (hφ.follows i _ htask).2 r hr

/-- A task that awaits a call is in a phase from which an edge leads on. -/
theorem Traces.edge {C : Chart S Op P} {p : Pool S W Op} {φ : ℕ → P} (hφ : C.Traces p φ) {i : ℕ}
    {op : Op} {c : S.Call} {k : Except S.Fault (S.Reply c) → Prog S Unit}
    (htask : p.tasks[i]? = some ⟨op, .await c k⟩) {r : Except S.Fault (S.Reply c)}
    (hr : (C.diagram i op).expected c r) : ∃ m, (C.diagram i op).onReply (φ i) c r m := by
  obtain ⟨m, hedge, -⟩ := hφ.next htask hr
  exact ⟨m, hedge⟩

namespace Keeps

variable {C : Chart S Op P} {sys : System S W O Op} {allowed : Pool S W Op → Move Op O → Prop}
  {I : (ℕ → P) → W → Prop} {J : ℕ → (ℕ → P) → W → Prop}

/-- Writing the marks of a task moves it along their edges. -/
theorem settle (h : C.Keeps sys allowed I J) {i : ℕ} {op : Op} (hop : C.Serves op)
    {post : Except S.Fault Unit → P → Prop} (prog : Prog S Unit) {φ : ℕ → P} {w : W}
    (hp : (C.diagram i op).Follows prog post (φ i)) (hJ : J i φ w) :
    ∃ m, (C.diagram i op).Follows (sys.rest prog w).1 post m ∧
      J i (Function.update φ i m) (sys.rest prog w).2 := by
  apply hp.rest sys (Q := fun m w => J i (Function.update φ i m) w) (by rwa [Function.update_eq_self])
  intro m n m' w hm hedge
  have hnext := h.mark i op n (Function.update φ i m) m' w hop hm (by rwa [Function.update_self])
  rwa [Function.update_idem] at hnext

/-- A task that has been moved leaves the others in their phases. -/
theorem traces_set {p : Pool S W Op} {φ : ℕ → P} (hφ : C.Traces p φ) {i : ℕ} {m : P} {w : W}
    {tasks : List (Task S Op)} (hother : ∀ j, j ≠ i → tasks[j]? = p.tasks[j]?)
    (htask : ∀ t, tasks[i]? = some t →
      C.Serves t.op ∧ (C.diagram i t.op).Follows t.prog (C.Ends t.op) m)
    (hlength : p.tasks.length ≤ tasks.length) (hi : i < tasks.length) :
    C.Traces ⟨w, tasks⟩ (Function.update φ i m) := by
  constructor
  · intro j t hj
    by_cases hji : j = i
    · subst hji
      rw [Function.update_self]
      exact htask t hj
    · rw [Function.update_of_ne hji]
      exact hφ.follows j t ((hother j hji).symm.trans hj)
  · intro j hj
    change tasks.length ≤ j at hj
    rw [Function.update_of_ne (by omega)]
    exact hφ.unstarted j (by omega)

/-- An allowed move keeps the assertion, for the phases to which it leads. -/
theorem step (h : C.Keeps sys allowed I J)
    (hprogram : C.Covers sys)
    {p q : Pool S W Op} {φ : ℕ → P} (hφ : C.Traces p φ) (hI : I φ p.world)
    (hstep : sys.Step allowed p q) : ∃ φ', C.Traces q φ' ∧ I φ' q.world := by
  obtain ⟨m, hallowed, hmove⟩ := hstep
  cases m with
  | start op =>
    rw [System.move_start] at hmove
    cases hmove
    have hop := h.serves p op hallowed
    have hfirst : (C.diagram p.tasks.length op).Follows (sys.program p.tasks.length op)
        (C.Ends op) (φ p.tasks.length) := by
      rw [hφ.unstarted _ (Nat.le_refl _)]
      exact hprogram p.tasks.length op hop
    obtain ⟨m, hfollows, hJ⟩ := h.settle hop _ hfirst (h.start p op φ hφ hallowed hI)
    refine ⟨_, traces_set hφ (i := p.tasks.length) (m := m) (fun j hj => ?_) (fun t ht => ?_)
      (by simp) (by simp), h.settled _ _ _ hJ⟩
    · rcases Nat.lt_or_gt_of_ne hj with hlt | hgt
      · exact List.getElem?_append_left hlt
      · rw [List.getElem?_eq_none (by simp; omega), List.getElem?_eq_none (by omega)]
    · rw [List.getElem?_concat_length] at ht
      cases ht
      exact ⟨hop, hfollows⟩
  | advance i o =>
    obtain ⟨op, c, k, htask, rfl⟩ := System.move_advance hmove
    have hlt : i < p.tasks.length := (List.getElem?_eq_some_iff.mp htask).1
    have hop := (hφ.follows i _ htask).1
    obtain ⟨m, hedge, hrest⟩ := hφ.next htask (h.expected p i o op c k φ hφ htask hallowed hI)
    have hJ := h.call p i o op c k φ m hφ htask hallowed hI hedge
    obtain ⟨m', hfollows, hJ'⟩ := h.settle hop _ (φ := Function.update φ i m)
      (by rwa [Function.update_self]) hJ
    rw [Function.update_idem] at hJ'
    refine ⟨_, traces_set hφ (i := i) (m := m') (fun j hj => ?_) (fun t ht => ?_)
      (by simp) (by simpa using hlt), h.settled _ _ _ hJ'⟩
    · exact List.getElem?_set_ne (Ne.symm hj)
    · rw [List.getElem?_set_self hlt] at ht
      cases ht
      exact ⟨hop, hfollows⟩

/-- What every allowed move keeps holds in every reachable pool, for some phases of its tasks. -/
theorem reaches (h : C.Keeps sys allowed I J)
    (hprogram : C.Covers sys)
    {p q : Pool S W Op} {φ : ℕ → P} (hφ : C.Traces p φ) (hI : I φ p.world)
    (hreach : sys.Reaches allowed p q) : ∃ φ', C.Traces q φ' ∧ I φ' q.world := by
  induction hreach with
  | refl => exact ⟨φ, hφ, hI⟩
  | tail _ hstep ih =>
    obtain ⟨φ', hφ', hI'⟩ := ih
    exact h.step hprogram hφ' hI' hstep

/-- An assertion about the world is kept along with one that is kept already. -/
theorem along (h : C.Keeps sys allowed I J) {A : W → Prop}
    (hstart : ∀ i op w, A w → A (sys.enroll i op w)) (hmark : ∀ n w, A w → A (sys.record n w))
    (hcall : ∀ p i o op c φ m, allowed p (.advance i o) → I φ p.world → A p.world →
      (C.diagram i op).onReply (φ i) c (sys.perform p.world o c).1 m →
        A (sys.perform p.world o c).2) :
    C.Keeps sys allowed (fun φ w => I φ w ∧ A w) fun i φ w => J i φ w ∧ A w where
  serves := h.serves
  start p op φ hφ hallowed hI := ⟨h.start p op φ hφ hallowed hI.1, hstart _ _ _ hI.2⟩
  expected p i o op c k φ hφ htask hallowed hI := h.expected p i o op c k φ hφ htask hallowed hI.1
  call p i o op c k φ m hφ htask hallowed hI hedge :=
    ⟨h.call p i o op c k φ m hφ htask hallowed hI.1 hedge,
      hcall p i o op c φ m hallowed hI.1 hI.2 hedge⟩
  mark i op n φ m w hop hJ hedge := ⟨h.mark i op n φ m w hop hJ.1 hedge, hmark n w hJ.2⟩
  settled i φ w hJ := ⟨h.settled i φ w hJ.1, hJ.2⟩

end Keeps

end Chart

-- From here on programs are walked by the rules above, never by computing them.
attribute [irreducible] Prog.Only Diagram.Follows

end Awaited
