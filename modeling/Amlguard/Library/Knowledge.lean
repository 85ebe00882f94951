import Amlguard.Library.Conduct
import Mathlib.Data.Set.Lattice

/-!
# What programs learn

A program that awaits calls learns facts from their replies, and what it may call or mark can depend
on the facts that it has learnt. A fact that has been learnt is never unlearnt, so a task needs no
other phase than the set of the facts that it knows.

`Lessons.keeps` turns a walk through the programs into an invariant of every interleaving: when facts
hold as they are learnt and are stable under all calls and marks, every task knows only what holds.
-/

namespace Awaited

/-- What the replies teach the tasks of an operation, what a task may call and mark with what it
knows, and which replies it expects. -/
structure Lessons (S : Signature) (Op F : Type) where
  teaches : Op → (c : S.Call) → Except S.Fault (S.Reply c) → Set F
  calls : Op → Set F → S.Call → Prop
  marks : Op → Set F → S.Mark → Prop
  expected : (c : S.Call) → Except S.Fault (S.Reply c) → Prop

namespace Lessons

variable {S : Signature} {W O Op F : Type} (L : Lessons S Op F) {α β : Type}

/-- The phases of an operation are the sets of facts that it knows. -/
def diagram (op : Op) : Diagram S (Set F) where
  onMark known n known' := L.marks op known n ∧ known' = known
  onReply known c r known' := L.calls op known c ∧ known' = known ∪ L.teaches op c r
  expected := L.expected

/-- The chart of the operations that are served: nothing is known at first. -/
def chart (Serves : Op → Prop) : Chart S Op (Set F) where
  diagram _ := L.diagram
  initial := ∅
  Ends _ _ _ := True
  Serves := Serves

/-- The program keeps to what it may do with what it knows, and ends as the postcondition says. -/
abbrev Heeds (op : Op) (p : Prog S α) (post : Except S.Fault α → Set F → Prop) (known : Set F) :
    Prop :=
  (L.diagram op).Follows p post known

variable {L} {op : Op} {known : Set F}

/-- What is known stays known. -/
theorem Heeds.grows {p : Prog S α} {post : Except S.Fault α → Set F → Prop}
    (h : L.Heeds op p post known) :
    L.Heeds op p (fun r known' => known ⊆ known' ∧ post r known') known := by
  apply Diagram.Follows.keeping h (I := fun known' => known ⊆ known') subset_rfl
  · rintro _ n _ hgrown ⟨-, rfl⟩
    exact hgrown
  · rintro _ c r _ hgrown ⟨-, rfl⟩
    exact hgrown.trans Set.subset_union_left

/-- A sequence heeds what both of its parts heed; the second knows what the first knew. -/
theorem heeds_bind {p : Prog S α} {f : α → Prog S β} {mid : Except S.Fault α → Set F → Prop}
    {post : Except S.Fault β → Set F → Prop} (hp : L.Heeds op p mid known)
    (hok : ∀ a known', known ⊆ known' → mid (.ok a) known' → L.Heeds op (f a) post known')
    (herror : ∀ e known', known ⊆ known' → mid (.error e) known' → post (.error e) known') :
    L.Heeds op (p >>= f) post known := by
  apply (Diagram.follows_bind p f post known).mpr
  apply hp.grows.mono
  rintro r known' ⟨hgrown, hmid⟩
  cases r with
  | ok a => exact hok a known' hgrown hmid
  | error e => exact herror e known' hgrown hmid

/-- A call that may be made teaches what its reply does. -/
theorem heeds_call {c : S.Call} {post : Except S.Fault (S.Reply c) → Set F → Prop}
    (hc : L.calls op known c)
    (h : ∀ r, L.expected c r → post r (known ∪ L.teaches op c r)) :
    L.Heeds op (Prog.call c) post known :=
  (Diagram.follows_call c post known).mpr fun r hr => ⟨_, ⟨hc, rfl⟩, h r hr⟩

/-- A mark that may be made teaches nothing. -/
theorem heeds_note {n : S.Mark} {post : Except S.Fault Unit → Set F → Prop}
    (hn : L.marks op known n) (h : post (.ok ()) known) : L.Heeds op (Prog.note n) post known :=
  (Diagram.follows_note n post known).mpr ⟨known, ⟨hn, rfl⟩, h⟩

/-- A program of calls and marks that need no knowledge. -/
theorem heeds_of_only {calls : S.Call → Prop} {marks : S.Mark → Prop} {p : Prog S α}
    (hp : p.Only calls marks) (hcalls : ∀ known c, calls c → L.calls op known c)
    (hmarks : ∀ known n, marks n → L.marks op known n) :
    L.Heeds op p (fun _ _ => True) known := by
  apply Diagram.follows_of_only hp (I := fun _ => True) trivial
  · intro known n _ hn
    exact ⟨known, ⟨hmarks known n hn, rfl⟩, trivial⟩
  · intro known c r _ hc
    exact ⟨_, ⟨hcalls known c hc, rfl⟩, trivial⟩

/-- What the facts mean in a world, and what is true of every world in which tasks act. -/
structure Meaning (F W : Type) where
  Holds : F → W → Prop
  inv : W → Prop

/-- Every task knows only what holds. -/
def Meaning.Sound (M : Meaning F W) (φ : ℕ → Set F) (w : W) : Prop :=
  M.inv w ∧ ∀ i, ∀ f ∈ φ i, M.Holds f w

/-- One move from a world to another keeps the invariant and the facts that hold. -/
def Meaning.Stable (M : Meaning F W) (w w' : W) : Prop :=
  M.inv w' ∧ ∀ f, M.Holds f w → M.Holds f w'

/-- A stable move on which a task learns what holds. -/
theorem Meaning.Sound.move {M : Meaning F W} {φ : ℕ → Set F} {w w' : W} {i : ℕ} {known : Set F}
    (h : M.Sound φ w) (hstable : M.Stable w w') (hknown : ∀ f ∈ known, M.Holds f w') :
    M.Sound (Function.update φ i known) w' := by
  refine ⟨hstable.1, fun j f hf => ?_⟩
  by_cases hji : j = i
  · subst hji
    rw [Function.update_self] at hf
    exact hknown f hf
  · rw [Function.update_of_ne hji] at hf
    exact hstable.2 f (h.2 j f hf)

/-- Tasks that heed their lessons keep them sound, when the lessons are true and stable. -/
theorem keeps {sys : System S W O Op} {M : Meaning F W} {Serves : Op → Prop}
    {allowed : Pool S W Op → Move Op O → Prop} (hserves : ∀ p op, allowed p (.start op) → Serves op)
    (henroll : ∀ i op w, M.inv w → M.Stable w (sys.enroll i op w))
    (hexpected : ∀ w o c, M.inv w → L.expected c (sys.perform w o c).1)
    (hcall : ∀ op w o c known, Serves op → M.inv w → (∀ f ∈ known, M.Holds f w) →
      L.calls op known c → M.Stable w (sys.perform w o c).2 ∧
        ∀ f ∈ L.teaches op c (sys.perform w o c).1, M.Holds f (sys.perform w o c).2)
    (hmark : ∀ op w n known, Serves op → M.inv w → (∀ f ∈ known, M.Holds f w) →
      L.marks op known n → M.Stable w (sys.record n w)) :
    (L.chart Serves).Keeps sys allowed M.Sound fun _ => M.Sound where
  serves := hserves
  start p op φ _ _ h := by
    obtain ⟨hinv, hstable⟩ := henroll p.tasks.length op p.world h.1
    exact ⟨hinv, fun i f hf => hstable f (h.2 i f hf)⟩
  expected p i o op c k φ _ _ _ h := hexpected p.world o c h.1
  call := by
    rintro p i o op c k φ _ hφ htask _ h ⟨hc, rfl⟩
    obtain ⟨hstable, hlearnt⟩ := hcall op p.world o c (φ i) (hφ.follows i _ htask).1 h.1 (h.2 i) hc
    apply h.move hstable
    rintro f (hold | hnew)
    · exact hstable.2 f (h.2 i f hold)
    · exact hlearnt f hnew
  mark := by
    rintro i op n φ _ w hop h ⟨hn, rfl⟩
    have hstable := hmark op w n (φ i) hop h.1 (h.2 i) hn
    exact h.move hstable fun f hf => hstable.2 f (h.2 i f hf)
  settled _ _ _ h := h

end Lessons

end Awaited
