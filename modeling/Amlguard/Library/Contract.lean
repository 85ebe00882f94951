import Amlguard.Library.Conduct

/-!
# Contracts

A contract says which calls the programs of a system may make, and which replies they may expect. A
program honours it when it makes no other call as long as it gets no other reply.

What one call writes is what a later reply reads, so neither half can be shown before the other.
`Contract.holds` closes the circle with an invariant of the world: it is kept by the calls of the
contract, and in every world that meets it replies are as expected.
-/

namespace Awaited

/-- The calls that may be made and the replies that may be expected. -/
structure Contract (S : Signature) where
  calls : S.Call → Prop
  expected : (c : S.Call) → Except S.Fault (S.Reply c) → Prop

namespace Contract

variable {S : Signature} {W O : Type} (K : Contract S) {α β : Type}

/-- The diagram with one phase, in which the calls of the contract are made. -/
def diagram : Diagram S Unit where
  onMark _ _ _ := True
  onReply _ c _ _ := K.calls c
  expected := K.expected

/-- The chart of all operations with this diagram. -/
def chart (Op : Type) : Chart S Op Unit where
  diagram _ _ := K.diagram
  initial := ()
  Ends _ _ _ := True
  Serves _ := True

/-- The program makes the calls of the contract only, as long as its replies are as expected, and then
ends as the postcondition says. -/
def Honours (p : Prog S α) (post : Except S.Fault α → Prop) : Prop :=
  K.diagram.Follows p (fun r _ => post r) ()

variable {K} {p : Prog S α} {post : Except S.Fault α → Prop}

/-- A weaker postcondition is easier to reach. -/
theorem Honours.mono {post' : Except S.Fault α → Prop} (hp : K.Honours p post)
    (h : ∀ r, post r → post' r) : K.Honours p post' :=
  Diagram.Follows.mono hp fun r _ => h r

/-- A result that has been computed. -/
theorem honours_settleResult {r : Except S.Fault α} (h : post r) :
    K.Honours (Prog.settleResult r) post :=
  (Diagram.follows_settleResult r _ ()).mpr h

/-- A returned value. -/
theorem honours_pure {a : α} (h : post (.ok a)) : K.Honours (pure a) post :=
  (Diagram.follows_pure a _ ()).mpr h

/-- A mark is always free. -/
theorem honours_note {n : S.Mark} {post : Except S.Fault Unit → Prop} (h : post (.ok ())) :
    K.Honours (Prog.note n) post :=
  (Diagram.follows_note n _ ()).mpr ⟨(), trivial, h⟩

/-- A call of the contract ends with a reply that is as expected. -/
theorem honours_call {c : S.Call} {post : Except S.Fault (S.Reply c) → Prop} (hc : K.calls c)
    (h : ∀ r, K.expected c r → post r) : K.Honours (Prog.call c) post :=
  (Diagram.follows_call c _ ()).mpr fun r hr => ⟨(), hc, h r hr⟩

/-- A sequence honours the contract when both parts do. -/
theorem honours_bind {f : α → Prog S β} {mid : Except S.Fault α → Prop}
    {post : Except S.Fault β → Prop} (hp : K.Honours p mid)
    (hok : ∀ a, mid (.ok a) → K.Honours (f a) post) (herror : ∀ e, mid (.error e) → post (.error e)) :
    K.Honours (p >>= f) post := by
  apply (Diagram.follows_bind p f _ ()).mpr
  apply Diagram.Follows.mono hp
  intro r _ hmid
  cases r with
  | ok a => exact hok a hmid
  | error e => exact herror e hmid

/-- An attempted program hands its exception on as a value. -/
theorem honours_attempt {post : Except S.Fault (Except S.Fault α) → Prop}
    (hp : K.Honours p fun r => post (.ok r)) : K.Honours p.attempt post :=
  (Diagram.follows_attempt p _ ()).mpr hp

/-- A suppressed block continues normally after every end. -/
theorem honours_suppress {p : Prog S Unit} {post : Except S.Fault Unit → Prop}
    (hp : K.Honours p fun _ => True) (h : post (.ok ())) : K.Honours (Prog.suppress p) post := by
  apply (Diagram.follows_suppress p _ ()).mpr
  exact Diagram.Follows.mono hp fun _ _ _ => h

/-- A cleanup runs after every end, and then the end stands. -/
theorem honours_finally' {cleanup : Prog S Unit} (hp : K.Honours p post)
    (hcleanup : K.Honours cleanup fun _ => True) (herror : ∀ e, post (.error e)) :
    K.Honours (Prog.finally' p cleanup) post := by
  apply (Diagram.follows_finally' p cleanup _ ()).mpr
  apply Diagram.Follows.mono hp
  intro r _ hr
  apply Diagram.Follows.mono hcleanup
  intro r' _ _
  cases r' with
  | ok _ => exact (Diagram.follows_settleResult r _ ()).mpr hr
  | error e => exact herror e

/-- A program all of whose calls are of the contract, whatever the replies. -/
theorem honours_of_only {calls : S.Call → Prop} {marks : S.Mark → Prop} (hp : p.Only calls marks)
    (hcalls : ∀ c, calls c → K.calls c) : K.Honours p fun _ => True := by
  apply Diagram.follows_of_only hp (I := fun _ => True) trivial
  · intro _ n _ _
    exact ⟨(), trivial, trivial⟩
  · intro _ c r _ hc
    exact ⟨(), hcalls c hc, trivial⟩

/-- In a pool of programs that honour a contract the invariant holds at all times, and every call that
is awaited is one of the contract. -/
theorem holds {Op : Type} {sys : System S W O Op} {allowed : Pool S W Op → Move Op O → Prop} {inv : W → Prop}
    (hprogram : ∀ i op, K.Honours (sys.program i op) fun _ => True)
    (henroll : ∀ i op w, inv w → inv (sys.enroll i op w))
    (hmark : ∀ n w, inv w → inv (sys.record n w))
    (hexpected : ∀ w o c, inv w → K.expected c (sys.perform w o c).1)
    (hcall : ∀ w o c, inv w → K.calls c → inv (sys.perform w o c).2)
    {w : W} (hw : inv w) {p : Pool S W Op} (hreach : sys.Reaches allowed (System.fresh w) p) (o : O) :
    inv p.world ∧ ∀ i c, p.awaits i = some c → K.calls c := by
  have hkeeps : (K.chart Op).Keeps sys allowed (fun _ => inv) fun _ _ => inv :=
    { serves := fun _ _ _ => trivial
      start := fun p op _ _ _ h => henroll p.tasks.length op p.world h
      expected := fun p _ o _ c _ _ _ _ _ h => hexpected p.world o c h
      call := fun p _ o _ c _ _ _ _ _ _ h hc => hcall p.world o c h hc
      mark := fun _ _ n _ _ w _ h _ => hmark n w h
      settled := fun _ _ _ h => h }
  have hcovers : (K.chart Op).Covers sys := fun i op _ => hprogram i op
  obtain ⟨φ, hφ, hinv⟩ := hkeeps.reaches hcovers ((K.chart Op).traces_fresh w) hw hreach
  constructor
  · exact hinv
  · intro i c hawaits
    obtain ⟨op, k, htask⟩ := Pool.exists_of_awaits hawaits
    obtain ⟨_, hc⟩ := hφ.edge htask (hexpected p.world o c hinv)
    exact hc

end Contract

end Awaited
