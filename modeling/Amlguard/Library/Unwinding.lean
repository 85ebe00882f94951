import Amlguard.Library.Pool
import Mathlib.Data.List.Nodup

/-!
# Two runs side by side

An observer has started some of the tasks of two runs. In both runs these make the same moves in the same
order. The tasks of others may move in either run as they like, and the world may change from outside.

Unwinding shows that the observer sees the same in both runs. Its conditions are about single moves: a
move of the observer leads from worlds that look the same to such worlds again, and a move of others
leaves the world as the observer sees it.
-/

namespace Awaited

variable {S : Signature} {W O Op : Type}

/-- Whose runs are compared, which operations are started, and what is assumed of every world that is
reached, of two worlds in which a call is performed, and of changes from outside. -/
structure Viewpoint (S : Signature) (W O Op : Type) where
  mine : Op → Prop
  serves : Op → Prop
  reached : W → Prop
  agreed : W → W → O → S.Call → Prop
  outside : W → W → Prop

/-- Two runs from one world, and which tasks of the observer in them are the same. -/
inductive SideBySide (V : Viewpoint S W O Op) (sys : System S W O Op) (w₀ : W) :
    Pool S W Op → Pool S W Op → List (ℕ × ℕ) → Prop where
  | fresh : SideBySide V sys w₀ (System.fresh w₀) (System.fresh w₀) []
  | swap (p q : Pool S W Op) (twins : List (ℕ × ℕ)) (h : SideBySide V sys w₀ p q twins) :
      SideBySide V sys w₀ q p (twins.map Prod.swap)
  | start (p q p' q' : Pool S W Op) (twins : List (ℕ × ℕ)) (op : Op)
      (h : SideBySide V sys w₀ p q twins) (hop : V.mine op ∧ V.serves op)
      (hp : sys.move p (.start op) = some p') (hq : sys.move q (.start op) = some q')
      (hp' : V.reached p'.world) (hq' : V.reached q'.world) :
      SideBySide V sys w₀ p' q' (twins ++ [(p.tasks.length, q.tasks.length)])
  | advance (p q p' q' : Pool S W Op) (twins : List (ℕ × ℕ)) (i j : ℕ) (o : O)
      (h : SideBySide V sys w₀ p q twins) (hij : (i, j) ∈ twins)
      (hagreed : ∀ c, p.awaits i = some c → V.agreed p.world q.world o c)
      (hp : sys.move p (.advance i o) = some p') (hq : sys.move q (.advance j o) = some q')
      (hp' : V.reached p'.world) (hq' : V.reached q'.world) : SideBySide V sys w₀ p' q' twins
  | startOther (p q p' : Pool S W Op) (twins : List (ℕ × ℕ)) (op : Op)
      (h : SideBySide V sys w₀ p q twins) (hop : ¬V.mine op ∧ V.serves op)
      (hp : sys.move p (.start op) = some p') (hp' : V.reached p'.world) :
      SideBySide V sys w₀ p' q twins
  | advanceOther (p q p' : Pool S W Op) (twins : List (ℕ × ℕ)) (i : ℕ) (o : O)
      (h : SideBySide V sys w₀ p q twins) (hi : i ∉ twins.map Prod.fst)
      (hp : sys.move p (.advance i o) = some p') (hp' : V.reached p'.world) :
      SideBySide V sys w₀ p' q twins
  | outside (p q : Pool S W Op) (twins : List (ℕ × ℕ)) (w : W) (h : SideBySide V sys w₀ p q twins)
      (hw : V.outside p.world w) (hp' : V.reached w) : SideBySide V sys w₀ ⟨w, p.tasks⟩ q twins

/-- What the observer sees as the same, and what a single move does to it.

`Twin` relates what is left of a task of the observer in the two runs, and `Other` is what is left of
the task of another. -/
structure Unwinding (V : Viewpoint S W O Op) (sys : System S W O Op) where
  Inv : W → Prop
  Same : W → W → Prop
  Twin : Prog S Unit → Prog S Unit → Prop
  Other : Prog S Unit → Prop
  same_symm : ∀ w w', Same w w' → Same w' w
  same_trans : ∀ w w' w'', Same w w' → Same w' w'' → Same w w''
  twin_symm : ∀ p q, Twin p q → Twin q p
  start : ∀ i j op w w', V.mine op → V.serves op → Inv w → Inv w' → Same w w' →
    let r := sys.rest (sys.program i op) (sys.enroll i op w)
    let r' := sys.rest (sys.program j op) (sys.enroll j op w')
    V.reached r.2 → V.reached r'.2 → (Inv r.2 ∧ Inv r'.2) ∧ Same r.2 r'.2 ∧ Twin r.1 r'.1
  advance : ∀ c k c' k' w w' o, Twin (.await c k) (.await c' k') → Inv w → Inv w' → Same w w' →
    V.agreed w w' o c →
    let r := sys.rest (k (sys.perform w o c).1) (sys.perform w o c).2
    let r' := sys.rest (k' (sys.perform w' o c').1) (sys.perform w' o c').2
    V.reached r.2 → V.reached r'.2 → (Inv r.2 ∧ Inv r'.2) ∧ Same r.2 r'.2 ∧ Twin r.1 r'.1
  startOther : ∀ i op w, ¬V.mine op → V.serves op → Inv w →
    let r := sys.rest (sys.program i op) (sys.enroll i op w)
    V.reached r.2 → Inv r.2 ∧ Same w r.2 ∧ Other r.1
  advanceOther : ∀ c k w o, Other (.await c k) → Inv w →
    let r := sys.rest (k (sys.perform w o c).1) (sys.perform w o c).2
    V.reached r.2 → Inv r.2 ∧ Same w r.2 ∧ Other r.1
  outside : ∀ w w', V.outside w w' → Inv w → V.reached w' → Inv w' ∧ Same w w'

namespace Unwinding

variable {V : Viewpoint S W O Op} {sys : System S W O Op} {w₀ : W} {p q p' q' : Pool S W Op}
  {twins : List (ℕ × ℕ)}

/-- Where the tasks of a run stand: those that are named are the tasks of the observer. -/
def Others (U : Unwinding V sys) (p : Pool S W Op) (named : List ℕ) : Prop :=
  ∀ i t, p.tasks[i]? = some t → i ∉ named → U.Other t.prog

/-- Two tasks are the same task of the observer. -/
def Paired (U : Unwinding V sys) (p q : Pool S W Op) (i j : ℕ) : Prop :=
  ∃ op prog prog', p.tasks[i]? = some ⟨op, prog⟩ ∧ q.tasks[j]? = some ⟨op, prog'⟩ ∧ U.Twin prog prog'

/-- The observer sees the same in two runs, and its tasks in them are paired. -/
structure Related (U : Unwinding V sys) (p q : Pool S W Op) (twins : List (ℕ × ℕ)) : Prop where
  inv : U.Inv p.world ∧ U.Inv q.world
  same : U.Same p.world q.world
  paired : ∀ i j, (i, j) ∈ twins → U.Paired p q i j
  left : U.Others p (twins.map Prod.fst)
  right : U.Others q (twins.map Prod.snd)
  lefts : (twins.map Prod.fst).Nodup
  rights : (twins.map Prod.snd).Nodup

variable {U : Unwinding V sys}

/-- A paired task is among those that have been started. -/
theorem Paired.lt {i j : ℕ} (h : U.Paired p q i j) : i < p.tasks.length ∧ j < q.tasks.length := by
  obtain ⟨op, prog, prog', hi, hj, -⟩ := h
  exact ⟨(List.getElem?_eq_some_iff.mp hi).1, (List.getElem?_eq_some_iff.mp hj).1⟩

theorem Paired.symm {i j : ℕ} (h : U.Paired p q i j) : U.Paired q p j i := by
  obtain ⟨op, prog, prog', hi, hj, htwin⟩ := h
  exact ⟨op, prog', prog, hj, hi, U.twin_symm _ _ htwin⟩

/-- A pair is left alone by what happens to other tasks. -/
theorem Paired.of_eq {i j : ℕ} (h : U.Paired p q i j) (hp : p'.tasks[i]? = p.tasks[i]?)
    (hq : q'.tasks[j]? = q.tasks[j]?) : U.Paired p' q' i j := by
  obtain ⟨op, prog, prog', hi, hj, htwin⟩ := h
  exact ⟨op, prog, prog', hp.trans hi, hq.trans hj, htwin⟩

/-- A new task that is named leaves the others as they are. -/
theorem Others.concat {named : List ℕ} (h : U.Others p named) (w : W) (t : Task S Op) :
    U.Others ⟨w, p.tasks ++ [t]⟩ (named ++ [p.tasks.length]) := by
  intro i t' hi hnamed
  rw [List.mem_append, List.mem_singleton, not_or] at hnamed
  have hlt := (List.getElem?_eq_some_iff.mp hi).1
  rw [List.length_append, List.length_singleton] at hlt
  apply h i t' _ hnamed.1
  rw [← hi]
  exact (List.getElem?_append_left (by omega)).symm

/-- A named task that moves leaves the others as they are. -/
theorem Others.set {named : List ℕ} (h : U.Others p named) {i : ℕ} (hi : i ∈ named) (w : W)
    (t : Task S Op) : U.Others ⟨w, p.tasks.set i t⟩ named := by
  intro j t' hj hnamed
  have hne : i ≠ j := by
    rintro rfl
    exact hnamed hi
  rw [List.getElem?_set_ne hne] at hj
  exact h j t' hj hnamed

theorem Related.symm (h : U.Related p q twins) : U.Related q p (twins.map Prod.swap) := by
  have hfst : (twins.map Prod.swap).map Prod.fst = twins.map Prod.snd := by
    rw [List.map_map]
    rfl
  have hsnd : (twins.map Prod.swap).map Prod.snd = twins.map Prod.fst := by
    rw [List.map_map]
    rfl
  refine ⟨h.inv.symm, U.same_symm _ _ h.same, fun i j hij => ?_, ?_, ?_, ?_, ?_⟩
  · obtain ⟨⟨j', i'⟩, hmem, heq⟩ := List.mem_map.mp hij
    cases heq
    exact (h.paired _ _ hmem).symm
  · rw [hfst]
    exact h.right
  · rw [hsnd]
    exact h.left
  · rw [hfst]
    exact h.rights
  · rw [hsnd]
    exact h.lefts

/-- An operation of the observer is started in both runs. -/
theorem Related.start (h : U.Related p q twins) {op : Op} (hmine : V.mine op) (hserves : V.serves op)
    (hp : sys.move p (.start op) = some p') (hq : sys.move q (.start op) = some q')
    (hp' : V.reached p'.world) (hq' : V.reached q'.world) :
    U.Related p' q' (twins ++ [(p.tasks.length, q.tasks.length)]) := by
  rw [System.move_start] at hp hq
  cases hp
  cases hq
  obtain ⟨hinv, hsame, htwin⟩ :=
    U.start _ _ op _ _ hmine hserves h.inv.1 h.inv.2 h.same hp' hq'
  refine ⟨hinv, hsame, fun i j hij => ?_, ?_, ?_, ?_, ?_⟩
  · rcases List.mem_append.mp hij with hold | hnew
    · have hlt := (h.paired i j hold).lt
      exact (h.paired i j hold).of_eq (List.getElem?_append_left hlt.1)
        (List.getElem?_append_left hlt.2)
    · cases List.mem_singleton.mp hnew
      exact ⟨op, _, _, List.getElem?_concat_length, List.getElem?_concat_length, htwin⟩
  · rw [List.map_append]
    exact h.left.concat _ _
  · rw [List.map_append]
    exact h.right.concat _ _
  · rw [List.map_append, List.map_singleton, ← List.concat_eq_append]
    apply h.lefts.concat
    intro hmem
    obtain ⟨⟨i, j⟩, hold, heq⟩ := List.mem_map.mp hmem
    exact absurd heq (Nat.ne_of_lt (h.paired i j hold).lt.1)
  · rw [List.map_append, List.map_singleton, ← List.concat_eq_append]
    apply h.rights.concat
    intro hmem
    obtain ⟨⟨i, j⟩, hold, heq⟩ := List.mem_map.mp hmem
    exact absurd heq (Nat.ne_of_lt (h.paired i j hold).lt.2)

/-- A task of the observer moves in both runs. -/
theorem Related.advance (h : U.Related p q twins) {i j : ℕ} {o : O} (hij : (i, j) ∈ twins)
    (hagreed : ∀ c, p.awaits i = some c → V.agreed p.world q.world o c)
    (hp : sys.move p (.advance i o) = some p') (hq : sys.move q (.advance j o) = some q')
    (hp' : V.reached p'.world) (hq' : V.reached q'.world) : U.Related p' q' twins := by
  obtain ⟨op, prog, prog', hi, hj, htwin⟩ := h.paired i j hij
  have hlt := (h.paired i j hij).lt
  obtain ⟨_, c, k, hi', rfl⟩ := System.move_advance hp
  obtain ⟨_, c', k', hj', rfl⟩ := System.move_advance hq
  cases hi.symm.trans hi'
  cases hj.symm.trans hj'
  have hawaits : p.awaits i = some c := by simp [Pool.awaits, hi]
  obtain ⟨hinv, hsame, hnext⟩ := U.advance c k c' k' _ _ o htwin h.inv.1 h.inv.2 h.same
    (hagreed c hawaits) hp' hq'
  have hfst : i ∈ twins.map Prod.fst := List.mem_map.mpr ⟨(i, j), hij, rfl⟩
  have hsnd : j ∈ twins.map Prod.snd := List.mem_map.mpr ⟨(i, j), hij, rfl⟩
  refine ⟨hinv, hsame, fun i' j' hij' => ?_, h.left.set hfst _ _, h.right.set hsnd _ _, h.lefts,
    h.rights⟩
  by_cases heq : i = i'
  · cases List.inj_on_of_nodup_map h.lefts hij hij' heq
    exact ⟨op, _, _, List.getElem?_set_self hlt.1, List.getElem?_set_self hlt.2, hnext⟩
  · have hne : j ≠ j' := by
      intro heq'
      cases List.inj_on_of_nodup_map h.rights hij hij' heq'
      exact heq rfl
    exact (h.paired i' j' hij').of_eq (List.getElem?_set_ne heq) (List.getElem?_set_ne hne)

/-- Another starts an operation in one of the runs. -/
theorem Related.startOther (h : U.Related p q twins) {op : Op} (hother : ¬V.mine op)
    (hserves : V.serves op) (hp : sys.move p (.start op) = some p') (hp' : V.reached p'.world) :
    U.Related p' q twins := by
  rw [System.move_start] at hp
  cases hp
  obtain ⟨hinv, hsame, hprog⟩ := U.startOther _ op _ hother hserves h.inv.1 hp'
  refine ⟨⟨hinv, h.inv.2⟩, U.same_trans _ _ _ (U.same_symm _ _ hsame) h.same, fun i j hij => ?_,
    fun i t hi hnamed => ?_, h.right, h.lefts, h.rights⟩
  · exact (h.paired i j hij).of_eq (List.getElem?_append_left (h.paired i j hij).lt.1) rfl
  · rw [List.getElem?_append] at hi
    split at hi
    · exact h.left i t hi hnamed
    · rw [List.getElem?_singleton] at hi
      split at hi
      · cases hi
        exact hprog
      · cases hi

/-- The task of another moves in one of the runs. -/
theorem Related.advanceOther (h : U.Related p q twins) {i : ℕ} {o : O}
    (hi : i ∉ twins.map Prod.fst) (hp : sys.move p (.advance i o) = some p')
    (hp' : V.reached p'.world) : U.Related p' q twins := by
  obtain ⟨op, c, k, htask, rfl⟩ := System.move_advance hp
  have hother : U.Other (.await c k) := h.left i _ htask hi
  obtain ⟨hinv, hsame, hprog⟩ := U.advanceOther c k _ o hother h.inv.1 hp'
  refine ⟨⟨hinv, h.inv.2⟩, U.same_trans _ _ _ (U.same_symm _ _ hsame) h.same, fun i' j hij => ?_,
    fun j t hj hnamed => ?_, h.right, h.lefts, h.rights⟩
  · have hne : i ≠ i' := by
      rintro rfl
      exact hi (List.mem_map.mpr ⟨(i, j), hij, rfl⟩)
    exact (h.paired i' j hij).of_eq (List.getElem?_set_ne hne) rfl
  · by_cases heq : i = j
    · subst heq
      rw [List.getElem?_set_self (List.getElem?_eq_some_iff.mp htask).1] at hj
      cases hj
      exact hprog
    · rw [List.getElem?_set_ne heq] at hj
      exact h.left j t hj hnamed

/-- Two runs side by side are seen as the same. -/
theorem related (U : Unwinding V sys) (hinv : U.Inv w₀) (hsame : U.Same w₀ w₀)
    (h : SideBySide V sys w₀ p q twins) : U.Related p q twins := by
  induction h with
  | fresh =>
    refine ⟨⟨hinv, hinv⟩, hsame, fun i j hij => ?_, fun i t hi => ?_, fun i t hi => ?_, .nil, .nil⟩
    · cases hij
    · simp [System.fresh] at hi
    · simp [System.fresh] at hi
  | swap p q twins _ ih => exact ih.symm
  | start p q p' q' twins op _ hop hp hq hp' hq' ih => exact ih.start hop.1 hop.2 hp hq hp' hq'
  | advance p q p' q' twins i j o _ hij hagreed hp hq hp' hq' ih =>
    exact ih.advance hij hagreed hp hq hp' hq'
  | startOther p q p' twins op _ hop hp hp' ih => exact ih.startOther hop.1 hop.2 hp hp'
  | advanceOther p q p' twins i o _ hi hp hp' ih => exact ih.advanceOther hi hp hp'
  | outside p q twins w _ hw hp' ih =>
    obtain ⟨hinv', hsame'⟩ := U.outside _ _ hw ih.inv.1 hp'
    exact ⟨⟨hinv', ih.inv.2⟩, U.same_trans _ _ _ (U.same_symm _ _ hsame') ih.same, ih.paired, ih.left,
      ih.right, ih.lefts, ih.rights⟩

end Unwinding

end Awaited
