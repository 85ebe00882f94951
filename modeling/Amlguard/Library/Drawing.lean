import Mathlib.Data.List.Forall2

/-!
# Computations that draw

A computation that may raise draws values from a source whose state it passes on. What is known of a
result is known whatever was drawn before; a loop of such computations makes, of each item, something
that the body makes of it in some state.
-/

namespace Drawing

variable {S E α β : Type}

/-- A computation that returns has returned at its first step, and then at the rest. -/
theorem bind_eq_ok {m : StateT S (Except E) α} {next : α → StateT S (Except E) β} {s s' : S} {b : β} :
    (m >>= next) s = .ok (b, s') ↔ ∃ a t, m s = .ok (a, t) ∧ next a t = .ok (b, s') := by
  change (m s >>= fun p => next p.1 p.2) = _ ↔ _
  cases m s with
  | error e => exact ⟨nofun, fun ⟨_, _, h, _⟩ => nomatch h⟩
  | ok p =>
    constructor
    · intro h
      exact ⟨p.1, p.2, rfl, h⟩
    · rintro ⟨a, t, ⟨⟩, h⟩
      exact h

/-- A computation returns when its first step does, and then the rest. -/
theorem exists_bind {m : StateT S (Except E) α} {next : α → StateT S (Except E) β} {s t : S} {a : α}
    (hfirst : m s = .ok (a, t)) (hnext : ∃ b s', next a t = .ok (b, s')) :
    ∃ b s', (m >>= next) s = .ok (b, s') := by
  obtain ⟨b, s', hrest⟩ := hnext
  exact ⟨b, s', bind_eq_ok.mpr ⟨a, t, hfirst, hrest⟩⟩

/-- A value is returned without drawing. -/
theorem pure_eq_ok {s s' : S} {a b : α} :
    (pure a : StateT S (Except E) α) s = .ok (b, s') ↔ a = b ∧ s = s' := by
  change Except.ok (a, s) = .ok (b, s') ↔ _
  rw [Except.ok.injEq, Prod.mk.injEq]

/-- A computation that does not draw leaves the state. -/
theorem lift_eq_ok {m : Except E α} {s s' : S} {a : α} :
    (StateT.lift m : StateT S (Except E) α) s = .ok (a, s') ↔ m = .ok a ∧ s = s' := by
  change (m >>= fun a => Except.ok (a, s)) = _ ↔ _
  cases m with
  | error e => exact ⟨nofun, fun ⟨h, _⟩ => nomatch h⟩
  | ok b =>
    change Except.ok (b, s) = .ok (a, s') ↔ _
    rw [Except.ok.injEq, Prod.mk.injEq, Except.ok.injEq]

/-- A loop makes something of each item, in some state. -/
theorem mapM_eq_ok {f : α → StateT S (Except E) β} {items : List α} {made : List β} {s s' : S}
    (h : items.mapM f s = .ok (made, s')) :
    List.Forall₂ (fun a b => ∃ t t', f a t = .ok (b, t')) items made := by
  induction items generalizing made s s' with
  | nil =>
    rw [List.mapM_nil, pure_eq_ok] at h
    rw [← h.1]
    exact .nil
  | cons item rest ih =>
    rw [List.mapM_cons, bind_eq_ok] at h
    obtain ⟨b, t, hitem, h⟩ := h
    rw [bind_eq_ok] at h
    obtain ⟨bs, t', hrest, h⟩ := h
    rw [← (pure_eq_ok.mp h).1]
    exact .cons ⟨s, t, hitem⟩ (ih hrest)

/-- A loop returns when its body does, in whatever state. -/
theorem exists_mapM {f : α → StateT S (Except E) β} (items : List α)
    (h : ∀ a ∈ items, ∀ s, ∃ b s', f a s = .ok (b, s')) (s : S) :
    ∃ made s', items.mapM f s = .ok (made, s') := by
  induction items generalizing s with
  | nil => exact ⟨[], s, rfl⟩
  | cons item rest ih =>
    obtain ⟨b, t, hitem⟩ := h item List.mem_cons_self s
    obtain ⟨bs, t', hrest⟩ := ih (fun a ha => h a (List.mem_cons_of_mem _ ha)) t
    rw [List.mapM_cons]
    exact exists_bind hitem (exists_bind hrest ⟨b :: bs, t', rfl⟩)

end Drawing
