import Mathlib.Data.List.Induction

/-!
# Hash chains

A list of records, each of which repeats the hash of the one before it and stores its own hash,
computed from that one and from its body. When hashes do not collide, the last hash determines
the whole list: the chain is followed from its head back to its genesis, whatever its length.
-/

namespace HashChain

variable {E H B : Type} (prior stored : E → H) (digest : H → E → H)

/-- Every record repeats the hash before it and stores its own. -/
def Linked : H → List E → Prop
  | _, [] => True
  | h, e :: rest => prior e = h ∧ stored e = digest h e ∧ Linked (stored e) rest

/-- The hash at the end of a list that begins at a hash. -/
def tip (h : H) (records : List E) : H := (records.getLast?.map stored).getD h

variable {prior stored digest} {h : H} {records : List E}

/-- Nothing has been chained. -/
@[simp] theorem tip_nil : tip stored h [] = h := rfl

/-- The last record is the tip. -/
@[simp] theorem tip_append_singleton (e : E) : tip stored h (records ++ [e]) = stored e := by
  simp [tip]

/-- A record is not the tip when more follow. -/
theorem tip_cons (e : E) : tip stored h (e :: records) = tip stored (stored e) records := by
  unfold tip
  rw [List.getLast?_cons]
  cases records.getLast? <;> rfl

/-- A chain is extended at its tip. -/
theorem linked_append_singleton (e : E) :
    Linked prior stored digest h (records ++ [e]) ↔
      Linked prior stored digest h records ∧ prior e = tip stored h records ∧
        stored e = digest (tip stored h records) e := by
  induction records generalizing h with
  | nil => simp [Linked]
  | cons e' rest ih =>
    simp only [List.cons_append, Linked, ih, tip_cons, and_assoc]

/-- The beginning of a chain is a chain. -/
theorem linked_of_append {rest : List E} (hlinked : Linked prior stored digest h (records ++ rest)) :
    Linked prior stored digest h records := by
  induction records generalizing h with
  | nil => trivial
  | cons e front ih => exact ⟨hlinked.1, hlinked.2.1, ih hlinked.2.2⟩

/-- Two chains from one genesis with the same tip are the same, when a hash tells what it was
computed from and is never the genesis. -/
theorem eq_of_tip_eq {genesis : H} (body : E → B)
    (hdigest : ∀ h e h' e', digest h e = digest h' e' → h = h' ∧ body e = body e')
    (hgenesis : ∀ h e, digest h e ≠ genesis)
    (hbody : ∀ e e', body e = body e' → prior e = prior e' → stored e = stored e' → e = e')
    (left right : List E) (hleft : Linked prior stored digest genesis left)
    (hright : Linked prior stored digest genesis right)
    (htip : tip stored genesis left = tip stored genesis right) : left = right := by
  induction left using List.reverseRecOn generalizing right with
  | nil =>
    cases right using List.reverseRecOn with
    | nil => rfl
    | append_singleton rest e =>
      obtain ⟨-, -, hstored⟩ := (linked_append_singleton e).mp hright
      rw [tip_nil, tip_append_singleton, hstored] at htip
      exact absurd htip.symm (hgenesis _ _)
  | append_singleton front e ih =>
    obtain ⟨hfront, hprior, hstored⟩ := (linked_append_singleton e).mp hleft
    cases right using List.reverseRecOn with
    | nil =>
      rw [tip_nil, tip_append_singleton, hstored] at htip
      exact absurd htip (hgenesis _ _)
    | append_singleton rest e' =>
      obtain ⟨hrest, hprior', hstored'⟩ := (linked_append_singleton e').mp hright
      rw [tip_append_singleton, tip_append_singleton] at htip
      obtain ⟨hbefore, heq⟩ := hdigest _ _ _ _ (hstored.symm.trans (htip.trans hstored'))
      rw [ih rest hfront hrest hbefore,
        hbody e e' heq (by rw [hprior, hprior', hbefore]) htip]

end HashChain
