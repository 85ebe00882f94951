import Amlguard.Library.Dict

/-!
# Rows that hold a dictionary

A table holds a dictionary when its rows are, one by one, the entries of the dictionary: each has the key
of its entry and holds the value. A row is found where the value is found, and an update, an insertion or a
deletion of rows holds the dictionary in which the same is done to the value.
-/

namespace Rows

variable {K V R : Type} [DecidableEq K] {key : R → K} {holds holds' : V → R → Prop} {d : Dict K V}
  {rows : List R} {k : K} {v : V}

/-- The rows are the entries of a dictionary, one by one. -/
def Hold (key : R → K) (holds : V → R → Prop) (d : Dict K V) (rows : List R) : Prop :=
  List.Forall₂ (fun e row => key row = e.1 ∧ holds e.2 row) d.entries rows

/-- Change the rows of a key. -/
def update (key : R → K) (k : K) (change : R → R) (rows : List R) : List R :=
  rows.map fun row => if key row = k then change row else row

/-- The rows without those of a key. -/
def delete (key : R → K) (k : K) (rows : List R) : List R := rows.filter fun row => key row ≠ k

/-- An update that keeps a column keeps it in all rows. -/
theorem map_update {C : Type} {column : R → C} {change : R → R}
    (h : ∀ row, column (change row) = column row) :
    (update key k change rows).map column = rows.map column := by
  unfold update
  rw [List.map_map, List.map_inj_left]
  intro row _
  by_cases hk : key row = k
  · rw [Function.comp_apply, if_pos hk, h]
  · rw [Function.comp_apply, if_neg hk]

/-- An update that changes nothing. -/
theorem update_id : update key k id rows = rows := by
  simp [update]

omit [DecidableEq K] in
/-- The keys of the rows are those of the dictionary. -/
theorem Hold.keys (h : Hold key holds d rows) : rows.map key = d.keys := by
  unfold Hold at h
  unfold Dict.keys
  generalize d.entries = entries at h
  induction h with
  | nil => rfl
  | cons hhead _ ih => rw [List.map_cons, List.map_cons, ih, hhead.1]

omit [DecidableEq K] in
/-- The values of the dictionary are held one by one. -/
theorem Hold.values (h : Hold key holds d rows) : List.Forall₂ holds d.values rows := by
  unfold Hold at h
  unfold Dict.values
  rw [List.forall₂_map_left_iff]
  exact h.imp fun e row hrow => hrow.2

/-- A row holds the value of its key. -/
theorem Hold.get?_of_mem (h : Hold key holds d rows) {row : R} (hrow : row ∈ rows) :
    ∃ v, d.get? (key row) = some v ∧ holds v row := by
  obtain ⟨i, hi, hget⟩ := List.getElem_of_mem hrow
  have hlength := h.length_eq
  have hlt : i < d.entries.length := by omega
  have hentry := h.get hlt hi
  simp only [List.get_eq_getElem, hget] at hentry
  refine ⟨d.entries[i].2, ?_, hentry.2⟩
  rw [hentry.1, ← Dict.mem_entries_iff]
  exact List.getElem_mem _

/-- No row is found for an absent key. -/
theorem Hold.find?_of_none (h : Hold key holds d rows) (hk : d.get? k = none) :
    rows.find? (fun row => key row = k) = none := by
  rw [List.find?_eq_none]
  intro row hrow hkey
  obtain ⟨v, hv, -⟩ := h.get?_of_mem hrow
  rw [of_decide_eq_true hkey, hk] at hv
  cases hv

/-- The row that is found for a key holds its value. -/
theorem Hold.find?_of_some (h : Hold key holds d rows) (hk : d.get? k = some v) :
    ∃ row ∈ rows, rows.find? (fun row => key row = k) = some row ∧ key row = k ∧ holds v row := by
  have hmem : k ∈ rows.map key := by
    rw [h.keys, Dict.mem_keys_iff, hk]
    rfl
  obtain ⟨row, hrow, hkey⟩ := List.mem_map.mp hmem
  have hsome : (rows.find? fun row => key row = k).isSome := by
    rw [List.find?_isSome]
    exact ⟨row, hrow, decide_eq_true hkey⟩
  obtain ⟨found, hfound⟩ := Option.isSome_iff_exists.mp hsome
  have hfoundKey : key found = k := by simpa using List.find?_some hfound
  have hfoundMem := List.mem_of_find?_eq_some hfound
  obtain ⟨v', hv', hholds⟩ := h.get?_of_mem hfoundMem
  rw [hfoundKey, hk] at hv'
  cases hv'
  exact ⟨found, hfoundMem, hfound, hfoundKey, hholds⟩

section Changes

/-- An entry and its row. -/
private def Entry (key : R → K) (holds : V → R → Prop) (e : K × V) (row : R) : Prop :=
  key row = e.1 ∧ holds e.2 row

variable {entries : List (K × V)}

omit [DecidableEq K] in
/-- Rows of other keys hold what they have held. -/
theorem entries_of_absent (h : List.Forall₂ (Entry key holds) entries rows)
    (habsent : k ∉ entries.map Prod.fst) (hkept : ∀ v row, key row ≠ k → holds v row → holds' v row) :
    List.Forall₂ (Entry key holds') entries rows := by
  induction h with
  | nil => exact .nil
  | @cons e row _ _ hhead _ ih =>
    rw [List.map_cons, List.mem_cons, not_or] at habsent
    have hother : key row ≠ k := fun heq => habsent.1 (heq.symm.trans hhead.1)
    exact .cons ⟨hhead.1, hkept _ _ hother hhead.2⟩ (ih habsent.2)

/-- Rows without a key are not updated. -/
theorem update_of_absent (h : List.Forall₂ (Entry key holds) entries rows)
    (habsent : k ∉ entries.map Prod.fst) (change : R → R) : update key k change rows = rows := by
  induction h with
  | nil => rfl
  | @cons e row _ _ hhead _ ih =>
    rw [List.map_cons, List.mem_cons, not_or] at habsent
    have hother : key row ≠ k := fun heq => habsent.1 (heq.symm.trans hhead.1)
    unfold update at ih ⊢
    rw [List.map_cons, if_neg hother, ih habsent.2]

/-- An update of the rows of a key changes its value. -/
theorem Hold.set (h : Hold key holds d rows) {v₀ : V} (hk : d.get? k = some v₀) {change : R → R}
    (hkey : ∀ row, key (change row) = key row)
    (hchanged : ∀ row, key row = k → holds v₀ row → holds' v (change row))
    (hkept : ∀ v' row, key row ≠ k → holds v' row → holds' v' row) :
    Hold key holds' (d.set k v) (update key k change rows) := by
  obtain ⟨entries, hnodup⟩ := d
  change List.Forall₂ (Entry key holds) entries rows at h
  change Ordered.getEntry k entries = some v₀ at hk
  change List.Forall₂ (Entry key holds') (Ordered.putEntry k v entries) (update key k change rows)
  induction h with
  | nil => cases hk
  | @cons e row entries rows hhead hrest ih =>
    obtain ⟨k', v'⟩ := e
    rw [List.map_cons, List.nodup_cons] at hnodup
    by_cases heq : k' = k
    · subst heq
      rw [Ordered.getEntry, if_pos rfl] at hk
      cases hk
      have hrow : update key k' change (row :: rows) = change row :: rows := by
        have hrest' := update_of_absent hrest hnodup.1 change
        unfold update at hrest' ⊢
        rw [List.map_cons, if_pos hhead.1, hrest']
      rw [hrow, Ordered.putEntry, if_pos rfl]
      exact .cons ⟨(hkey row).trans hhead.1, hchanged row hhead.1 hhead.2⟩
        (entries_of_absent hrest hnodup.1 hkept)
    · rw [Ordered.getEntry, if_neg heq] at hk
      have hother : key row ≠ k := fun hrow => heq (hhead.1.symm.trans hrow)
      have hrow : update key k change (row :: rows) = row :: update key k change rows := by
        unfold update
        rw [List.map_cons, if_neg hother]
      rw [hrow, Ordered.putEntry, if_neg heq]
      exact .cons ⟨hhead.1, hkept v' row hother hhead.2⟩ (ih hnodup.2 hk)

/-- A row of a new key adds its value. -/
theorem Hold.insert (h : Hold key holds d rows) (hk : d.get? k = none) {row : R} (hkey : key row = k)
    (hnew : holds' v row) (hkept : ∀ v' row, key row ≠ k → holds v' row → holds' v' row) :
    Hold key holds' (d.set k v) (rows ++ [row]) := by
  unfold Hold
  rw [d.entries_set_of_none hk]
  apply List.rel_append
  · exact entries_of_absent h ((d.get?_eq_none_iff k).mp hk) hkept
  · exact .cons ⟨hkey, hnew⟩ .nil

/-- Without the rows of a key its value is gone. -/
theorem Hold.erase (h : Hold key holds d rows)
    (hkept : ∀ v' row, key row ≠ k → holds v' row → holds' v' row) :
    Hold key holds' (d.erase k) (delete key k rows) := by
  change List.Forall₂ (Entry key holds') (d.entries.filter fun e => decide (e.1 ≠ k)) _
  unfold Hold at h
  generalize d.entries = entries at h
  induction h with
  | nil => exact .nil
  | @cons e row entries rows hhead _ ih =>
    unfold delete at ih ⊢
    by_cases heq : e.1 = k
    · rw [List.filter_cons_of_neg (by simp [heq]), List.filter_cons_of_neg (by simp [hhead.1, heq])]
      exact ih
    · have hother : key row ≠ k := fun hrow => heq (hhead.1.symm.trans hrow)
      rw [List.filter_cons_of_pos (by simp [heq]), List.filter_cons_of_pos (by simp [hother])]
      exact .cons ⟨hhead.1, hkept e.2 row hother hhead.2⟩ ih

end Changes

omit [DecidableEq K] in
/-- A value is found by a property exactly where a row with the property is found. -/
theorem Hold.find?_value (h : Hold key holds d rows) {p : V → Bool} {q : R → Bool}
    (hpq : ∀ v row, holds v row → p v = q row) :
    Option.Rel holds (d.values.find? p) (rows.find? q) := by
  have hvalues := h.values
  clear h
  generalize d.values = values at hvalues
  induction hvalues with
  | nil => exact .none
  | @cons v row values rows hhead _ ih =>
    cases hp : p v with
    | true =>
      rw [List.find?_cons_of_pos hp, List.find?_cons_of_pos ((hpq v row hhead).symm.trans hp)]
      exact .some hhead
    | false =>
      have hq : q row = false := (hpq v row hhead).symm.trans hp
      rw [List.find?_cons_of_neg (by simp [hp]), List.find?_cons_of_neg (by simp [hq])]
      exact ih

end Rows
