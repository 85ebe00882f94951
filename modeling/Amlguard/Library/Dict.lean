import Mathlib.Data.List.Induction
import Mathlib.Data.List.Nodup
import Mathlib.Algebra.BigOperators.Group.List.Basic
import Mathlib.Tactic.Abel

/-!
# Dictionaries that keep their insertion order

A dictionary is a list of entries whose keys are pairwise distinct; the distinctness is a
field. Setting a present key replaces its value in place and setting a new one appends it,
so iteration visits the entries in the order of first insertion. A table of a database is
the same structure read without regard to the order.
-/

namespace Ordered

variable {K V : Type} [DecidableEq K]

/-- The value of the first entry with the given key. -/
def getEntry (k : K) : List (K × V) → Option V
  | [] => none
  | (k', v) :: rest => if k' = k then some v else getEntry k rest

/-- Replace the value of the given key in place, or append a new entry. -/
def putEntry (k : K) (v : V) : List (K × V) → List (K × V)
  | [] => [(k, v)]
  | (k', v') :: rest => if k' = k then (k', v) :: rest else (k', v') :: putEntry k v rest

/-- Setting a key adds it to the keys and changes no other. -/
theorem mem_keys_putEntry (k k' : K) (v : V) (entries : List (K × V)) :
    k' ∈ (putEntry k v entries).map Prod.fst ↔ k' = k ∨ k' ∈ entries.map Prod.fst := by
  induction entries with
  | nil => simp [putEntry]
  | cons e rest ih =>
    obtain ⟨key, value⟩ := e
    by_cases h : key = k
    · subst h
      simp [putEntry]
    · simp only [putEntry, if_neg h, List.map_cons, List.mem_cons, ih]
      tauto

/-- Setting a key keeps the keys distinct. -/
theorem nodup_putEntry (k : K) (v : V) (entries : List (K × V))
    (h : (entries.map Prod.fst).Nodup) : ((putEntry k v entries).map Prod.fst).Nodup := by
  induction entries with
  | nil => simp [putEntry]
  | cons e rest ih =>
    obtain ⟨key, value⟩ := e
    rw [List.map_cons, List.nodup_cons] at h
    by_cases hk : key = k
    · simpa [putEntry, hk] using h
    · simp only [putEntry, if_neg hk, List.map_cons, List.nodup_cons]
      refine ⟨fun hmem => ?_, ih h.2⟩
      rcases (mem_keys_putEntry k key v rest).mp hmem with heq | hrest
      · exact hk heq
      · exact h.1 hrest

/-- Reading after a write. -/
theorem getEntry_putEntry (k k' : K) (v : V) (entries : List (K × V)) :
    getEntry k' (putEntry k v entries) = if k = k' then some v else getEntry k' entries := by
  induction entries with
  | nil => simp [putEntry, getEntry]
  | cons e rest ih =>
    obtain ⟨key, value⟩ := e
    by_cases hk : key = k
    · subst hk
      by_cases hk' : key = k' <;> simp [putEntry, getEntry, hk']
    · simp only [putEntry, if_neg hk, getEntry, ih]
      by_cases hkey : key = k'
      · subst hkey
        simp [Ne.symm hk]
      · simp [hkey]

/-- With distinct keys an entry is present exactly when its key reads its value. -/
theorem mem_iff_getEntry (entries : List (K × V)) (h : (entries.map Prod.fst).Nodup)
    (k : K) (v : V) : (k, v) ∈ entries ↔ getEntry k entries = some v := by
  induction entries with
  | nil => simp [getEntry]
  | cons e rest ih =>
    obtain ⟨key, value⟩ := e
    rw [List.map_cons, List.nodup_cons] at h
    by_cases hk : key = k
    · subst hk
      have hnot : (key, v) ∉ rest := fun hmem => h.1 (List.mem_map.mpr ⟨(key, v), hmem, rfl⟩)
      simp [getEntry, hnot, eq_comm]
    · simp [getEntry, hk, ih h.2, Ne.symm hk]

/-- A total over the entries changes by the difference at the key that is set. -/
theorem sum_putEntry {M : Type} [AddCommGroup M] (f : K → V → M) (k : K) (v : V)
    (entries : List (K × V)) :
    ((putEntry k v entries).map fun e => f e.1 e.2).sum =
      (entries.map fun e => f e.1 e.2).sum - (getEntry k entries).elim 0 (f k) + f k v := by
  induction entries with
  | nil => simp [putEntry, getEntry]
  | cons e rest ih =>
    obtain ⟨key, value⟩ := e
    by_cases hk : key = k
    · subst hk
      simp only [putEntry, getEntry, if_true, List.map_cons, List.sum_cons, Option.elim_some]
      abel
    · simp only [putEntry, getEntry, if_neg hk, List.map_cons, List.sum_cons, ih]
      abel

/-- Without its own entry a key reads nothing, and the total loses what it added. -/
theorem sum_filter_ne {M : Type} [AddCommGroup M] (f : K → V → M) (k : K)
    (entries : List (K × V)) (h : (entries.map Prod.fst).Nodup) :
    ((entries.filter fun e => decide (e.1 ≠ k)).map fun e => f e.1 e.2).sum =
      (entries.map fun e => f e.1 e.2).sum - (getEntry k entries).elim 0 (f k) := by
  induction entries with
  | nil => simp [getEntry]
  | cons e rest ih =>
    obtain ⟨key, value⟩ := e
    rw [List.map_cons, List.nodup_cons] at h
    by_cases hk : key = k
    · subst hk
      have hrest : rest.filter (fun e => decide (e.1 ≠ key)) = rest := by
        rw [List.filter_eq_self]
        intro e he
        exact decide_eq_true fun heq => h.1 (List.mem_map.mpr ⟨e, he, heq⟩)
      rw [List.filter_cons_of_neg (by simp), hrest]
      simp [getEntry]
    · rw [List.filter_cons_of_pos (by simpa using hk)]
      simp only [List.map_cons, List.sum_cons, getEntry, if_neg hk, ih h.2]
      abel

end Ordered

/-- Entries with pairwise distinct keys, in the order of their first insertion. -/
structure Dict (K V : Type) where
  entries : List (K × V)
  nodup : (entries.map Prod.fst).Nodup

namespace Dict

open Ordered

variable {K V : Type}

/-- The dictionary without entries. -/
def empty : Dict K V := ⟨[], List.nodup_nil⟩

instance : Inhabited (Dict K V) := ⟨empty⟩

/-- Dictionaries with the same entries are the same. -/
theorem eq_of_entries {d d' : Dict K V} (h : d.entries = d'.entries) : d = d' := by
  cases d
  cases d'
  cases h
  rfl

/-- The keys in order of insertion. -/
def keys (d : Dict K V) : List K := d.entries.map Prod.fst

/-- The values in order of insertion of their keys. -/
def values (d : Dict K V) : List V := d.entries.map Prod.snd

/-- The total of a quantity over all entries. -/
def sum {M : Type} [AddCommMonoid M] (d : Dict K V) (f : K → V → M) : M :=
  (d.entries.map fun e => f e.1 e.2).sum

variable [DecidableEq K]

/-- The value stored under a key. -/
def get? (d : Dict K V) (k : K) : Option V := getEntry k d.entries

/-- Store a value under a key. -/
def set (d : Dict K V) (k : K) (v : V) : Dict K V :=
  ⟨putEntry k v d.entries, nodup_putEntry k v d.entries d.nodup⟩

/-- Remove a key. -/
def erase (d : Dict K V) (k : K) : Dict K V :=
  ⟨d.entries.filter fun e => decide (e.1 ≠ k),
    d.nodup.sublist (List.filter_sublist.map Prod.fst)⟩

/-- Whether a key is present. -/
def contains (d : Dict K V) (k : K) : Bool := (d.get? k).isSome

@[simp] theorem get?_empty (k : K) : (empty : Dict K V).get? k = none := rfl

/-- Keep the entries that a function maps to a value. -/
def filterMap {V' : Type} (d : Dict K V) (f : K → V → Option V') : Dict K V' :=
  ⟨d.entries.filterMap fun e => (f e.1 e.2).map fun v => (e.1, v), by
    refine d.nodup.sublist ?_
    generalize d.entries = entries
    induction entries with
    | nil => exact .slnil
    | cons e rest ih =>
      cases hf : f e.1 e.2 with
      | none =>
        rw [List.filterMap_cons_none (by simp [hf])]
        exact ih.cons _
      | some v =>
        rw [List.filterMap_cons_some (b := (e.1, v)) (by simp [hf])]
        exact ih.cons_cons _⟩

/-- Change every value. -/
def map {V' : Type} (d : Dict K V) (f : V → V') : Dict K V' :=
  ⟨d.entries.map fun e => (e.1, f e.2), by rw [List.map_map]; exact d.nodup⟩

/-- Reading after a write. -/
theorem get?_set (d : Dict K V) (k k' : K) (v : V) :
    (d.set k v).get? k' = if k = k' then some v else d.get? k' :=
  getEntry_putEntry k k' v d.entries

@[simp] theorem get?_set_self (d : Dict K V) (k : K) (v : V) : (d.set k v).get? k = some v := by
  rw [get?_set, if_pos rfl]

/-- A write changes no other key. -/
theorem get?_set_ne (d : Dict K V) {k k' : K} (h : k ≠ k') (v : V) :
    (d.set k v).get? k' = d.get? k' := by
  rw [get?_set, if_neg h]

/-- An entry is listed exactly when its key reads its value. -/
theorem mem_entries_iff (d : Dict K V) (k : K) (v : V) :
    (k, v) ∈ d.entries ↔ d.get? k = some v :=
  mem_iff_getEntry d.entries d.nodup k v

/-- A key reads nothing exactly when it is not among the keys. -/
theorem get?_eq_none_iff (d : Dict K V) (k : K) : d.get? k = none ↔ k ∉ d.keys := by
  constructor
  · intro hnone hmem
    obtain ⟨e, he, rfl⟩ := List.mem_map.mp hmem
    rw [(d.mem_entries_iff e.1 e.2).mp he] at hnone
    cases hnone
  · intro hnot
    apply Option.eq_none_iff_forall_not_mem.mpr
    intro v hv
    exact hnot (List.mem_map.mpr ⟨(k, v), (d.mem_entries_iff k v).mpr hv, rfl⟩)

/-- A new entry comes last. -/
theorem entries_set_of_none (d : Dict K V) {k : K} (h : d.get? k = none) (v : V) :
    (d.set k v).entries = d.entries ++ [(k, v)] := by
  change getEntry k d.entries = none at h
  change putEntry k v d.entries = _
  generalize d.entries = entries at h
  induction entries with
  | nil => rfl
  | cons e rest ih =>
    obtain ⟨key, value⟩ := e
    by_cases hk : key = k
    · simp [getEntry, hk] at h
    · rw [getEntry, if_neg hk] at h
      rw [putEntry, if_neg hk, ih h, List.cons_append]

/-- A new value comes last. -/
theorem values_set_of_none (d : Dict K V) {k : K} (h : d.get? k = none) (v : V) :
    (d.set k v).values = d.values ++ [v] := by
  rw [values, entries_set_of_none d h, List.map_append]
  rfl

/-- Writing over an entry keeps what a function sees of the values when it sees no difference. -/
theorem map_values_set {W : Type} (d : Dict K V) (f : V → W) {k : K} {v v' : V}
    (h : d.get? k = some v) (hf : f v' = f v) : (d.set k v').values.map f = d.values.map f := by
  change getEntry k d.entries = some v at h
  change ((putEntry k v' d.entries).map Prod.snd).map f = (d.entries.map Prod.snd).map f
  generalize d.entries = entries at h
  induction entries with
  | nil => cases h
  | cons e rest ih =>
    obtain ⟨key, value⟩ := e
    by_cases hk : key = k
    · rw [getEntry, if_pos hk] at h
      cases h
      rw [putEntry, if_pos hk, List.map_cons, List.map_cons, List.map_cons, List.map_cons, hf]
    · rw [getEntry, if_neg hk] at h
      rw [putEntry, if_neg hk, List.map_cons, List.map_cons, List.map_cons, List.map_cons, ih h]

/-- Setting a key to its value changes nothing. -/
theorem set_of_get? (d : Dict K V) {k : K} {v : V} (h : d.get? k = some v) : d.set k v = d := by
  apply eq_of_entries
  change putEntry k v d.entries = d.entries
  change getEntry k d.entries = some v at h
  generalize d.entries = entries at h
  induction entries with
  | nil => cases h
  | cons e rest ih =>
    obtain ⟨key, value⟩ := e
    by_cases hk : key = k
    · rw [getEntry, if_pos hk] at h
      rw [putEntry, if_pos hk, Option.some.inj h]
    · rw [getEntry, if_neg hk] at h
      rw [putEntry, if_neg hk, ih h]

/-- The keys after a write. -/
theorem mem_keys_set (d : Dict K V) (k k' : K) (v : V) : k' ∈ (d.set k v).keys ↔ k' = k ∨ k' ∈ d.keys :=
  mem_keys_putEntry k k' v d.entries

/-- Reading a mapped dictionary. -/
theorem get?_filterMap {V' : Type} (d : Dict K V) (f : K → V → Option V') (k : K) :
    (d.filterMap f).get? k = (d.get? k).bind (f k) := by
  apply Option.ext
  intro v
  rw [← mem_entries_iff, Option.bind_eq_some_iff]
  simp only [filterMap, List.mem_filterMap, Option.map_eq_some_iff, Prod.mk.injEq]
  constructor
  · rintro ⟨e, he, v', hv', rfl, rfl⟩
    exact ⟨e.2, (d.mem_entries_iff e.1 e.2).mp he, hv'⟩
  · rintro ⟨u, hu, hv⟩
    exact ⟨(k, u), (d.mem_entries_iff k u).mpr hu, v, hv, rfl, rfl⟩

/-- Reading after a removal. -/
theorem get?_erase (d : Dict K V) (k k' : K) :
    (d.erase k).get? k' = if k = k' then none else d.get? k' := by
  apply Option.ext
  intro v
  rw [← mem_entries_iff]
  by_cases h : k = k'
  · subst h
    simp [erase]
  · simp [erase, h, Ne.symm h, mem_entries_iff]

@[simp] theorem get?_erase_self (d : Dict K V) (k : K) : (d.erase k).get? k = none := by
  rw [get?_erase, if_pos rfl]

/-- A removal changes no other key. -/
theorem get?_erase_ne (d : Dict K V) {k k' : K} (h : k ≠ k') :
    (d.erase k).get? k' = d.get? k' := by
  rw [get?_erase, if_neg h]

/-- Erasing an absent key changes nothing. -/
theorem erase_of_none (d : Dict K V) {k : K} (h : d.get? k = none) : d.erase k = d := by
  obtain ⟨entries, hnodup⟩ := d
  have habsent := (get?_eq_none_iff _ k).mp h
  unfold erase
  congr
  apply List.filter_eq_self.mpr
  intro e he
  have hmem : e.1 ∈ (⟨entries, hnodup⟩ : Dict K V).keys := List.mem_map_of_mem he
  rw [decide_eq_true_eq]
  rintro rfl
  exact habsent hmem

/-- A stored value is one of the values. -/
theorem mem_values_of_get? (d : Dict K V) {k : K} {v : V} (h : d.get? k = some v) :
    v ∈ d.values :=
  List.mem_map.mpr ⟨(k, v), (d.mem_entries_iff k v).mpr h, rfl⟩

/-- Every value is stored under some key. -/
theorem exists_get?_of_mem_values (d : Dict K V) {v : V} (h : v ∈ d.values) :
    ∃ k, d.get? k = some v := by
  obtain ⟨⟨k, v'⟩, hmem, rfl⟩ := List.mem_map.mp h
  exact ⟨k, (d.mem_entries_iff k v').mp hmem⟩

/-- The keys that read a value are those of the entries. -/
theorem mem_keys_iff (d : Dict K V) (k : K) : k ∈ d.keys ↔ (d.get? k).isSome := by
  rw [Option.isSome_iff_ne_none, Ne, get?_eq_none_iff, not_not]

/-- The values are what the keys read. -/
theorem values_eq_filterMap (d : Dict K V) : d.values = d.keys.filterMap d.get? := by
  have hread : ∀ e ∈ d.entries, d.get? e.1 = some e.2 := fun e he => (d.mem_entries_iff e.1 e.2).mp he
  rw [keys, List.filterMap_map, values, ← List.filterMap_eq_map]
  apply List.filterMap_congr
  intro e he
  exact (hread e he).symm

/-- Two dictionaries in which every key reads the same have the same values, in some order. -/
theorem map_values_perm {V' W : Type} {d : Dict K V} {d' : Dict K V'} {f : V → W} {f' : V' → W}
    (h : ∀ k, (d.get? k).map f = (d'.get? k).map f') :
    (d.values.map f).Perm (d'.values.map f') := by
  have hkeys : d.keys.Perm d'.keys := by
    apply (List.perm_ext_iff_of_nodup d.nodup d'.nodup).mpr
    intro k
    change k ∈ d.keys ↔ k ∈ d'.keys
    rw [mem_keys_iff, mem_keys_iff, ← Option.isSome_map (f := f), h, Option.isSome_map]
  rw [values_eq_filterMap, values_eq_filterMap, List.map_filterMap, List.map_filterMap]
  simp only [h]
  exact hkeys.filterMap _

/-- Values that carry the keys they are stored under are told apart by them. -/
theorem eq_of_map_values {W : Type} {d : Dict K V} {f : V → W} {key : W → K}
    (h : ∀ k v, d.get? k = some v → key (f v) = k) :
    ∀ a ∈ d.values.map f, ∀ b ∈ d.values.map f, key a = key b → a = b := by
  intro a ha b hb hab
  obtain ⟨v, hv, rfl⟩ := List.mem_map.mp ha
  obtain ⟨v', hv', rfl⟩ := List.mem_map.mp hb
  obtain ⟨k, hget⟩ := d.exists_get?_of_mem_values hv
  obtain ⟨k', hget'⟩ := d.exists_get?_of_mem_values hv'
  rw [h k v hget, h k' v' hget'] at hab
  subst hab
  rw [hget] at hget'
  cases hget'
  rfl

/-- A total after a write. -/
theorem sum_set {M : Type} [AddCommGroup M] (d : Dict K V) (f : K → V → M) (k : K) (v : V) :
    (d.set k v).sum f = d.sum f - (d.get? k).elim 0 (f k) + f k v :=
  sum_putEntry f k v d.entries

/-- A total after a removal. -/
theorem sum_erase {M : Type} [AddCommGroup M] (d : Dict K V) (f : K → V → M) (k : K) :
    (d.erase k).sum f = d.sum f - (d.get? k).elim 0 (f k) :=
  sum_filter_ne f k d.entries d.nodup

/-- Store the values of a list of entries, the later ones over the earlier. -/
def update (d : Dict K V) (entries : List (K × V)) : Dict K V :=
  entries.foldl (fun d entry => d.set entry.1 entry.2) d

/-- What is read after an update is what it stores, or else what was there. -/
theorem get?_update (d : Dict K V) (entries : List (K × V)) (k : K) :
    (d.update entries).get? k = ((empty.update entries).get? k).or (d.get? k) := by
  unfold update
  induction entries using List.reverseRecOn with
  | nil => rfl
  | append_singleton entries entry ih =>
    simp only [List.foldl_append, List.foldl_cons, List.foldl_nil, get?_set]
    split
    · rfl
    · exact ih

/-- A key whose entries all hold one value reads it. -/
theorem get?_update_of_agree (d : Dict K V) {entries : List (K × V)} {k : K} {v : V}
    (hagree : ∀ entry ∈ entries, entry.1 = k → entry.2 = v) (hkey : ∃ entry ∈ entries, entry.1 = k) :
    (d.update entries).get? k = some v := by
  unfold update
  induction entries using List.reverseRecOn with
  | nil =>
    obtain ⟨entry, hmem, -⟩ := hkey
    cases hmem
  | append_singleton entries entry ih =>
    simp only [List.foldl_append, List.foldl_cons, List.foldl_nil, get?_set]
    split
    · rename_i hlast
      rw [hagree entry (by simp) hlast]
    · rename_i hlast
      apply ih
      · exact fun e he => hagree e (List.mem_append_left _ he)
      · obtain ⟨e, he, hk⟩ := hkey
        rcases List.mem_append.mp he with he | he
        · exact ⟨e, he, hk⟩
        · rw [List.mem_singleton.mp he] at hk
          exact absurd hk hlast

/-- A dictionary made of entries with distinct keys reads what they hold. -/
theorem get?_ofEntries (entries : List (K × V)) (h : (entries.map Prod.fst).Nodup) (k : K) :
    (empty.update entries).get? k = (entries.find? fun entry => entry.1 = k).map Prod.snd := by
  induction entries with
  | nil => rfl
  | cons entry rest ih =>
    rw [List.map_cons, List.nodup_cons] at h
    change ((empty.set entry.1 entry.2).update rest).get? k = _
    rw [get?_update, ih h.2, get?_set, List.find?_cons]
    by_cases hk : entry.1 = k
    · have habsent : (rest.find? fun entry => entry.1 = k) = none := by
        rw [List.find?_eq_none]
        intro later hmem
        rw [decide_eq_true_eq]
        rintro rfl
        exact h.1 (hk ▸ List.mem_map_of_mem hmem)
      simp [hk, habsent]
    · simp [hk]

/-- A dictionary made of entries with distinct keys holds all of them, in their order. -/
theorem entries_ofEntries (entries : List (K × V)) (h : (entries.map Prod.fst).Nodup) :
    (empty.update entries).entries = entries := by
  induction entries using List.reverseRecOn with
  | nil => rfl
  | append_singleton entries entry ih =>
    rw [List.map_append, List.nodup_append] at h
    obtain ⟨hnodup, -, hdisjoint⟩ := h
    have habsent : (empty.update entries).get? entry.1 = none := by
      rw [get?_eq_none_iff, keys, ih hnodup]
      exact fun hmem => hdisjoint _ hmem _ (List.mem_singleton_self _) rfl
    have hlast : empty.update (entries ++ [entry]) = (empty.update entries).set entry.1 entry.2 :=
      List.foldl_append
    rw [hlast, entries_set_of_none _ habsent, ih hnodup]

section Restriction

variable (own : K → Bool)

/-- The entries whose keys belong to an owner. -/
def restrict (d : Dict K V) : Dict K V :=
  ⟨d.entries.filter fun e => own e.1, d.nodup.sublist (List.filter_sublist.map Prod.fst)⟩

/-- Reading the entries of an owner. -/
theorem get?_restrict (d : Dict K V) (k : K) :
    (d.restrict own).get? k = if own k then d.get? k else none := by
  apply Option.ext
  intro v
  rw [← mem_entries_iff]
  by_cases hk : own k = true
  · simp [restrict, hk, mem_entries_iff]
  · simp [restrict, hk]

/-- A key of the owner reads the same. -/
theorem get?_restrict_of_own (d : Dict K V) {own : K → Bool} {k : K} (hk : own k = true) :
    (d.restrict own).get? k = d.get? k := by
  rw [get?_restrict, if_pos hk]

/-- A write to a key of the owner is one to the entries of the owner, and no other write is. -/
theorem restrict_set (d : Dict K V) (k : K) (v : V) :
    (d.set k v).restrict own = if own k then (d.restrict own).set k v else d.restrict own := by
  obtain ⟨entries, hnodup⟩ := d
  have hentries : (Ordered.putEntry k v entries).filter (fun e => own e.1) =
      if own k then Ordered.putEntry k v (entries.filter fun e => own e.1)
      else entries.filter fun e => own e.1 := by
    clear hnodup
    induction entries with
    | nil =>
      by_cases hk : own k = true
      · simp [Ordered.putEntry, hk]
      · simp [Ordered.putEntry, hk]
    | cons e rest ih =>
      obtain ⟨key, value⟩ := e
      by_cases heq : key = k
      · subst heq
        by_cases hk : own key = true
        · simp [Ordered.putEntry, hk]
        · simp [Ordered.putEntry, hk]
      · by_cases hk : own k = true
        · by_cases hkey : own key = true
          · simp [Ordered.putEntry, heq, hk, hkey, ih]
          · simp [Ordered.putEntry, heq, hk, hkey, ih]
        · simp [Ordered.putEntry, heq, hk, ih, List.filter_cons]
  by_cases hk : own k = true
  · rw [if_pos hk] at hentries ⊢
    exact eq_of_entries hentries
  · rw [if_neg hk] at hentries ⊢
    exact eq_of_entries hentries

/-- A removal of a key is one from the entries of the owner. -/
theorem restrict_erase (d : Dict K V) (k : K) :
    (d.erase k).restrict own = (d.restrict own).erase k := by
  apply eq_of_entries
  simp only [restrict, erase, List.filter_filter, Bool.and_comm]

/-- What only an entry of the owner satisfies is found among the entries of the owner. -/
theorem find?_restrict (d : Dict K V) {own : K → Bool} (p : V → Bool)
    (h : ∀ k v, d.get? k = some v → p v = true → own k = true) :
    (d.restrict own).values.find? p = d.values.find? p := by
  have hentries : ∀ e ∈ d.entries, p e.2 = true → own e.1 = true :=
    fun e he => h e.1 e.2 ((d.mem_entries_iff e.1 e.2).mp he)
  change ((d.entries.filter fun e => own e.1).map Prod.snd).find? p = (d.entries.map Prod.snd).find? p
  generalize d.entries = entries at hentries
  induction entries with
  | nil => rfl
  | cons e rest ih =>
    have hrest := ih fun e' he' => hentries e' (List.mem_cons_of_mem _ he')
    by_cases hp : p e.2 = true
    · have hk := hentries e List.mem_cons_self hp
      simp [hk, hp]
    · by_cases hk : own e.1 = true
      · simp [hk, hp, hrest]
      · simp [hk, hp, hrest]

end Restriction

section Map

variable {V' : Type} (d : Dict K V) (f : V → V')

/-- Reading a changed value. -/
theorem get?_map (k : K) : (d.map f).get? k = (d.get? k).map f := by
  obtain ⟨entries, hnodup⟩ := d
  change getEntry k (entries.map fun e => (e.1, f e.2)) = (getEntry k entries).map f
  clear hnodup
  induction entries with
  | nil => rfl
  | cons e rest ih =>
    obtain ⟨key, value⟩ := e
    simp only [List.map_cons, getEntry]
    by_cases hk : key = k
    · simp [hk]
    · simp [hk, ih]

omit [DecidableEq K] in
/-- Changed values stand in the same order. -/
theorem values_map : (d.map f).values = d.values.map f := by
  simp [values, map]

omit [DecidableEq K] in
/-- The keys stay as they are. -/
theorem keys_map : (d.map f).keys = d.keys := by
  simp [keys, map]

/-- A value that is set is changed like the others. -/
theorem map_set (k : K) (v : V) : (d.set k v).map f = (d.map f).set k (f v) := by
  apply eq_of_entries
  obtain ⟨entries, hnodup⟩ := d
  change (putEntry k v entries).map (fun e => (e.1, f e.2)) =
    putEntry k (f v) (entries.map fun e => (e.1, f e.2))
  clear hnodup
  induction entries with
  | nil => rfl
  | cons e rest ih =>
    obtain ⟨key, value⟩ := e
    by_cases hk : key = k
    · simp [putEntry, hk]
    · simp [putEntry, hk, ih]

/-- A removal leaves the other values changed. -/
theorem map_erase (k : K) : (d.erase k).map f = (d.map f).erase k := by
  apply eq_of_entries
  simp [map, erase, List.filter_map, Function.comp_def]

end Map

end Dict
