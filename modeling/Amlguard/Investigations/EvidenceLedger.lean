import Amlguard.Investigations.Controls

/-!
# Filling the evidence ledger

A ledger is filled at once from a list, or one item after another. `add` compares the content hash
of an item with that of the item it would replace, and refuses another content under the same ID.
The constructor compares nothing: the later item takes the place of the earlier one.

`validate_controls` fills its ledger with the constructor. The two ways agree exactly on the lists
that never use an ID for two contents.
-/

namespace Amlguard

/-- An ID that is used for another content. -/
def evidenceCollision (id : String) : PyError := .valueError ("evidence ID collision: " ++ id)

namespace EvidenceLedger

/-- `EvidenceLedger(items)` as a call: it raises nothing. -/
def construct (items : List EvidenceItem) : Except PyError EvidenceLedger := .ok (ofItems items)

/-- `add`. -/
def add (ledger : EvidenceLedger) (item : EvidenceItem) : Except PyError EvidenceLedger :=
  match ledger.entries.get? item.evidenceId with
  | some previous =>
    if previous.contentHash ≠ item.contentHash then .error (evidenceCollision item.evidenceId)
    else .ok ⟨ledger.entries.set item.evidenceId item⟩
  | none => .ok ⟨ledger.entries.set item.evidenceId item⟩

/-- The items are added one by one to an empty ledger. -/
def addAll (items : List EvidenceItem) : Except PyError EvidenceLedger := items.foldlM add ⟨.empty⟩

/-- An item agrees with what is filed under its ID. -/
def Agrees (entries : Dict String EvidenceItem) (item : EvidenceItem) : Prop :=
  ∀ previous, entries.get? item.evidenceId = some previous → previous.contentHash = item.contentHash

/-- No ID is used for two contents. -/
def KeptApart (items : List EvidenceItem) : Prop :=
  ∀ a ∈ items, ∀ b ∈ items, a.evidenceId = b.evidenceId → a.contentHash = b.contentHash

instance (items : List EvidenceItem) : Decidable (KeptApart items) :=
  inferInstanceAs (Decidable (∀ a ∈ items, ∀ b ∈ items, _ → _))

section Adding

variable {ledger ledger' : EvidenceLedger} {item : EvidenceItem} {items : List EvidenceItem}

/-- An item is added exactly when it agrees with what is filed under its ID. -/
theorem add_eq_ok : ledger.add item = .ok ledger' ↔
    Agrees ledger.entries item ∧ ledger' = ⟨ledger.entries.set item.evidenceId item⟩ := by
  unfold add Agrees
  cases hfiled : ledger.entries.get? item.evidenceId with
  | none => simp [eq_comm]
  | some previous =>
    by_cases hhash : previous.contentHash = item.contentHash
    · simp [hhash, eq_comm]
    · simp [hhash]

/-- What is refused is an ID that is filed with another content. -/
theorem add_eq_error {e : PyError} (h : ledger.add item = .error e) :
    e = evidenceCollision item.evidenceId ∧ ¬Agrees ledger.entries item := by
  unfold add at h
  split at h
  · rename_i previous hfiled
    split at h
    · rename_i hhash
      cases h
      exact ⟨rfl, fun hagrees => hhash (hagrees previous hfiled)⟩
    · cases h
  · cases h

/-- After an item is filed, the others agree with the ledger as before, and with it. -/
theorem agrees_set {entries : Dict String EvidenceItem} {other : EvidenceItem}
    (hitem : Agrees entries item) : Agrees (entries.set item.evidenceId item) other ↔
      Agrees entries other ∧ (item.evidenceId = other.evidenceId → item.contentHash = other.contentHash) := by
  unfold Agrees
  rw [Dict.get?_set]
  by_cases hid : item.evidenceId = other.evidenceId
  · rw [if_pos hid]
    constructor
    · intro hother
      have hhash := hother item rfl
      exact ⟨fun previous hfiled => (hitem previous (hid ▸ hfiled)).trans hhash, fun _ => hhash⟩
    · rintro ⟨-, hhash⟩ previous ⟨⟩
      exact hhash hid
  · simp [hid]

/-- A list of items is kept apart when its first item agrees with the others and the rest is. -/
theorem keptApart_cons : KeptApart (item :: items) ↔
    (∀ other ∈ items, item.evidenceId = other.evidenceId → item.contentHash = other.contentHash) ∧
      KeptApart items := by
  constructor
  · intro h
    exact ⟨fun other hother => h item List.mem_cons_self other (List.mem_cons_of_mem _ hother),
      fun a ha b hb => h a (List.mem_cons_of_mem _ ha) b (List.mem_cons_of_mem _ hb)⟩
  · intro ⟨hfirst, hrest⟩ a ha b hb hid
    rcases List.mem_cons.mp ha with hfirsta | hresta
    · subst hfirsta
      rcases List.mem_cons.mp hb with hfirstb | hrestb
      · rw [hfirstb]
      · exact hfirst b hrestb hid
    · rcases List.mem_cons.mp hb with hfirstb | hrestb
      · subst hfirstb
        exact (hfirst a hresta hid.symm).symm
      · exact hrest a hresta b hrestb hid

/-- Adding items to a ledger succeeds when they are kept apart and agree with it, and files what
the constructor files. -/
theorem foldlM_add_eq_ok : items.foldlM add ledger = .ok ledger' ↔
    KeptApart items ∧ (∀ item ∈ items, Agrees ledger.entries item) ∧
      ledger' = ⟨items.foldl (fun entries item => entries.set item.evidenceId item) ledger.entries⟩ := by
  induction items generalizing ledger with
  | nil => simp [KeptApart, pure, Except.pure, eq_comm]
  | cons item items ih =>
    rw [List.foldlM_cons, keptApart_cons, List.forall_mem_cons, List.foldl_cons]
    cases hadd : ledger.add item with
    | ok next =>
      obtain ⟨hagrees, rfl⟩ := add_eq_ok.mp hadd
      change items.foldlM add _ = _ ↔ _
      rw [ih]
      simp only [agrees_set hagrees]
      constructor
      · rintro ⟨hapart, hothers, hledger⟩
        exact ⟨⟨fun other hother => (hothers other hother).2, hapart⟩,
          ⟨hagrees, fun other hother => (hothers other hother).1⟩, hledger⟩
      · rintro ⟨⟨hfirst, hapart⟩, ⟨-, hothers⟩, hledger⟩
        exact ⟨hapart, fun other hother => ⟨hothers other hother, hfirst other hother⟩, hledger⟩
    | error e =>
      have hdisagrees := (add_eq_error hadd).2
      constructor
      · nofun
      · rintro ⟨-, ⟨hagrees, -⟩, -⟩
        exact absurd hagrees hdisagrees

/-- One by one, the items are added exactly when they are kept apart; the ledger is the
constructor's. -/
theorem addAll_eq_ok : addAll items = .ok ledger ↔ KeptApart items ∧ ledger = ofItems items := by
  unfold addAll ofItems
  rw [foldlM_add_eq_ok]
  have hempty : ∀ item ∈ items, Agrees .empty item := fun _ _ _ h => by cases h
  exact ⟨fun h => ⟨h.1, h.2.2⟩, fun h => ⟨h.1, hempty, h.2⟩⟩

/-- An item is filed under its ID. -/
theorem evidenceId_of_filed {id : String} (h : (ofItems items).entries.get? id = some item) :
    item.evidenceId = id := by
  unfold ofItems at h
  induction items using List.reverseRecOn with
  | nil => cases h
  | append_singleton items last ih =>
    rw [List.foldl_append, List.foldl_cons, List.foldl_nil, Dict.get?_set] at h
    split at h
    · rename_i hlast
      cases h
      exact hlast
    · exact ih h

end Adding

section Replacing

variable {items : List EvidenceItem}

/-- Every item is in the constructor's ledger with its content, or an item with the same one is. -/
def NothingReplaced (items : List EvidenceItem) (ledger : EvidenceLedger) : Prop :=
  ∀ item ∈ items, ∃ kept ∈ ledger.items,
    kept.evidenceId = item.evidenceId ∧ kept.contentHash = item.contentHash

/-- The items with one ID are represented by one of them. -/
theorem exists_kept {item : EvidenceItem} (h : item ∈ items) :
    ∃ kept, (ofItems items).entries.get? item.evidenceId = some kept ∧ kept ∈ items ∧
      kept.evidenceId = item.evidenceId := by
  have hcontains := (contains_ofItems items item.evidenceId).mpr ⟨item, h, rfl⟩
  obtain ⟨kept, hkept⟩ := Option.isSome_iff_exists.mp hcontains
  exact ⟨kept, hkept, mem_items_ofItems (Dict.mem_values_of_get? _ hkept), evidenceId_of_filed hkept⟩

/-- The constructor replaces nothing exactly when no ID is used for two contents. -/
theorem nothingReplaced_iff : NothingReplaced items (ofItems items) ↔ KeptApart items := by
  constructor
  · intro h a ha b hb hid
    have hhash : ∀ item ∈ items, ∀ kept, (ofItems items).entries.get? item.evidenceId = some kept →
        kept.contentHash = item.contentHash := by
      intro item hitem kept hkept
      obtain ⟨other, hother, hotherid, hotherhash⟩ := h item hitem
      obtain ⟨id, hfiled⟩ := Dict.exists_get?_of_mem_values _ hother
      have hid := evidenceId_of_filed hfiled
      rw [← hid, hotherid, hkept] at hfiled
      cases hfiled
      exact hotherhash
    obtain ⟨kept, hkept, -, -⟩ := exists_kept ha
    exact (hhash a ha kept hkept).symm.trans (hhash b hb kept (hid ▸ hkept))
  · intro h item hitem
    obtain ⟨kept, hkept, hmem, hid⟩ := exists_kept hitem
    exact ⟨kept, Dict.mem_values_of_get? _ hkept, hid, h kept hmem item hitem hid⟩

end Replacing

/-- The constructor succeeds exactly when adding one by one does, which is when no ID is used for
two contents; both ledgers hold the same items, and none is replaced by a different one. -/
structure RejectsCollisions (items : List EvidenceItem) : Prop where
  succeeds : (∃ ledger, construct items = .ok ledger) ↔ ∃ ledger, addAll items = .ok ledger
  apart : (∃ ledger, addAll items = .ok ledger) ↔ KeptApart items
  agree : ∀ ledger ledger', construct items = .ok ledger → addAll items = .ok ledger' →
    ledger.items = ledger'.items
  kept : ∀ ledger, construct items = .ok ledger → NothingReplaced items ledger

/-- The ledger rejects collisions however it is filled exactly when there is none. -/
theorem rejectsCollisions_iff (items : List EvidenceItem) :
    RejectsCollisions items ↔ KeptApart items := by
  constructor
  · intro h
    exact h.apart.mp (h.succeeds.mp ⟨ofItems items, rfl⟩)
  · intro h
    have hadded : addAll items = .ok (ofItems items) := addAll_eq_ok.mpr ⟨h, rfl⟩
    constructor
    · exact ⟨fun _ => ⟨_, hadded⟩, fun _ => ⟨_, rfl⟩⟩
    · exact ⟨fun _ => h, fun _ => ⟨_, hadded⟩⟩
    · rintro _ ledger ⟨⟩ hledger
      rw [(addAll_eq_ok.mp hledger).2]
    · rintro _ ⟨⟩
      exact nothingReplaced_iff.mpr h

/-- A transaction of another customer, under the ID of one of the customer of the case. -/
def foreignItem : EvidenceItem :=
  { evidenceId := "TX-BG-00000001", evidenceType := "transaction", sourceRecordId := "TX-BG-00000009", caseId := 1,
    customerId := "CUS-000002", content := .object [("amount", .string "9800.00")],
    contentHash := "b7", provenance := "transactions", evidenceId_length := by decide }

/-- The transaction of the customer of the case. -/
def ownItem : EvidenceItem :=
  { foreignItem with
    sourceRecordId := "TX-BG-00000001", customerId := "CUS-000001"
    content := .object [("amount", .string "120.00")], contentHash := "3c" }

/-- The constructor replaces the foreign item, which `add` would have reported, and neither the
citations nor the scope of the evidence are found wrong. -/
theorem foreign_item_replaced : ¬RejectsCollisions [foreignItem, ownItem] ∧
    construct [foreignItem, ownItem] = construct [ownItem] ∧
    addAll [foreignItem, ownItem] = .error (evidenceCollision "TX-BG-00000001") ∧
    observedEvents 1 "CUS-000001" (ofItems [foreignItem, ownItem]) [] [] = [] := by
  have hapart : ¬KeptApart [foreignItem, ownItem] := by decide
  have hconstruct : construct [foreignItem, ownItem] = construct [ownItem] := rfl
  refine ⟨fun h => ?_, hconstruct, rfl, ?_⟩
  · exact hapart (h.apart.mp (h.succeeds.mp ⟨_, rfl⟩))
  · decide

end EvidenceLedger

end Amlguard
