import Amlguard.Policy.Retrieval

/-!
# Loading the policies

A root of policies is a register of sources, files of excerpts, and the mappings of alert rules to
excerpts. `load_policy_index` checks them against each other and builds the index from them. What
`yaml.safe_load` and the models make of each file is taken from outside.

A root is loaded exactly when its files fit together. So whatever the index returns later is an approved
excerpt of a registered source that has not been rejected.
-/

namespace Amlguard.Policy

open Ranking

/-- A source of policies, with the fields that the loader reads. -/
structure PolicySource where
  sourceId : String
  reviewStatus : ReviewStatus
  deriving DecidableEq

/-- An excerpt with its source, which only the loader reads. -/
structure PolicyExcerpt extends PolicyChunk where
  sourceId : String
  deriving DecidableEq

/-- The files below a root: each is absent, or has been parsed and validated, or raises when it is. -/
structure PolicyRoot where
  path : String
  sourceRegister : Option (Except PyError (List PolicySource))
  excerptFiles : List (String × Except PyError (List PolicyExcerpt))
  alertPolicyMappings : Option (Except PyError (List AlertPolicyMapping))

/-- A file that is not there. -/
def fileNotFound (message : String) : PyError where
  typeName := "FileNotFoundError"
  bases := ["OSError"]
  message := message

/-- The IDs that occur more than once. -/
def duplicates (ids : List String) : List String := sortedSet (ids.filter fun id => 1 < ids.count id)

/-- The excerpts of all files, in the order of their names. -/
def PolicyRoot.loadChunks (root : PolicyRoot) : Except PyError (List PolicyExcerpt) := do
  let files ← (sortedBy Prod.fst root.excerptFiles).mapM Prod.snd
  pure files.flatten

/-- `load_corpus`. -/
def loadCorpus (root : PolicyRoot) : Except PyError (List PolicyExcerpt) := do
  let register ← orRaise root.sourceRegister
    (fileNotFound ("policy source register not found: " ++ root.path ++ "/source_register.yaml"))
  raiseIf (root.excerptFiles = [])
    (fileNotFound ("no policy excerpt files found in: " ++ root.path ++ "/approved_excerpts"))
  let sources ← register
  let duplicateSources := duplicates (sources.map (·.sourceId))
  raiseIf (duplicateSources ≠ [])
    (.valueError ("duplicate policy source IDs: " ++ reprList duplicateSources))
  let chunks ← root.loadChunks
  raiseIf (chunks = []) (.valueError "policy corpus contains no excerpts")
  let unknownSources := sortedSet ((chunks.map (·.sourceId)).filter fun id =>
    !(sources.map (·.sourceId)).contains id)
  raiseIf (unknownSources ≠ [])
    (.valueError ("policy excerpts reference unknown sources: " ++ reprList unknownSources))
  let duplicateIds := duplicates (chunks.map (·.policyId))
  raiseIf (duplicateIds ≠ []) (.valueError ("duplicate policy IDs: " ++ reprList duplicateIds))
  let rejectedSources := (sources.filter fun source => source.reviewStatus = .rejected).map (·.sourceId)
  let approvedFromRejectedSources := sortedBy id ((chunks.filter fun chunk =>
    chunk.approved && rejectedSources.contains chunk.sourceId).map (·.policyId))
  raiseIf (approvedFromRejectedSources ≠ [])
    (.valueError ("approved policy excerpts reference rejected sources: " ++
      reprList approvedFromRejectedSources))
  pure chunks

/-- `load_policy_index`. -/
def loadPolicyIndex (root : PolicyRoot) : Except PyError PolicyIndex := do
  let excerpts ← loadCorpus root
  let chunks := excerpts.map (·.toPolicyChunk)
  let file ← orRaise root.alertPolicyMappings (fileNotFound
    ("alert policy mapping file not found: " ++ root.path ++ "/alert_policy_mappings.yaml"))
  let mappings ← loadAlertPolicyMappings chunks (← file)
  PolicyIndex.init chunks mappings

/-- The register and the excerpts of a root fit together: all are valid, under distinct IDs, every excerpt
is of a registered source, and none is approved whose source has been rejected. -/
structure PolicyRoot.Corpus (root : PolicyRoot) (sources : List PolicySource)
    (chunks : List PolicyExcerpt) : Prop where
  register : root.sourceRegister = some (.ok sources)
  files_nonempty : root.excerptFiles ≠ []
  sources_unique : (sources.map (·.sourceId)).Nodup
  parsed : ∃ files, List.Forall₂ (fun file chunks => file.2 = .ok chunks)
    (sortedBy Prod.fst root.excerptFiles) files ∧ chunks = files.flatten
  chunks_nonempty : chunks ≠ []
  registered (chunk : PolicyExcerpt) (hchunk : chunk ∈ chunks) :
    ∃ source ∈ sources, source.sourceId = chunk.sourceId
  policyIds_unique : (chunks.map (·.policyId)).Nodup
  accepted (chunk : PolicyExcerpt) (hchunk : chunk ∈ chunks) (happroved : chunk.approved = true)
    (source : PolicySource) (hsource : source ∈ sources) (hid : source.sourceId = chunk.sourceId) :
    source.reviewStatus ≠ .rejected

/-- Mappings fit to excerpts: one for an alert rule, none rejected, each to approved excerpts, with known
facts as conditions on the conditional rules and on no others. -/
structure MappingsFit (chunks : List PolicyChunk) (mappings : List AlertPolicyMapping) : Prop where
  rules_unique : (mappings.map (·.alertRuleId)).Nodup
  mapped (mapping : AlertPolicyMapping) (hmapping : mapping ∈ mappings) (rule : MappedPolicyRule)
    (hrule : rule ∈ mapping.rules) :
    ∃ chunk, (chunks.find? fun chunk => chunk.policyId = rule.policyId) = some chunk ∧
      chunk.approved = true
  reviewed (mapping : AlertPolicyMapping) (hmapping : mapping ∈ mappings) :
    mapping.reviewStatus ≠ .rejected
  always (mapping : AlertPolicyMapping) (hmapping : mapping ∈ mappings) (rule : MappedPolicyRule)
    (hrule : rule ∈ mapping.alwaysPolicyRules) : rule.whenAll = [] ∧ rule.whenAny = []
  conditional (mapping : AlertPolicyMapping) (hmapping : mapping ∈ mappings) (rule : MappedPolicyRule)
    (hrule : rule ∈ mapping.conditionalPolicyRules) : rule.whenAll ≠ [] ∨ rule.whenAny ≠ []
  facts (mapping : AlertPolicyMapping) (hmapping : mapping ∈ mappings) (rule : MappedPolicyRule)
    (hrule : rule ∈ mapping.conditionalPolicyRules) (factId : String)
    (hfact : factId ∈ rule.whenAll ++ rule.whenAny) : factId ∈ policyFactIds

/-- The index of excerpts and mappings. -/
def indexOf (chunks : List PolicyExcerpt) (mappings : List AlertPolicyMapping) : PolicyIndex where
  chunks := chunks.map (·.toPolicyChunk)
  alertMappings := Dict.empty.update (mappings.map fun item => (item.alertRuleId, item))

/-- No ID occurs twice exactly when the IDs are distinct. -/
theorem duplicates_eq_nil (ids : List String) : duplicates ids = [] ↔ ids.Nodup := by
  rw [duplicates, sortedSet_eq_nil, List.filter_eq_nil_iff, List.nodup_iff_count_le_one]
  constructor
  · intro h id
    by_cases hmem : id ∈ ids
    · simpa using h id hmem
    · rw [List.count_eq_zero.mpr hmem]
      omega
  · intro h id _
    simpa using h id

/-- No source is unknown exactly when every excerpt is of a registered one. -/
theorem unknownSources_eq_nil {sources : List PolicySource} {chunks : List PolicyExcerpt} :
    sortedSet ((chunks.map (·.sourceId)).filter fun id => !(sources.map (·.sourceId)).contains id) = [] ↔
      ∀ chunk ∈ chunks, ∃ source ∈ sources, source.sourceId = chunk.sourceId := by
  simp [List.filter_eq_nil_iff]

/-- No approved excerpt is of a rejected source exactly when those of approved ones are accepted. -/
theorem approvedFromRejected_eq_nil {sources : List PolicySource} {chunks : List PolicyExcerpt} :
    sortedBy id ((chunks.filter fun chunk => chunk.approved &&
      ((sources.filter fun source => source.reviewStatus = .rejected).map (·.sourceId)).contains
        chunk.sourceId).map (·.policyId)) = [] ↔
      ∀ chunk ∈ chunks, chunk.approved = true → ∀ source ∈ sources, source.sourceId = chunk.sourceId →
        source.reviewStatus ≠ .rejected := by
  rw [List.eq_nil_iff_forall_not_mem]
  simp only [mem_sortedBy, List.mem_map, List.mem_filter, Bool.and_eq_true, List.contains_iff_mem,
    decide_eq_true_eq, not_exists, not_and]
  constructor
  · intro h chunk hchunk happroved source hsource hid hrejected
    exact h chunk.policyId chunk ⟨hchunk, happroved, source, ⟨hsource, hrejected⟩, hid⟩ rfl
  · intro h policyId chunk hchunk _
    obtain ⟨hmem, happroved, source, ⟨hsource, hrejected⟩, hid⟩ := hchunk
    exact h chunk hmem happroved source hsource hid hrejected

/-- The excerpts of all files are those of the files one by one. -/
theorem loadChunks_eq_ok {root : PolicyRoot} {chunks : List PolicyExcerpt} :
    root.loadChunks = .ok chunks ↔ ∃ files, List.Forall₂ (fun file chunks => file.2 = .ok chunks)
      (sortedBy Prod.fst root.excerptFiles) files ∧ chunks = files.flatten := by
  rw [PolicyRoot.loadChunks, bind_eq_ok]
  simp only [mapM_eq_ok]
  constructor
  · rintro ⟨files, hfiles, h⟩
    exact ⟨files, hfiles, (Except.ok.inj h).symm⟩
  · rintro ⟨files, hfiles, h⟩
    exact ⟨files, hfiles, congrArg Except.ok h.symm⟩

/-- A corpus is loaded exactly when its register and its excerpts fit together. -/
theorem loadCorpus_eq_ok {root : PolicyRoot} {chunks : List PolicyExcerpt} :
    loadCorpus root = .ok chunks ↔ ∃ sources, root.Corpus sources chunks := by
  simp only [loadCorpus, bind_eq_ok, orRaise_eq_ok, raiseIf_eq_ok, not_ne_iff,
    duplicates_eq_nil, unknownSources_eq_nil, approvedFromRejected_eq_nil, loadChunks_eq_ok]
  constructor
  · rintro ⟨register, hregister, _, hfiles, sources, hsources, _, hunique, loaded, hparsed, _, hsome, _,
      hregistered, _, hpolicies, _, haccepted, hresult⟩
    cases hresult
    subst hsources
    exact ⟨sources, hregister, hfiles, hunique, hparsed, hsome, hregistered, hpolicies, haccepted⟩
  · rintro ⟨sources, h⟩
    exact ⟨_, h.register, (), h.files_nonempty, sources, rfl, (), h.sources_unique, chunks, h.parsed, (),
      h.chunks_nonempty, (), h.registered, (), h.policyIds_unique, (), h.accepted, rfl⟩

/-- No mapped policy is unknown exactly when every rule names an excerpt. -/
theorem unknownPolicyIds_eq_nil {chunks : List PolicyChunk} {mappings : List AlertPolicyMapping} :
    unknownPolicyIds chunks mappings = [] ↔ ∀ mapping ∈ mappings, ∀ rule ∈ mapping.rules,
      ∃ chunk ∈ chunks, chunk.policyId = rule.policyId := by
  rw [unknownPolicyIds, sortedSet_eq_nil, List.filter_eq_nil_iff]
  simp only [List.mem_map, List.mem_flatMap, Bool.not_eq_true', Bool.not_eq_false, List.contains_iff_mem]
  constructor
  · exact fun h mapping hmapping rule hrule => h _ ⟨rule, ⟨mapping, hmapping, hrule⟩, rfl⟩
  · intro h policyId hmem
    obtain ⟨rule, ⟨mapping, hmapping, hrule⟩, rfl⟩ := hmem
    exact h mapping hmapping rule hrule

/-- No mapped policy is unapproved exactly when the excerpt that each rule finds is approved. -/
theorem unapproved_eq_nil {chunks : List PolicyChunk} {mappings : List AlertPolicyMapping} :
    sortedSet (((mappings.flatMap (·.rules)).map (·.policyId)).filter fun id =>
      (chunks.find? fun chunk => chunk.policyId = id).any fun chunk => !chunk.approved) = [] ↔
      ∀ mapping ∈ mappings, ∀ rule ∈ mapping.rules, ∀ chunk,
        (chunks.find? fun chunk => chunk.policyId = rule.policyId) = some chunk →
          chunk.approved = true := by
  rw [sortedSet_eq_nil, List.filter_eq_nil_iff]
  simp only [List.mem_map, List.mem_flatMap, Option.any_eq_true, Bool.not_eq_true', not_exists, not_and,
    Bool.not_eq_false]
  constructor
  · exact fun h mapping hmapping rule hrule => h _ ⟨rule, ⟨mapping, hmapping, hrule⟩, rfl⟩
  · intro h policyId hmem
    obtain ⟨rule, ⟨mapping, hmapping, hrule⟩, rfl⟩ := hmem
    exact h mapping hmapping rule hrule

/-- Every rule finds an approved excerpt when each names one and none of them is unapproved. -/
theorem mapped_iff {chunks : List PolicyChunk} {mappings : List AlertPolicyMapping} :
    ((∀ mapping ∈ mappings, ∀ rule ∈ mapping.rules, ∃ chunk ∈ chunks, chunk.policyId = rule.policyId) ∧
      ∀ mapping ∈ mappings, ∀ rule ∈ mapping.rules, ∀ chunk,
        (chunks.find? fun chunk => chunk.policyId = rule.policyId) = some chunk → chunk.approved = true) ↔
      ∀ mapping ∈ mappings, ∀ rule ∈ mapping.rules, ∃ chunk,
        (chunks.find? fun chunk => chunk.policyId = rule.policyId) = some chunk ∧
          chunk.approved = true := by
  constructor
  · rintro ⟨hknown, happroved⟩ mapping hmapping rule hrule
    obtain ⟨chunk, hchunk, hid⟩ := hknown mapping hmapping rule hrule
    have hsome : (chunks.find? fun chunk => chunk.policyId = rule.policyId).isSome := by
      rw [List.find?_isSome]
      exact ⟨chunk, hchunk, decide_eq_true hid⟩
    obtain ⟨found, hfound⟩ := Option.isSome_iff_exists.mp hsome
    exact ⟨found, hfound, happroved mapping hmapping rule hrule found hfound⟩
  · intro h
    constructor
    · intro mapping hmapping rule hrule
      obtain ⟨chunk, hfound, -⟩ := h mapping hmapping rule hrule
      exact ⟨chunk, List.mem_of_find?_eq_some hfound, by simpa using List.find?_some hfound⟩
    · intro mapping hmapping rule hrule chunk hchunk
      obtain ⟨found, hfound, happroved⟩ := h mapping hmapping rule hrule
      rw [hchunk] at hfound
      cases hfound
      exact happroved

/-- The checks of a list pass when each does. -/
theorem forM_eq_ok {α : Type} {check : α → Except PyError Unit} {items : List α} {u : Unit} :
    items.forM check = .ok u ↔ ∀ item ∈ items, check item = .ok () := by
  induction items with
  | nil => exact iff_of_true rfl fun item hitem => by cases hitem
  | cons item rest ih =>
    change (check item >>= fun _ => rest.forM check) = _ ↔ _
    rw [bind_eq_ok, List.forall_mem_cons, ← ih]
    constructor
    · rintro ⟨_, hitem, hrest⟩
      exact ⟨hitem, hrest⟩
    · exact fun h => ⟨(), h.1, h.2⟩

/-- The conditions of a mapping pass their check when they are on the conditional rules, and on each. -/
theorem checkConditions_eq_ok {mapping : AlertPolicyMapping} {u : Unit} :
    checkConditions mapping = .ok u ↔
      (∀ rule ∈ mapping.alwaysPolicyRules, rule.whenAll = [] ∧ rule.whenAny = []) ∧
        ∀ rule ∈ mapping.conditionalPolicyRules, rule.whenAll ≠ [] ∨ rule.whenAny ≠ [] := by
  simp only [checkConditions, bind_eq_ok, raiseIf_eq_ok, not_exists, not_and, not_or, not_ne_iff]
  constructor
  · rintro ⟨_, halways, hconditional⟩
    exact ⟨halways, fun rule hrule => not_and_or.mp fun h => hconditional rule hrule h.1 h.2⟩
  · rintro ⟨halways, hconditional⟩
    exact ⟨(), halways, fun rule hrule hall hany =>
      not_and_or.mpr (hconditional rule hrule) ⟨hall, hany⟩⟩

/-- No mapping is rejected exactly when the list of those that are is empty. -/
theorem rejected_eq_nil {mappings : List AlertPolicyMapping} :
    sortedBy id ((mappings.filter fun mapping => mapping.reviewStatus = .rejected).map (·.alertRuleId)) =
      [] ↔ ∀ mapping ∈ mappings, mapping.reviewStatus ≠ .rejected := by
  rw [List.eq_nil_iff_forall_not_mem]
  simp only [mem_sortedBy, List.mem_map, List.mem_filter, decide_eq_true_eq, not_exists, not_and]
  constructor
  · exact fun h mapping hmapping hrejected => h _ mapping ⟨hmapping, hrejected⟩ rfl
  · exact fun h _ mapping hmapping _ => h mapping hmapping.1 hmapping.2

/-- No condition is unknown exactly when all conditions are known facts. -/
theorem unknownFacts_eq_nil {mappings : List AlertPolicyMapping} :
    sortedSet ((mappings.flatMap fun mapping => mapping.conditionalPolicyRules.flatMap fun rule =>
      rule.whenAll ++ rule.whenAny).filter fun factId => !policyFactIds.contains factId) = [] ↔
      ∀ mapping ∈ mappings, ∀ rule ∈ mapping.conditionalPolicyRules,
        ∀ factId ∈ rule.whenAll ++ rule.whenAny, factId ∈ policyFactIds := by
  rw [sortedSet_eq_nil, List.filter_eq_nil_iff]
  simp only [List.mem_flatMap, Bool.not_eq_true', Bool.not_eq_false, List.contains_iff_mem]
  constructor
  · exact fun h mapping hmapping rule hrule factId hfact =>
      h factId ⟨mapping, hmapping, rule, hrule, hfact⟩
  · intro h factId hmem
    obtain ⟨mapping, hmapping, rule, hrule, hfact⟩ := hmem
    exact h mapping hmapping rule hrule factId hfact

/-- Mappings are loaded exactly when they fit to the excerpts. -/
theorem loadAlertPolicyMappings_eq_ok {chunks : List PolicyChunk}
    {mappings loaded : List AlertPolicyMapping} :
    loadAlertPolicyMappings chunks mappings = .ok loaded ↔
      loaded = mappings ∧ MappingsFit chunks mappings := by
  have hduplicates := duplicates_eq_nil (mappings.map (·.alertRuleId))
  unfold duplicates at hduplicates
  simp only [loadAlertPolicyMappings, bind_eq_ok, raiseIf_eq_ok, not_ne_iff, hduplicates,
    unknownPolicyIds_eq_nil, unapproved_eq_nil, rejected_eq_nil, forM_eq_ok, checkConditions_eq_ok,
    unknownFacts_eq_nil]
  constructor
  · rintro ⟨_, hunique, _, hknown, _, happroved, _, hreviewed, _, hconditions, _, hfacts, hresult⟩
    cases hresult
    refine ⟨rfl, hunique, mapped_iff.mp ⟨hknown, happroved⟩, hreviewed, ?_, ?_, hfacts⟩
    · exact fun mapping hmapping => (hconditions mapping hmapping).1
    · exact fun mapping hmapping => (hconditions mapping hmapping).2
  · rintro ⟨hloaded, h⟩
    cases hloaded
    obtain ⟨hknown, happroved⟩ := mapped_iff.mpr h.mapped
    exact ⟨(), h.rules_unique, (), hknown, (), happroved, (), h.reviewed, (),
      fun mapping hmapping => ⟨h.always mapping hmapping, h.conditional mapping hmapping⟩, (), h.facts, rfl⟩

/-- The index of mappings that fit is built. -/
theorem init_of_fit {chunks : List PolicyExcerpt} {mappings : List AlertPolicyMapping}
    (h : MappingsFit (chunks.map (·.toPolicyChunk)) mappings) :
    PolicyIndex.init (chunks.map (·.toPolicyChunk)) mappings = .ok (indexOf chunks mappings) := by
  have hkeys : ((mappings.map fun item => (item.alertRuleId, item)).map Prod.fst).Nodup := by
    rw [List.map_map]
    exact h.rules_unique
  have hlength : (Dict.empty.update (mappings.map fun item => (item.alertRuleId, item))).entries.length =
      mappings.length := by
    rw [Dict.entries_ofEntries _ hkeys, List.length_map]
  have hunknown : unknownPolicyIds (chunks.map (·.toPolicyChunk)) mappings = [] :=
    unknownPolicyIds_eq_nil.mpr (mapped_iff.mpr h.mapped).1
  simp only [PolicyIndex.init, bind_eq_ok, raiseIf_eq_ok]
  exact ⟨(), not_not_intro hlength, (), not_not_intro hunknown, rfl⟩

/-- An index is loaded exactly when the corpus and the mappings of the root fit together, and it is the
index of them. -/
theorem loadPolicyIndex_eq_ok {root : PolicyRoot} {index : PolicyIndex} :
    loadPolicyIndex root = .ok index ↔ ∃ sources chunks mappings, root.Corpus sources chunks ∧
      root.alertPolicyMappings = some (.ok mappings) ∧
      MappingsFit (chunks.map (·.toPolicyChunk)) mappings ∧ index = indexOf chunks mappings := by
  simp only [loadPolicyIndex, bind_eq_ok, orRaise_eq_ok, loadAlertPolicyMappings_eq_ok, loadCorpus_eq_ok]
  constructor
  · rintro ⟨chunks, ⟨sources, hcorpus⟩, file, hfile, mappings, hmappings, loaded, ⟨hloaded, hfit⟩, hindex⟩
    rw [hloaded, init_of_fit hfit] at hindex
    rw [hmappings] at hfile
    exact ⟨sources, chunks, mappings, hcorpus, hfile, hfit, (Except.ok.inj hindex).symm⟩
  · rintro ⟨sources, chunks, mappings, hcorpus, hfile, hfit, hindex⟩
    rw [hindex]
    exact ⟨chunks, ⟨sources, hcorpus⟩, _, hfile, mappings, rfl, mappings, ⟨rfl, hfit⟩, init_of_fit hfit⟩

/-- An excerpt that a root serves on a day: it is in force, and of a registered source that has not been
rejected. -/
def PolicyRoot.Serves (root : PolicyRoot) (jurisdiction : String) (day : Date)
    (excerpt : PolicyExcerpt) : Prop :=
  excerpt.InForce jurisdiction day ∧ ∃ sources chunks, root.Corpus sources chunks ∧ excerpt ∈ chunks ∧
    ∃ source ∈ sources, source.sourceId = excerpt.sourceId ∧ source.reviewStatus ≠ .rejected

section Served

variable {root : PolicyRoot} {sources : List PolicySource} {chunks : List PolicyExcerpt}
  {lower : String → String} {query jurisdiction : String} {day : Date} {limit : ℤ}

/-- A root has one corpus. -/
theorem PolicyRoot.Corpus.unique {sources' : List PolicySource} {chunks' : List PolicyExcerpt}
    (h : root.Corpus sources chunks) (h' : root.Corpus sources' chunks') :
    sources = sources' ∧ chunks = chunks' := by
  have hsources := h.register.symm.trans h'.register
  have hchunks := (loadCorpus_eq_ok.mpr ⟨sources, h⟩).symm.trans (loadCorpus_eq_ok.mpr ⟨sources', h'⟩)
  exact ⟨Except.ok.inj (Option.some.inj hsources), Except.ok.inj hchunks⟩

/-- The excerpts that a root serves are those of its corpus in force. -/
theorem PolicyRoot.Corpus.serves_iff (h : root.Corpus sources chunks) {excerpt : PolicyExcerpt} :
    root.Serves jurisdiction day excerpt ↔ excerpt ∈ chunks ∧ excerpt.InForce jurisdiction day := by
  constructor
  · rintro ⟨hforce, sources', chunks', h', hexcerpt, _⟩
    rw [(h.unique h').2]
    exact ⟨hexcerpt, hforce⟩
  · rintro ⟨hexcerpt, hforce⟩
    obtain ⟨source, hsource, hid⟩ := h.registered excerpt hexcerpt
    exact ⟨hforce, sources, chunks, h, hexcerpt, source, hsource, hid,
      h.accepted excerpt hexcerpt hforce.1 source hsource hid⟩

/-- The policy IDs of the excerpts as the index holds them. -/
theorem PolicyRoot.Corpus.chunks_unique (h : root.Corpus sources chunks) :
    ((chunks.map (·.toPolicyChunk)).map (·.policyId)).Nodup := by
  rw [List.map_map]
  exact h.policyIds_unique

/-- A scored policy is an excerpt in force that shares a word with the query. -/
theorem mem_scoredPolicies {chunks : List PolicyChunk} {item : PolicyChunk × ℚ} :
    item ∈ scoredPolicies lower query jurisdiction day chunks ↔ item.1 ∈ chunks ∧
      item.1.InForce jurisdiction day ∧ item.2 = item.1.score lower query ∧ 0 < item.2 := by
  obtain ⟨chunk, score⟩ := item
  simp only [scoredPolicies, List.mem_filter, List.mem_map, eligible_iff, Prod.mk.injEq, decide_eq_true_eq]
  constructor
  · rintro ⟨⟨_, ⟨hmem, hforce⟩, rfl, rfl⟩, hscore⟩
    exact ⟨hmem, hforce, rfl, lt_of_le_of_ne (score_nonneg lower query _) (Ne.symm hscore)⟩
  · rintro ⟨hmem, hforce, rfl, hscore⟩
    exact ⟨⟨_, ⟨hmem, hforce⟩, rfl, rfl⟩, hscore.ne'⟩

/-- A root is loaded exactly when its register, its excerpts and its mappings fit together. The keyword
search on its index then returns excerpts that the root serves on the day and that share a word with the
query, the best first and each of them once; one that is left out has as many before it as the limit
allows. -/
theorem loaded_corpus_searched (root : PolicyRoot) :
    ((∃ index, loadPolicyIndex root = .ok index) ↔ ∃ sources chunks mappings,
      root.Corpus sources chunks ∧ root.alertPolicyMappings = some (.ok mappings) ∧
        MappingsFit (chunks.map (·.toPolicyChunk)) mappings) ∧
    ∀ index, loadPolicyIndex root = .ok index → ∀ (lower : String → String) (query jurisdiction : String)
        (day : Date) (limit : ℤ), 1 ≤ limit ∧ limit ≤ 20 →
      ∃ result, index.search lower query jurisdiction day limit = .ok result ∧
        (result.map (·.1.policyId)).Nodup ∧ result.Pairwise (fun a b => rankKey a ≤ rankKey b) ∧
        (∀ item ∈ result, 0 < item.2 ∧ ∃ excerpt, root.Serves jurisdiction day excerpt ∧
          item = (excerpt.toPolicyChunk, excerpt.toPolicyChunk.score lower query)) ∧
        ∀ excerpt, root.Serves jurisdiction day excerpt → 0 < excerpt.toPolicyChunk.score lower query →
          (excerpt.toPolicyChunk, excerpt.toPolicyChunk.score lower query) ∈ result ∨
            (result.length : ℤ) = limit ∧ ∀ item ∈ result,
              rankKey item ≤ rankKey (excerpt.toPolicyChunk, excerpt.toPolicyChunk.score lower query) := by
  constructor
  · simp only [loadPolicyIndex_eq_ok]
    constructor
    · rintro ⟨index, sources, chunks, mappings, hcorpus, hfile, hfit, -⟩
      exact ⟨sources, chunks, mappings, hcorpus, hfile, hfit⟩
    · rintro ⟨sources, chunks, mappings, hcorpus, hfile, hfit⟩
      exact ⟨_, sources, chunks, mappings, hcorpus, hfile, hfit, rfl⟩
  · intro index hload lower query jurisdiction day limit hlimit
    obtain ⟨sources, chunks, mappings, hcorpus, -, -, rfl⟩ := loadPolicyIndex_eq_ok.mp hload
    generalize hscored : sortedBy rankKey (scoredPolicies lower query jurisdiction day
      (chunks.map (·.toPolicyChunk))) = scored
    have hsearch : (indexOf chunks mappings).search lower query jurisdiction day limit =
        .ok (scored.take limit.toNat) := by
      unfold PolicyIndex.search
      rw [raiseIf, if_neg (not_not_intro hlimit), ← hscored]
      rfl
    have hmem (item : PolicyChunk × ℚ) : item ∈ scored ↔ 0 < item.2 ∧ ∃ excerpt,
        root.Serves jurisdiction day excerpt ∧
          item = (excerpt.toPolicyChunk, excerpt.toPolicyChunk.score lower query) := by
      rw [← hscored, mem_sortedBy, mem_scoredPolicies]
      simp only [hcorpus.serves_iff]
      constructor
      · rintro ⟨hchunk, hforce, hscore, hpositive⟩
        obtain ⟨excerpt, hexcerpt, hsame⟩ := List.mem_map.mp hchunk
        exact ⟨hpositive, excerpt, ⟨hexcerpt, hsame ▸ hforce⟩, Prod.ext hsame.symm (hsame ▸ hscore)⟩
      · rintro ⟨hpositive, excerpt, ⟨hexcerpt, hforce⟩, rfl⟩
        exact ⟨List.mem_map_of_mem hexcerpt, hforce, rfl, hpositive⟩
    have hsorted : scored.Pairwise fun a b => rankKey a ≤ rankKey b := hscored ▸ pairwise_sortedBy
    refine ⟨scored.take limit.toNat, hsearch, ?_, hsorted.sublist (List.take_sublist _ _), ?_, ?_⟩
    · have hperm : (scored.map (·.1.policyId)).Perm _ := hscored ▸ sortedBy_perm.map _
      exact (hperm.nodup_iff.mpr (nodup_scoredPolicies hcorpus.chunks_unique)).sublist
        ((List.take_sublist _ _).map _)
    · exact fun item hitem => (hmem item).mp (List.mem_of_mem_take hitem)
    · intro excerpt hserves hscore
      have hfound := (hmem _).mpr ⟨hscore, excerpt, hserves, rfl⟩
      rw [← hscored] at hfound ⊢
      rcases mem_take_or (n := limit.toNat) hfound with hin | ⟨hlength, hfirst⟩
      · exact .inl hin
      · right
        exact ⟨by omega, hfirst⟩

end Served

/-- The excerpts of a sample root. The second is in force from the second day on. -/
def sampleExcerpts : List PolicyExcerpt :=
  [{ sampleChunk "P-1" "one" with sourceId := "S-1" },
    { sampleChunk "P-2" "two" with sourceId := "S-1", effectiveFrom := some 1 }]

/-- A root with one source, one file and one mapping. -/
def sampleRoot : PolicyRoot where
  path := "corpus"
  sourceRegister := some (.ok [⟨"S-1", .researcherCurated⟩])
  excerptFiles := [("excerpts.yaml", .ok sampleExcerpts)]
  alertPolicyMappings := some (.ok [sampleMapping])

/-- The register and the excerpts of the sample root fit together. -/
theorem sampleRoot_corpus : sampleRoot.Corpus [⟨"S-1", .researcherCurated⟩] sampleExcerpts where
  register := rfl
  files_nonempty := by decide
  sources_unique := by decide
  parsed := ⟨[sampleExcerpts], by simp [sampleRoot, sortedBy], rfl⟩
  chunks_nonempty := by decide
  registered := by decide
  policyIds_unique := by decide
  accepted := by decide

/-- The mapping of the sample root fits to its excerpts. -/
theorem sampleRoot_fits : MappingsFit (sampleExcerpts.map (·.toPolicyChunk)) [sampleMapping] where
  rules_unique := by decide
  mapped mapping hmapping rule hrule := by
    obtain rfl := List.mem_singleton.mp hmapping
    obtain rfl := List.mem_singleton.mp hrule
    exact ⟨_, rfl, rfl⟩
  reviewed := by decide
  always := by decide
  conditional := by decide
  facts := by decide

/-- The sample root is loaded. -/
theorem loadPolicyIndex_sampleRoot :
    loadPolicyIndex sampleRoot = .ok (indexOf sampleExcerpts [sampleMapping]) :=
  loadPolicyIndex_eq_ok.mpr ⟨_, sampleExcerpts, [sampleMapping], sampleRoot_corpus, rfl, sampleRoot_fits,
    rfl⟩

/-- An excerpt of the sample root shares a word with the query, so the search finds something. -/
theorem loaded_corpus_searched_sample : ∃ result,
    (indexOf sampleExcerpts [sampleMapping]).search id "two" "FR" 1 5 = .ok result ∧
      (result.map (·.1.policyId)).Nodup ∧ result ≠ [] := by
  obtain ⟨result, hsearch, hunique, -, -, hcomplete⟩ := (loaded_corpus_searched sampleRoot).2 _
    loadPolicyIndex_sampleRoot id "two" "FR" 1 5 (by decide)
  refine ⟨result, hsearch, hunique, ?_⟩
  have hserves : sampleRoot.Serves "FR" 1
      { sampleChunk "P-2" "two" with sourceId := "S-1", effectiveFrom := some 1 } :=
    sampleRoot_corpus.serves_iff.mpr (by decide)
  rcases hcomplete _ hserves (by decide +kernel) with hin | ⟨hlength, -⟩
  · exact List.ne_nil_of_mem hin
  · rintro rfl
    cases hlength

end Amlguard.Policy
