import Amlguard.Evaluation.ComplianceEvidence

/-!
# What the compliance package contains

The package is meant to contain what its metadata declares: its sections, every source path with the
digest of the file, and a line for each excerpt. The beginning of a text survives a cut as far as the
budget keeps it, through all the cuts that follow, and this decides which paths and lines are left.

An excerpt whose document ID has occurred before, with another path, has no source line at all.
-/

namespace Amlguard

/-- A part of a text. -/
def Occurs (part text : String) : Prop := part.toList <:+: text.toList

/-- The headings of the sections. -/
def packageHeadings : List String :=
  ["# AMLGuard compliance evidence package", "## Scope limitation",
    "## Agent output (verbatim structured recommendation)", "## Producing system instructions",
    "## Native deterministic control results", "## Runtime governance evidence",
    "## Sanitized execution trace", "## Declared governance profile",
    "## Organizational governance readiness", "## Registered documentary evidence"]

/-- A package contains what its metadata declares: the sections, every source path with its digest, and
one line for each excerpt. -/
structure ComplianceEvidencePackage.AsDeclared (package : ComplianceEvidencePackage)
    (items : List DocumentaryEvidence) : Prop where
  headings : ∀ heading ∈ packageHeadings, Occurs heading package.text
  sources : ∀ path ∈ package.metadata.documentSources, ∃ hash,
    package.metadata.documentHashes.get? path = some hash ∧ Occurs (pathAndHash path hash) package.text
  excerpts : ∃ rests : List String, rests.length = package.metadata.documentSections ∧
    Occurs ("\n".intercalate (List.zipWith (· ++ ·) (items.map documentTag) rests)) package.text

/-- The documentary text up to the tag of the last excerpt. -/
def declaredPart (items : List DocumentaryEvidence) : String :=
  match items.getLast? with
  | none => ""
  | some last => "\n".intercalate ((documentSources items).map sourceLine ++
      (items.dropLast.map excerptLine ++ [documentTag last]))

/-- The package up to its documentary block. -/
def leadingText (dumps : Json → String) (inputs : PackageInputs) : String :=
  "\n\n".intercalate (leadingSections dumps inputs ++ [documentaryHeading])

/-- The number of characters that a budget keeps of a text. -/
def keptBy (limit length : ℕ) : ℕ := Truncation.kept truncationMarker.toList limit length

/-- The budgets leave the documentary text up to the tag of its last excerpt. -/
def WithinBudgets (dumps : Json → String) (inputs : PackageInputs) (items : List DocumentaryEvidence) :
    Prop :=
  (declaredPart items).length ≤ keptBy 650 (documentaryText items).length ∧
    (leadingText dumps inputs).length + (declaredPart items).length ≤
      keptBy maxPackageChars ((leadingText dumps inputs).length + min (documentaryText items).length 650)

/-- Every registered path is that of the first item of a document. -/
def EachPathFirst (items : List DocumentaryEvidence) : Prop :=
  ∀ item ∈ items, ∃ source ∈ documentSources items, source.sourcePath = item.sourcePath

section Budgets

/-- The marker is shorter than every budget. -/
theorem length_truncationMarker : truncationMarker.toList.length = 51 := by decide

/-- A text within a budget has its length. -/
theorem length_bounded {text : String} {limit : ℕ} (hlimit : 51 ≤ limit) :
    (bounded text limit).length = min text.length limit := by
  rw [bounded, String.length_ofList, Truncation.length_cut (by rwa [length_truncationMarker]),
    String.length_toList]

/-- What is kept of a text is the beginning of the bounded one. -/
theorem prefix_bounded {part text : String} {limit : ℕ} (hpart : part.toList <+: text.toList)
    (hlength : part.length ≤ keptBy limit text.length) :
    part.toList <+: (bounded text limit).toList := by
  rw [bounded, String.toList_ofList]
  apply Truncation.prefix_cut hpart
  rwa [String.length_toList, String.length_toList]

/-- The end of the last line is the end of the text. -/
theorem intercalate_concat_append (separator first rest : String) (lines : List String) :
    separator.intercalate (lines ++ [first ++ rest]) =
      separator.intercalate (lines ++ [first]) ++ rest := by
  cases lines with
  | nil => simp
  | cons line lines =>
    rw [String.intercalate_append_of_ne_nil (List.cons_ne_nil _ _) (by simp),
      String.intercalate_append_of_ne_nil (List.cons_ne_nil _ _) (by simp)]
    simp [String.append_assoc]

/-- The documentary text begins with its declared part. -/
theorem declaredPart_isPrefix (items : List DocumentaryEvidence) :
    (declaredPart items).toList <+: (documentaryText items).toList := by
  induction items using List.reverseRecOn with
  | nil => simp [declaredPart]
  | append_singleton items last _ =>
    have htext : documentaryText (items ++ [last]) =
        declaredPart (items ++ [last]) ++ (" " ++ shownExcerpt last) := by
      rw [documentaryText, declaredPart, List.getLast?_concat, List.dropLast_concat, List.map_append,
        ← List.append_assoc, List.map_singleton, excerptLine, intercalate_concat_append]
      simp only [List.append_assoc]
    rw [htext, String.toList_append]
    exact List.prefix_append _ _

/-- Within its budgets, the package keeps the documentary text up to the tag of the last excerpt. -/
theorem declared_isPrefix (dumps : Json → String) (sha256 : String → String) (inputs : PackageInputs)
    (items : List DocumentaryEvidence) (h : WithinBudgets dumps inputs items) :
    (leadingText dumps inputs ++ declaredPart items).toList <+:
      (buildComplianceEvidencePackage dumps sha256 inputs items).text.toList := by
  obtain ⟨hblock, hpackage⟩ := h
  have hshort : (declaredPart items).length ≤ keptBy 650 (documentaryBlock items).length := by
    rw [documentaryBlock, length_bounded (by decide)]
    unfold keptBy Truncation.kept at hblock ⊢
    rw [length_truncationMarker] at hblock ⊢
    split at hblock <;> split <;> omega
  have hkept : (declaredPart items).length ≤ keptBy 1900 (documentaryText items).length := by
    apply hshort.trans
    rw [documentaryBlock, length_bounded (by decide)]
    exact Truncation.kept_of_kept (by rw [length_truncationMarker]; decide)
  have hdeclared : (declaredPart items).toList <+: (bounded (documentaryBlock items) 650).toList :=
    prefix_bounded (prefix_bounded (declaredPart_isPrefix items) hkept) hshort
  have hlength : (bounded (documentaryBlock items) 650).length =
      min (documentaryText items).length 650 := by
    rw [length_bounded (by decide), documentaryBlock, length_bounded (by decide)]
    omega
  rw [buildComplianceEvidencePackage, intercalate_concat_append]
  apply prefix_bounded
  · rw [leadingText, String.toList_append, String.toList_append]
    exact (List.prefix_append_right_inj _).mpr hdeclared
  · rw [String.length_append, String.length_append, hlength]
    exact hpackage

end Budgets

section Occurs

/-- A beginning occurs. -/
theorem Occurs.of_prefix {part text : String} (h : part.toList <+: text.toList) : Occurs part text :=
  h.isInfix

/-- What occurs in a part occurs in the text. -/
theorem Occurs.trans {part middle text : String} (h : Occurs part middle) (h' : Occurs middle text) :
    Occurs part text :=
  List.IsInfix.trans h h'

/-- A part occurs between what comes before and after it. -/
theorem occurs_append (before part after : String) : Occurs part (before ++ (part ++ after)) := by
  unfold Occurs
  rw [String.toList_append, String.toList_append, ← List.append_assoc]
  exact List.infix_append _ _ _

/-- A line occurs in a text that is made of lines. -/
theorem occurs_intercalate {separator line : String} {lines : List String} (h : line ∈ lines) :
    Occurs line (separator.intercalate lines) := by
  induction lines with
  | nil => cases h
  | cons first rest ih =>
    rcases List.mem_cons.mp h with rfl | h
    · cases rest with
      | nil =>
        rw [String.intercalate_singleton]
        exact List.infix_rfl
      | cons next rest =>
        rw [String.intercalate_cons_cons, String.append_assoc]
        exact occurs_append "" _ _
    · apply (ih h).trans
      rw [String.intercalate_cons_of_ne_nil (List.ne_nil_of_mem h)]
      have hend := occurs_append (first ++ separator) (separator.intercalate rest) ""
      rwa [String.append_empty] at hend

/-- The end of the lines occurs in the text. -/
theorem occurs_intercalate_append {separator : String} (lines : List String) {rest : List String}
    (hrest : rest ≠ []) : Occurs (separator.intercalate rest) (separator.intercalate (lines ++ rest)) := by
  cases lines with
  | nil => exact List.infix_rfl
  | cons line lines =>
    rw [String.intercalate_append_of_ne_nil (List.cons_ne_nil _ _) hrest]
    have hend := occurs_append (separator.intercalate (line :: lines) ++ separator)
      (separator.intercalate rest) ""
    rwa [String.append_empty] at hend

/-- Every heading stands at the beginning of a section. -/
theorem headings_occur (dumps : Json → String) (inputs : PackageInputs) :
    ∀ heading ∈ packageHeadings, Occurs heading (leadingText dumps inputs) := by
  have hheaded : ∀ (i : ℕ) (heading body : String),
      (leadingSections dumps inputs ++ [documentaryHeading])[i]? = some (headed heading body) →
        Occurs heading (leadingText dumps inputs) := by
    intro i heading body hsection
    apply (occurs_append "" heading ("\n" ++ body)).trans
    rw [String.empty_append]
    exact occurs_intercalate (List.mem_of_getElem? hsection)
  simp only [packageHeadings, List.forall_mem_cons, List.not_mem_nil, false_imp_iff, implies_true,
    and_true]
  exact ⟨occurs_intercalate List.mem_cons_self, hheaded 2 _ _ rfl, hheaded 3 _ _ rfl,
    hheaded 4 _ _ rfl, hheaded 5 _ _ rfl, hheaded 6 _ _ rfl, hheaded 7 _ _ rfl, hheaded 8 _ _ rfl,
    hheaded 9 _ _ rfl, hheaded 10 _ _ rfl⟩

end Occurs

section Loaded

variable {files : EvidenceFiles}

/-- A loaded excerpt has a path, and its digest is that of the document there. -/
structure DocumentaryEvidence.Loaded (files : EvidenceFiles) (item : DocumentaryEvidence) : Prop where
  path : item.sourcePath ≠ ""
  digest : ∃ content, readDocument files item.sourcePath = .ok content ∧
    item.sourceSha256 = files.sha256 content

/-- Every excerpt that is loaded comes from the document at its path. -/
theorem loaded_of_load {registry : PyValue} {items : List DocumentaryEvidence}
    (h : loadDocumentaryEvidence files registry = .ok items) : ∀ item ∈ items, item.Loaded files := by
  intro item hitem
  cases registry with
  | dict payload =>
    obtain ⟨-, -, h⟩ := bind_eq_ok.mp h
    split at h
    · obtain ⟨loaded, hloaded, h⟩ := bind_eq_ok.mp h
      cases h
      obtain ⟨excerpts, hexcerpts, hitem⟩ := List.mem_flatten.mp hitem
      obtain ⟨document, -, hdocument⟩ := exists_of_mem_mapM hloaded hexcerpts
      cases document with
      | dict entry =>
        obtain ⟨_, hrequired, h⟩ := bind_eq_ok.mp hdocument
        split at h
        · obtain ⟨content, hcontent, h⟩ := bind_eq_ok.mp h
          obtain ⟨section', -, hsection⟩ := exists_of_mem_mapM h hitem
          cases section' with
          | dict fields =>
            obtain ⟨maxChars, -, hsection⟩ := bind_eq_ok.mp hsection
            obtain ⟨-, -, hsection⟩ := bind_eq_ok.mp hsection
            obtain ⟨excerpt, -, hsection⟩ := bind_eq_ok.mp hsection
            cases hsection
            rw [raiseIf_eq_ok, not_or, not_or] at hrequired
            exact ⟨hrequired.2.1, content, hcontent, rfl⟩
          | _ => cases hsection
        · cases h
      | _ => cases hdocument
    · cases h
  | _ => cases h

/-- The digest that the metadata declares for a path is that of every excerpt with the path. -/
theorem declared_hash (dumps : Json → String) (sha256 : String → String) (inputs : PackageInputs)
    {items : List DocumentaryEvidence} (hloaded : ∀ item ∈ items, item.Loaded files)
    {item : DocumentaryEvidence} (hitem : item ∈ items) :
    (buildComplianceEvidencePackage dumps sha256 inputs items).metadata.documentHashes.get?
      item.sourcePath = some item.sourceSha256 := by
  obtain ⟨hpath, content, hcontent, hdigest⟩ := hloaded item hitem
  apply Dict.get?_update_of_agree
  · intro entry hentry hkey
    obtain ⟨other, hother, rfl⟩ := List.mem_map.mp hentry
    obtain ⟨-, content', hcontent', hdigest'⟩ := hloaded other (List.mem_filter.mp hother).1
    rw [show other.sourcePath = item.sourcePath from hkey, hcontent] at hcontent'
    cases hcontent'
    exact hdigest'.trans hdigest.symm
  · refine ⟨_, List.mem_map.mpr ⟨item, List.mem_filter.mpr ⟨hitem, ?_⟩, rfl⟩, rfl⟩
    have hnonempty : item.sourceSha256 ≠ "" := by
      intro hempty
      have hlength := files.length_sha256 content
      rw [← hdigest, hempty] at hlength
      cases hlength
    simp [hpath, hnonempty]

/-- The source of a document is one of the excerpts. -/
theorem mem_of_mem_documentSources {items : List DocumentaryEvidence} {source : DocumentaryEvidence}
    (h : source ∈ documentSources items) : source ∈ items := by
  induction items using List.reverseRecOn with
  | nil => cases h
  | append_singleton items item ih =>
    rw [documentSources, List.foldl_concat] at h
    split at h
    · exact List.mem_append_left _ (ih h)
    · rcases List.mem_append.mp h with h | h
      · exact List.mem_append_left _ (ih h)
      · exact List.mem_append_right _ h

end Loaded

section Declared

variable {items : List DocumentaryEvidence}

/-- The line of a source occurs in the declared part. -/
theorem sourceLine_occurs {source : DocumentaryEvidence} (h : source ∈ documentSources items) :
    Occurs (sourceLine source) (declaredPart items) := by
  cases hlast : items.getLast? with
  | none =>
    rw [List.getLast?_eq_none_iff.mp hlast] at h
    cases h
  | some last =>
    rw [declaredPart, hlast]
    exact occurs_intercalate (List.mem_append_left _ (List.mem_map_of_mem h))

/-- Each excerpt has a line of the declared part, which begins with its tag. -/
theorem excerptLines_occur :
    ∃ rests : List String, rests.length = items.length ∧
      Occurs ("\n".intercalate (List.zipWith (· ++ ·) (items.map documentTag) rests))
        (declaredPart items) := by
  induction items using List.reverseRecOn with
  | nil => exact ⟨[], rfl, List.infix_rfl⟩
  | append_singleton items last _ =>
    refine ⟨items.map (fun item => " " ++ shownExcerpt item) ++ [""], by simp, ?_⟩
    have hlines : List.zipWith (· ++ ·) ((items ++ [last]).map documentTag)
        (items.map (fun item => " " ++ shownExcerpt item) ++ [""]) =
          items.map excerptLine ++ [documentTag last] := by
      rw [List.map_append, List.zipWith_append (by simp), List.zipWith_map, List.zipWith_self]
      simp [excerptLine]
    rw [hlines, declaredPart, List.getLast?_concat, List.dropLast_concat]
    exact occurs_intercalate_append _ (by simp)

end Declared

/-- The package has at most the characters of its budget. Within the budgets, with a path for every
document, it contains what its metadata declares. -/
theorem package_asDeclared_of_withinBudgets (dumps : Json → String) (files : EvidenceFiles)
    (inputs : PackageInputs) (registry : PyValue) (items : List DocumentaryEvidence)
    (hload : loadDocumentaryEvidence files registry = .ok items) :
    (buildComplianceEvidencePackage dumps files.sha256 inputs items).text.length ≤ maxPackageChars ∧
      (WithinBudgets dumps inputs items → EachPathFirst items →
        (buildComplianceEvidencePackage dumps files.sha256 inputs items).AsDeclared items) := by
  constructor
  · rw [buildComplianceEvidencePackage, length_bounded (by decide)]
    exact min_le_right _ _
  · intro hfits hfirst
    have hprefix := Occurs.of_prefix (declared_isPrefix dumps files.sha256 inputs items hfits)
    have hleading : Occurs (leadingText dumps inputs) (leadingText dumps inputs ++ declaredPart items) := by
      simpa using occurs_append "" (leadingText dumps inputs) (declaredPart items)
    have hdeclared : Occurs (declaredPart items) (leadingText dumps inputs ++ declaredPart items) := by
      simpa using occurs_append (leadingText dumps inputs) (declaredPart items) ""
    have hloaded := loaded_of_load hload
    constructor
    · intro heading hheading
      exact ((headings_occur dumps inputs heading hheading).trans hleading).trans hprefix
    · intro path hpath
      obtain ⟨item, hitem, rfl⟩ := List.mem_map.mp (List.mem_filter.mp (mem_sortedSet.mp hpath)).1
      obtain ⟨source, hsource, hsame⟩ := hfirst item hitem
      refine ⟨source.sourceSha256, ?_, ?_⟩
      · rw [← hsame]
        exact declared_hash dumps files.sha256 inputs hloaded (mem_of_mem_documentSources hsource)
      · rw [← hsame]
        have hline : Occurs (pathAndHash source.sourcePath source.sourceSha256) (sourceLine source) :=
          occurs_append _ _ _
        exact ((hline.trans (sourceLine_occurs hsource)).trans hdeclared).trans hprefix
    · obtain ⟨rests, hrests, hoccurs⟩ := @excerptLines_occur items
      exact ⟨rests, hrests, (hoccurs.trans hdeclared).trans hprefix⟩

section Lengths

/-- A text has the length of its characters. -/
theorem length_le_of_chars {text : String} {chars : List Char} {n : ℕ} (htext : text = String.ofList chars)
    (hchars : chars.length ≤ n) : text.length ≤ n := by
  rwa [htext, String.length_ofList]

set_option maxRecDepth 1000 in
/-- The headings are short. -/
theorem length_heading_le : ∀ heading ∈ packageHeadings, heading.length ≤ 53 := by
  simp only [packageHeadings, List.forall_mem_cons, List.not_mem_nil, false_imp_iff, implies_true,
    and_true]
  refine ⟨?_, ?_, ?_, ?_, ?_, ?_, ?_, ?_, ?_, ?_⟩
  all_goals exact length_le_of_chars rfl (by decide)

set_option maxRecDepth 1000 in
/-- The notices are short. -/
theorem length_notice_le : packageNotice.length ≤ 240 ∧ scopeNotice.length ≤ 240 := by
  have hparts : ∀ {a b c : ℕ}, a ≤ 80 → b ≤ 80 → c ≤ 80 → a + b + c ≤ 240 := by omega
  unfold packageNotice scopeNotice
  simp only [String.length_append]
  constructor
  all_goals
    apply hparts
    all_goals exact length_le_of_chars rfl (by decide)

/-- A budget is kept. -/
theorem length_bounded_le (text : String) (limit : ℕ) (hlimit : 51 ≤ limit) :
    (bounded text limit).length ≤ limit := by
  rw [length_bounded hlimit]
  exact min_le_right _ _

/-- With a short prompt, the other sections leave the documentary evidence its budget. -/
theorem length_leadingText_le {dumps : Json → String} {inputs : PackageInputs}
    (hprompt : inputs.systemPrompt.length ≤ 100) : (leadingText dumps inputs).length ≤ 7250 := by
  have hheading := length_heading_le
  simp only [packageHeadings, List.forall_mem_cons, List.not_mem_nil, false_imp_iff, implies_true,
    and_true] at hheading
  obtain ⟨hnotice, hscope⟩ := length_notice_le
  have hbreak : "\n".length = 1 := rfl
  have hbreaks : "\n\n".length = 2 := rfl
  have hinstructions : (bounded inputs.systemPrompt 1550).length ≤ 100 := by
    rw [length_bounded (by decide)]
    exact (min_le_left _ _).trans hprompt
  have hoffer := fun value => length_bounded_le (dumps value) 2300 (by decide)
  have hruntime := fun value => length_bounded_le (dumps value) 850 (by decide)
  have hcontrols := fun value => length_bounded_le (dumps value) 750 (by decide)
  have htrace := fun value => length_bounded_le (dumps value) 700 (by decide)
  have hprofile := fun value => length_bounded_le (dumps value) 450 (by decide)
  simp only [leadingText, leadingSections, headed, documentaryHeading, compactJson, List.cons_append,
    List.nil_append, String.intercalate_cons_cons, String.intercalate_singleton, String.length_append,
    String.length_empty, hbreak, hbreaks]
  grind

/-- The length of a source's line. -/
theorem length_sourceLine (item : DocumentaryEvidence) :
    (sourceLine item).length = item.documentId.length + item.sourcePath.length +
      item.sourceSha256.length + item.approvalStatus.length + 29 := by
  have hparts : "- ".length = 2 ∧ ": ".length = 2 ∧ "path=".length = 5 ∧ "; sha256=".length = 9 ∧
      "; approval=".length = 11 :=
    ⟨rfl, rfl, rfl, rfl, rfl⟩
  simp only [sourceLine, pathAndHash, String.length_append, hparts]
  omega

/-- The length of an excerpt's line. -/
theorem length_excerptLine (item : DocumentaryEvidence) :
    (excerptLine item).length =
      item.documentId.length + item.heading.length + (shownExcerpt item).length + 6 := by
  have hparts : "[".length = 1 ∧ " / ".length = 3 ∧ "]".length = 1 ∧ " ".length = 1 :=
    ⟨rfl, rfl, rfl, rfl⟩
  simp only [excerptLine, documentTag, String.length_append, hparts]
  omega

/-- Short lines are within the budgets. -/
theorem withinBudgets_of_short {dumps : Json → String} {inputs : PackageInputs}
    {items : List DocumentaryEvidence} (hprompt : inputs.systemPrompt.length ≤ 100)
    (htext : (documentaryText items).length ≤ 650) : WithinBudgets dumps inputs items := by
  have hdeclared : (declaredPart items).length ≤ (documentaryText items).length := by
    have hlength := (declaredPart_isPrefix items).length_le
    rwa [String.length_toList, String.length_toList] at hlength
  have hleading := @length_leadingText_le dumps inputs hprompt
  unfold WithinBudgets keptBy Truncation.kept maxPackageChars
  constructor
  · rw [if_pos htext]
    exact hdeclared
  · rw [if_pos (by omega)]
    omega

end Lengths

/-- Documents that all hold the same text. -/
def scopeFiles : EvidenceFiles where
  resolve path := some path
  readText _ := some (.ok "Scope")
  sha256 text :=
    if text = "Scope" then "b073f6c68ef8721107fd9815b19b2c35ec111d526b75c2123d1111ba64424000"
    else String.ofList (List.replicate 64 '0')
  int value := match value with
    | .int n => .ok n
    | _ => .error (.valueError "invalid literal for int()")
  length_sha256 text := by
    split
    · exact String.length_ofList
    · rw [String.length_ofList, List.length_replicate]

/-- The entry of a whole document. -/
def wholeDocument (name : String) : PyValue :=
  .dict [(.str "document_id", .str name), (.str "path", .str ("docs/" ++ name ++ ".md")),
    (.str "approval_status", .str "repository_documentation"),
    (.str "sections", .list [.dict [(.str "heading", .str "$document"), (.str "max_chars", .int 100)]])]

/-- The excerpt of a whole document. -/
def wholeItem (name : String) : DocumentaryEvidence where
  documentId := name
  sourcePath := "docs/" ++ name ++ ".md"
  sourceSha256 := "b073f6c68ef8721107fd9815b19b2c35ec111d526b75c2123d1111ba64424000"
  approvalStatus := "repository_documentation"
  heading := "$document"
  excerpt := "Scope"

/-- A registry of whole documents. -/
def wholeRegistry (names : List String) : PyValue :=
  .dict [(.str "schema_version", .str "1.0"), (.str "documents", .list (names.map wholeDocument))]

/-- The dumps of the documents of a package with nothing to report. -/
def sampleDumps : Json → String
  | .object [] => "\x7b\x7d"
  | .array [] => "[]"
  | _ => "\x7b\"control_results\": [], \"hard_blocks\": []\x7d"

/-- A package with nothing to report. -/
def emptyInputs : PackageInputs where
  recommendation := .object []
  systemPrompt := "Require human review."
  toolCalls := .array []
  controlResults := []
  hardBlocks := []
  governance := none
  runtimeGovernance := .object []
  governanceReadiness := .object []

/-- The prompt is short. -/
theorem length_emptyInputs : emptyInputs.systemPrompt.length ≤ 100 :=
  length_le_of_chars rfl (by decide)

/-- The lengths of the two lines of a whole document. -/
theorem length_wholeLines (name : String) :
    (sourceLine (wholeItem name)).length = 2 * name.length + 125 ∧
      (excerptLine (wholeItem name)).length = name.length + 20 := by
  have hparts : "docs/".length = 5 ∧ ".md".length = 3 ∧ "$document".length = 9 ∧
      "repository_documentation".length = 24 :=
    ⟨rfl, rfl, rfl, rfl⟩
  have hdigest : (wholeItem name).sourceSha256.length = 64 := String.length_ofList
  have hshown : (shownExcerpt (wholeItem name)).length = 5 := by
    change (shownExcerpt (wholeItem "")).length = 5
    decide +kernel
  rw [length_sourceLine, length_excerptLine, hdigest, hshown]
  simp only [wholeItem, String.length_append, hparts, and_true]
  omega

/-- One document is in the package, as declared. -/
theorem package_asDeclared_of_withinBudgets_one :
    (buildComplianceEvidencePackage sampleDumps scopeFiles.sha256 emptyInputs
      [wholeItem "scope"]).AsDeclared [wholeItem "scope"] := by
  have hload : loadDocumentaryEvidence scopeFiles (wholeRegistry ["scope"]) = .ok [wholeItem "scope"] := by
    decide +kernel
  apply (package_asDeclared_of_withinBudgets sampleDumps scopeFiles emptyInputs _ _ hload).2
  · apply withinBudgets_of_short length_emptyInputs
    have hlines : documentaryText [wholeItem "scope"] =
        sourceLine (wholeItem "scope") ++ "\n" ++ excerptLine (wholeItem "scope") := by
      rfl
    obtain ⟨hsource, hexcerpt⟩ := length_wholeLines "scope"
    rw [hlines, String.length_append, String.length_append, hsource, hexcerpt]
    decide
  · intro item hitem
    exact ⟨item, hitem, rfl⟩

section Lost

/-- A character that is in a bounded text is in the part of the text within the budget, or in the
marker. -/
theorem mem_bounded {c : Char} {text : String} {limit : ℕ} (h : c ∈ (bounded text limit).toList) :
    c ∈ text.toList.take limit ∨ c ∈ truncationMarker.toList := by
  rw [bounded, String.toList_ofList] at h
  exact Truncation.mem_cut h

/-- What is in a text that is made of lines is in one of them or in the separator. -/
theorem mem_intercalate {c : Char} {separator : String} {lines : List String}
    (h : c ∈ (separator.intercalate lines).toList) :
    c ∈ separator.toList ∨ ∃ line ∈ lines, c ∈ line.toList := by
  induction lines with
  | nil => simp at h
  | cons line rest ih =>
    cases rest with
    | nil =>
      rw [String.intercalate_singleton] at h
      exact .inr ⟨line, List.mem_cons_self, h⟩
    | cons next rest =>
      rw [String.intercalate_cons_cons, String.toList_append, String.toList_append, List.mem_append,
        List.mem_append] at h
      rcases h with (h | h) | h
      · exact .inr ⟨line, List.mem_cons_self, h⟩
      · exact .inl h
      · rcases ih h with h | ⟨other, hother, h⟩
        · exact .inl h
        · exact .inr ⟨other, List.mem_cons_of_mem _ hother, h⟩

/-- Lines are at least as long together as a common bound on each of them says. -/
theorem length_intercalate_le {separator : String} {lines : List String} {n : ℕ}
    (h : ∀ line ∈ lines, n ≤ line.length) : lines.length * n ≤ (separator.intercalate lines).length := by
  induction lines with
  | nil => simp
  | cons line rest ih =>
    obtain ⟨hline, hrest⟩ := List.forall_mem_cons.mp h
    have hrest := ih hrest
    cases rest with
    | nil => simpa using hline
    | cons next rest =>
      rw [String.intercalate_cons_cons, String.length_append, String.length_append, List.length_cons,
        Nat.succ_mul]
      omega

/-- Of a long documentary text, the package shows no more than its first 650 characters. -/
theorem mem_package {dumps : Json → String} {sha256 : String → String} {inputs : PackageInputs}
    {items : List DocumentaryEvidence} {c : Char}
    (h : c ∈ (buildComplianceEvidencePackage dumps sha256 inputs items).text.toList) :
    c ∈ (leadingText dumps inputs).toList ∨ c ∈ (documentaryText items).toList.take 650 ∨
      c ∈ truncationMarker.toList := by
  rcases mem_bounded h with h | h
  · have h := List.mem_of_mem_take h
    rw [intercalate_concat_append, String.toList_append, List.mem_append] at h
    rcases h with h | h
    · exact .inl h
    · rcases mem_bounded h with h | h
      · rw [documentaryBlock, bounded, String.toList_ofList, Truncation.take_cut] at h
        · exact .inr (.inl h)
        · rw [length_truncationMarker]
          decide
      · exact .inr (.inr h)
  · exact .inr (.inr h)

/-- The first lines of the documentary text hide the later ones when they fill the budget. -/
theorem mem_first_lines {lines rest : List String} {c : Char} (hrest : rest ≠ []) (hlines : lines ≠ [])
    (hlength : 650 ≤ ("\n".intercalate lines).length)
    (h : c ∈ ("\n".intercalate (lines ++ rest)).toList.take 650) :
    c ∈ ("\n".intercalate lines).toList := by
  rw [String.intercalate_append_of_ne_nil hlines hrest, String.append_assoc, String.toList_append,
    List.take_append_of_le_length (by rwa [String.length_toList])] at h
  exact List.mem_of_mem_take h

/-- A text without a character. -/
def Avoids (c : Char) (text : String) : Prop := c ∉ text.toList

/-- A literal avoids what is none of its characters. -/
theorem avoids_of_chars {c : Char} {text : String} {chars : List Char} (htext : text = String.ofList chars)
    (hchars : c ∉ chars) : Avoids c text := by
  rwa [Avoids, htext, String.toList_ofList]

/-- Two texts avoid a character together. -/
theorem Avoids.append {c : Char} {first rest : String} (h : Avoids c first) (h' : Avoids c rest) :
    Avoids c (first ++ rest) := by
  rw [Avoids, String.toList_append, List.mem_append, not_or]
  exact ⟨h, h'⟩

set_option maxRecDepth 2000 in
/-- No literal of the package has an at sign. -/
theorem literals_avoid :
    Avoids '@' "\n" ∧ Avoids '@' "\n\n" ∧ Avoids '@' truncationMarker ∧ Avoids '@' packageNotice ∧
      Avoids '@' scopeNotice ∧ ∀ heading ∈ packageHeadings, Avoids '@' heading := by
  simp only [packageHeadings, List.forall_mem_cons, List.not_mem_nil, false_imp_iff, implies_true,
    and_true]
  refine ⟨?_, ?_, ?_, ?_, ?_, ?_, ?_, ?_, ?_, ?_, ?_, ?_, ?_, ?_, ?_⟩
  case refine_4 | refine_5 =>
    apply Avoids.append
    apply Avoids.append
    all_goals exact avoids_of_chars rfl (by decide)
  all_goals exact avoids_of_chars rfl (by decide)

/-- A bounded text avoids what the text and the marker avoid. -/
theorem Avoids.bounded {text : String} {limit : ℕ} (h : Avoids '@' text) :
    Avoids '@' (bounded text limit) := by
  intro hmem
  rcases mem_bounded hmem with hmem | hmem
  · exact h (List.mem_of_mem_take hmem)
  · exact literals_avoid.2.2.1 hmem

/-- The leading text has no at sign when the documents and the prompt have none. -/
theorem leadingText_avoids {dumps : Json → String} {inputs : PackageInputs}
    (hdumps : ∀ value, Avoids '@' (dumps value)) (hprompt : Avoids '@' inputs.systemPrompt) :
    Avoids '@' (leadingText dumps inputs) := by
  obtain ⟨hbreak, hbreaks, -, hnotice, hscope, hheadings⟩ := literals_avoid
  have hheaded : ∀ heading body, Avoids '@' heading → Avoids '@' body → Avoids '@' (headed heading body) :=
    fun heading body hheading hbody => hheading.append (hbreak.append hbody)
  have hempty : Avoids '@' "" := by simp [Avoids]
  simp only [packageHeadings, List.forall_mem_cons, List.not_mem_nil, false_imp_iff, implies_true,
    and_true] at hheadings
  intro hmem
  rcases mem_intercalate hmem with hmem | ⟨line, hline, hmem⟩
  · exact hbreaks hmem
  · revert hmem
    revert line
    simp only [leadingSections, documentaryHeading, compactJson, List.cons_append, List.nil_append,
      List.forall_mem_cons, List.not_mem_nil, false_imp_iff, implies_true, and_true]
    obtain ⟨htitle, hlimits, houtput, hprompts, hcontrols, hruntime, htrace, hprofile, hreadiness,
      hdocuments⟩ := hheadings
    exact ⟨htitle, hnotice, hheaded _ _ hlimits hscope, hheaded _ _ houtput (hdumps _).bounded,
      hheaded _ _ hprompts hprompt.bounded, hheaded _ _ hcontrols (hdumps _).bounded,
      hheaded _ _ hruntime (hdumps _).bounded, hheaded _ _ htrace (hdumps _).bounded,
      hheaded _ _ hprofile (hdumps _).bounded, hheaded _ _ hreadiness (hdumps _).bounded,
      hheaded _ _ hdocuments hempty⟩

/-- The line of a document's source has no at sign when its name has none. -/
theorem sourceLine_avoids {name : String} (h : Avoids '@' name) :
    Avoids '@' (sourceLine (wholeItem name)) := by
  have hpath : Avoids '@' ("docs/" ++ name ++ ".md") :=
    ((avoids_of_chars rfl (by decide)).append h).append (avoids_of_chars rfl (by decide))
  have hdigest : Avoids '@' (wholeItem name).sourceSha256 := avoids_of_chars rfl (by decide)
  unfold sourceLine pathAndHash
  apply Avoids.append
  · exact ((avoids_of_chars rfl (by decide)).append h).append (avoids_of_chars rfl (by decide))
  · apply Avoids.append
    · exact (((avoids_of_chars rfl (by decide)).append hpath).append
        (avoids_of_chars rfl (by decide))).append hdigest
    · exact (avoids_of_chars rfl (by decide)).append (avoids_of_chars rfl (by decide))

end Lost

/-- The path of the last of seven documents is not in the package. -/
theorem document_path_lost :
    ¬∀ (dumps : Json → String) (files : EvidenceFiles) (inputs : PackageInputs) (registry : PyValue)
      (items : List DocumentaryEvidence), loadDocumentaryEvidence files registry = .ok items →
        (buildComplianceEvidencePackage dumps files.sha256 inputs items).AsDeclared items := by
  intro h
  have hload : loadDocumentaryEvidence scopeFiles (wholeRegistry ["1", "2", "3", "4", "5", "6", "@"]) =
      .ok ((["1", "2", "3", "4", "5", "6"] ++ ["@"]).map wholeItem) := by
    decide +kernel
  obtain ⟨hash, -, hoccurs⟩ := (h sampleDumps scopeFiles emptyInputs _ _ hload).sources "docs/@.md"
    (mem_sortedSet.mpr (by decide))
  have hat : '@' ∈ (pathAndHash "docs/@.md" hash).toList := by
    simp [pathAndHash, String.toList_append]
  have hnames : ∀ name ∈ ["1", "2", "3", "4", "5", "6"], Avoids '@' name ∧ name.length = 1 := by
    unfold Avoids
    decide
  have hsources : documentSources ((["1", "2", "3", "4", "5", "6"] ++ ["@"]).map wholeItem) =
      (["1", "2", "3", "4", "5", "6"] ++ ["@"]).map wholeItem := by
    decide +kernel
  rcases mem_package (hoccurs.subset hat) with hmem | hmem | hmem
  · revert hmem
    apply leadingText_avoids
    · intro value
      unfold sampleDumps
      split <;> exact avoids_of_chars rfl (by decide)
    · exact avoids_of_chars rfl (by decide)
  · rw [documentaryText, hsources, List.map_map, List.map_append, List.append_assoc] at hmem
    have hmem := mem_first_lines (by simp) (by simp) ?_ hmem
    · rcases mem_intercalate hmem with hmem | ⟨line, hline, hmem⟩
      · exact literals_avoid.1 hmem
      · obtain ⟨name, hname, rfl⟩ := List.mem_map.mp hline
        exact sourceLine_avoids (hnames name hname).1 hmem
    · apply le_trans _ (length_intercalate_le (n := 127) _)
      · decide
      · intro line hline
        obtain ⟨name, hname, rfl⟩ := List.mem_map.mp hline
        rw [Function.comp_apply, (length_wholeLines name).1, (hnames name hname).2]
  · exact literals_avoid.2.2.1 hmem

end Amlguard
