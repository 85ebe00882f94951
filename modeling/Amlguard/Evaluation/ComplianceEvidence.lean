import Amlguard.Domain.PyValue
import Amlguard.Investigations.Domain
import Amlguard.Library.Dict
import Amlguard.Library.Truncation

/-!
# The compliance evidence package

`load_documentary_evidence` takes the registered excerpts out of the repository's documents, and
`build_compliance_evidence_package` writes them behind the other sections of the package. Every section
has a budget, the documentary block has two of them, and the package has one more.

How a path is resolved, what the files hold, the digest, `int` and `json.dumps` are left open.
-/

namespace Amlguard

open PyValue (get)

/-- `MAX_PACKAGE_CHARS`. -/
def maxPackageChars : ℕ := 7900

/-- What stands at the end of a text that has been cut. -/
def truncationMarker : String := "\n[truncated by AMLGuard compliance-evidence budget]"

/-- `_bounded`. -/
def bounded (text : String) (limit : ℕ) : String :=
  String.ofList (Truncation.cut truncationMarker.toList limit text.toList)

/-- `str(value or "").strip()`, for an entry of a dictionary. -/
def strippedText (value : Option PyValue) : String :=
  strip (if (value.getD .none).truthy then (value.getD .none).text else "")

/-- A registered excerpt, with the source that it is taken from. -/
structure DocumentaryEvidence where
  documentId : String
  sourcePath : String
  sourceSha256 : String
  approvalStatus : String
  heading : String
  excerpt : String
  deriving DecidableEq

section MarkdownSection

/-- What `s` begins with has been taken off it. -/
def afterPrefix (beginning s : List Char) : Option (List Char) :=
  if beginning.isPrefixOf s then some (s.drop beginning.length) else none

/-- A heading of the second level begins here: `##\s+`. -/
def startsHeading (s : List Char) : Bool :=
  match afterPrefix "##".toList s with
  | some (c :: _) => isSpace c
  | _ => false

/-- The text up to the next line that begins a heading. -/
def untilHeading : Bool → List Char → List Char
  | _, [] => []
  | lineStart, c :: s =>
    if lineStart && startsHeading (c :: s) then [] else c :: untilHeading (c = '\n') s

/-- The section whose heading begins here: `##\s+heading\s*$\n`, and what follows. The whitespace after
the heading is taken up to its last line break. -/
def sectionHere (heading s : List Char) : Option (List Char) :=
  if startsHeading s then
    match afterPrefix heading ((s.drop 2).dropWhile isSpace) with
    | some rest =>
      let blank := (rest.takeWhile isSpace).rdropWhile (· ≠ '\n')
      if blank = [] then none else some (untilHeading true (rest.drop blank.length))
    | none => none
  else none

/-- The first section with the heading, in a text that is read from the beginning of a line or not. -/
def findSection (heading : List Char) : Bool → List Char → Option (List Char)
  | _, [] => none
  | lineStart, c :: s =>
    match if lineStart then sectionHere heading (c :: s) else none with
    | some body => some body
    | none => findSection heading (c = '\n') s

/-- `_markdown_section`. -/
def markdownSection (text heading : String) : Except PyError String :=
  match findSection heading.toList true text.toList with
  | some body => .ok (strip (String.ofList body))
  | none => .error (.valueError ("compliance evidence section not found: " ++ heading))

end MarkdownSection

example : markdownSection "# T\n## A\n\none\ntwo\n## B\nthree\n" "A" = .ok "one\ntwo" := by
  decide +kernel

/-- What the loader is given: where a path inside of the root leads to, the text of a file there, the
digest of a text in hexadecimal digits, and `int`. -/
structure EvidenceFiles where
  resolve : String → Option String
  readText : String → Option (Except PyError String)
  sha256 : String → String
  int : PyValue → Except PyError ℤ
  length_sha256 : ∀ text, (sha256 text).length = 64

section Loader

variable (files : EvidenceFiles)

/-- The text of a registered document: `_resolve_inside`, `is_file` and `read_text`. -/
def readDocument (relativePath : String) : Except PyError String :=
  match files.resolve relativePath with
  | none => .error (.valueError ("compliance evidence path escapes repository root: " ++ relativePath))
  | some source =>
    match files.readText source with
    | none => .error
        { typeName := "FileNotFoundError", bases := ["OSError"]
          message := "registered compliance evidence does not exist: " ++ source }
    | some content => content

/-- `int(value or 0)`, for an entry of a dictionary. -/
def intOrZero (value : Option PyValue) : Except PyError ℤ :=
  if (value.getD .none).truthy then files.int (value.getD .none) else .ok 0

/-- The text under a heading, or the whole text. -/
def excerptOf (content heading : String) : Except PyError String :=
  if heading = "$document" then .ok (strip content) else markdownSection content heading

/-- The excerpt of one entry of a document's sections. -/
def loadSection (documentId relativePath approvalStatus content : String) :
    PyValue → Except PyError DocumentaryEvidence
  | .dict item => do
    let heading := strippedText (get item "heading")
    let maxChars ← intOrZero files (get item "max_chars")
    raiseIf (heading = "" ∨ maxChars < 100 ∨ 1500 < maxChars)
      (.valueError ("document " ++ documentId ++ " sections require a heading and max_chars 100..1500"))
    let excerpt ← excerptOf content heading
    pure
      { documentId
        sourcePath := relativePath
        sourceSha256 := files.sha256 content
        approvalStatus
        heading
        excerpt := bounded excerpt maxChars.toNat }
  | _ => .error (.valueError ("document " ++ documentId ++ " section entries must be objects"))

/-- The excerpts of one entry of the registry's documents. -/
def loadDocument : PyValue → Except PyError (List DocumentaryEvidence)
  | .dict item => do
    let documentId := strippedText (get item "document_id")
    let relativePath := strippedText (get item "path")
    let approvalStatus := strippedText (get item "approval_status")
    raiseIf (documentId = "" ∨ relativePath = "" ∨ approvalStatus = "")
      (.valueError "document_id, path, and approval_status are required")
    match get item "sections" with
    | some (.list (first :: rest)) => do
      let content ← readDocument files relativePath
      (first :: rest).mapM (loadSection files documentId relativePath approvalStatus content)
    | _ => .error (.valueError ("document " ++ documentId ++ " requires at least one section"))
  | _ => .error (.valueError "compliance evidence document entries must be objects")

/-- `load_documentary_evidence`, on the loaded registry. -/
def loadDocumentaryEvidence : PyValue → Except PyError (List DocumentaryEvidence)
  | .dict payload => do
    raiseIf (¬((get payload "schema_version").getD .none).equals "1.0")
      (.valueError "compliance evidence registry must use schema_version 1.0")
    match get payload "documents" with
    | some (.list documents) => do
      let loaded ← documents.mapM (loadDocument files)
      pure loaded.flatten
    | _ => .error (.valueError "compliance evidence registry requires a documents list")
  | _ => .error (.valueError "compliance evidence registry must use schema_version 1.0")

end Loader

section Package

/-- The line breaks of a text as blanks. -/
def onOneLine (text : String) : String :=
  String.ofList (text.toList.map fun c => if c = '\r' ∨ c = '\n' then ' ' else c)

/-- The excerpt as the documentary block shows it. -/
def shownExcerpt (item : DocumentaryEvidence) : String :=
  let excerpt := onOneLine item.excerpt
  if 145 < excerpt.length then String.ofList (excerpt.toList.take 141) ++ " [...]" else excerpt

/-- What stands before an excerpt. -/
def documentTag (item : DocumentaryEvidence) : String :=
  "[" ++ item.documentId ++ " / " ++ item.heading ++ "]"

/-- The line of an excerpt. -/
def excerptLine (item : DocumentaryEvidence) : String :=
  documentTag item ++ (" " ++ shownExcerpt item)

/-- The first item of each document, whose source stands for the document. -/
def documentSources (items : List DocumentaryEvidence) : List DocumentaryEvidence :=
  items.foldl (fun sources item =>
    if sources.any fun source => source.documentId = item.documentId then sources
    else sources ++ [item]) []

/-- A path with the digest of its file. -/
def pathAndHash (path hash : String) : String := "path=" ++ path ++ "; sha256=" ++ hash

/-- The line of a source. -/
def sourceLine (item : DocumentaryEvidence) : String :=
  "- " ++ item.documentId ++ ": " ++
    (pathAndHash item.sourcePath item.sourceSha256 ++ ("; approval=" ++ item.approvalStatus))

/-- The lines of the documentary block, before its budget. -/
def documentaryText (items : List DocumentaryEvidence) : String :=
  "\n".intercalate ((documentSources items).map sourceLine ++ items.map excerptLine)

/-- `_documentary_block`. -/
def documentaryBlock (items : List DocumentaryEvidence) : String :=
  bounded (documentaryText items) 1900

/-- What the package is built of, apart from the documentary evidence. -/
structure PackageInputs where
  recommendation : Json
  systemPrompt : String
  toolCalls : Json
  controlResults : List Json
  hardBlocks : List String
  governance : Option Json
  runtimeGovernance : Json
  governanceReadiness : Json

/-- What is declared about a package. -/
structure PackageMetadata where
  schemaVersion : String := "1.0"
  contentSha256 : String
  characterCount : ℕ
  documentSources : List String
  documentHashes : Dict String String
  documentSections : ℕ
  includesAgentOutput : Bool := true
  includesSystemPrompt : Bool := true
  includesNativeControls : Bool := true
  includesExecutionTrace : Bool := true
  includesRuntimeGovernance : Bool := true
  includesGovernanceReadiness : Bool := true

/-- `ComplianceEvidencePackage`. -/
structure ComplianceEvidencePackage where
  text : String
  metadata : PackageMetadata

variable (dumps : Json → String)

/-- `_compact_json`. -/
def compactJson (value : Json) (limit : ℕ) : String := bounded (dumps value) limit

/-- A section with its heading. -/
def headed (heading body : String) : String := heading ++ ("\n" ++ body)

/-- What the package says about itself. -/
def packageNotice : String :=
  "This package separates agent behavior from documentary evidence. " ++
    "A document's presence or hash does not prove legal applicability, " ++
    "organizational approval, operational enforcement, or compliance."

/-- What the package says about its scope. -/
def scopeNotice : String :=
  "Controls requiring deployment records, contracts, " ++
    "approvals, organizational procedures, independent audits, or real-data " ++
    "operations remain not evaluated unless registered evidence demonstrates them."

/-- The sections before the documentary evidence. -/
def leadingSections (inputs : PackageInputs) : List String :=
  ["# AMLGuard compliance evidence package", packageNotice,
    headed "## Scope limitation" scopeNotice,
    headed "## Agent output (verbatim structured recommendation)"
      (compactJson dumps inputs.recommendation 2300),
    headed "## Producing system instructions" (bounded inputs.systemPrompt 1550),
    headed "## Native deterministic control results" (compactJson dumps
      (.object [("control_results", .array inputs.controlResults),
        ("hard_blocks", .array (inputs.hardBlocks.map .string))]) 750),
    headed "## Runtime governance evidence" (compactJson dumps inputs.runtimeGovernance 850),
    headed "## Sanitized execution trace" (compactJson dumps inputs.toolCalls 700),
    headed "## Declared governance profile"
      (compactJson dumps (inputs.governance.getD (.object [])) 450),
    headed "## Organizational governance readiness"
      (compactJson dumps inputs.governanceReadiness 750)]

/-- The line of the heading of the documentary evidence. -/
def documentaryHeading : String := headed "## Registered documentary evidence" ""

/-- `build_compliance_evidence_package`. -/
def buildComplianceEvidencePackage (sha256 : String → String) (inputs : PackageInputs)
    (items : List DocumentaryEvidence) : ComplianceEvidencePackage :=
  let sections := leadingSections dumps inputs ++
    [documentaryHeading ++ bounded (documentaryBlock items) 650]
  let text := bounded ("\n\n".intercalate sections) maxPackageChars
  { text
    metadata :=
      { contentSha256 := sha256 text
        characterCount := text.length
        documentSources := sortedSet ((items.map (·.sourcePath)).filter (· ≠ ""))
        documentHashes := Dict.empty.update ((items.filter fun item =>
          item.sourcePath ≠ "" ∧ item.sourceSha256 ≠ "").map fun item =>
            (item.sourcePath, item.sourceSha256))
        documentSections := items.length } }

end Package

end Amlguard
