import Amlguard.Domain.Values
import Amlguard.Library.Dict
import Amlguard.Library.Transitions
import Mathlib.Logic.Equiv.Basic

/-!
# The store of encrypted artifacts

`EncryptedArtifactStore` keeps a payload under the digest of its JSON text. A file that exists is left as
it is: its name says what it holds, but not under which key, nor whether all of it was written.

So a reference that is handed out can be read exactly when the file was absent, or already held the
payload in full and under the key of the store. JSON, the digest, the cipher and the file system's
resolution of paths are taken from outside.
-/

namespace Amlguard

/-- Bytes. -/
abbrev Bytes := List UInt8

/-- `s.encode()`, for a text of ASCII characters. -/
def asciiBytes (s : String) : Bytes := s.toList.map fun c => UInt8.ofNat c.toNat

/-- An `ArtifactReference`. -/
structure ArtifactReference where
  contentHash : String
  relativePath : String
  encryptionAlgorithm : String := "AES-256-GCM"
  deriving DecidableEq

/-- What the store takes from outside: JSON, the digest in hexadecimal digits, the cipher for a key, a
nonce, a text and associated data, and where a path below the root leads to, unless it leaves it. -/
structure ArtifactCodec (Payload : Type) where
  dumps : Payload → Except PyError Bytes
  loads : Bytes → Except PyError Json
  sha256 : Bytes → String
  encrypt : Bytes → Bytes → Bytes → Bytes → Bytes
  decrypt : Bytes → Bytes → Bytes → Bytes → Except PyError Bytes
  resolve : String → Option String

/-- An `EncryptedArtifactStore` on the root, with its key. -/
structure EncryptedArtifactStore where
  key : Bytes
  key_length : key.length = 32
  deriving DecidableEq

/-- `EncryptedArtifactStore(root, key)`. -/
def EncryptedArtifactStore.open' (key : Bytes) : Except PyError EncryptedArtifactStore :=
  if h : key.length = 32 then .ok ⟨key, h⟩
  else .error (.valueError "artifact encryption key must be exactly 32 bytes")

/-- The path of the file of a digest. -/
def artifactPath (digest : String) : String :=
  String.ofList (digest.toList.take 2) ++ "/" ++ digest ++ ".agx"

/-- A path leaves the root. -/
def pathEscaped : PyError := .valueError "artifact path escaped configured root"

/-- A reference with the file that it leads to and what is to be written there. -/
structure SealedArtifact where
  reference : ArtifactReference
  target : String
  blob : Bytes

section Store

variable {Payload : Type} (codec : ArtifactCodec Payload)

/-- What `put_json` writes for a payload, with the nonce that it draws. -/
def sealJson (store : EncryptedArtifactStore) (payload : Payload) (nonce : Bytes) :
    Except PyError SealedArtifact := do
  let cleartext ← codec.dumps payload
  let digest := codec.sha256 cleartext
  let ciphertext := codec.encrypt store.key nonce cleartext (asciiBytes digest)
  let target ← orRaise (codec.resolve (artifactPath digest)) pathEscaped
  pure
    { reference := { contentHash := digest, relativePath := artifactPath digest }
      target, blob := nonce ++ ciphertext }

/-- A file is written unless it exists. -/
def writeNew (files : Dict String Bytes) (target : String) (blob : Bytes) : Dict String Bytes :=
  if files.contains target then files else files.set target blob

/-- `put_json`. -/
def putJson (files : Dict String Bytes) (store : EncryptedArtifactStore) (payload : Payload)
    (nonce : Bytes) : Except PyError (ArtifactReference × Dict String Bytes) := do
  let artifact ← sealJson codec store payload nonce
  pure (artifact.reference, writeNew files artifact.target artifact.blob)

/-- The files when `put_json` is interrupted after a number of bytes. -/
def interruptedPut (files : Dict String Bytes) (store : EncryptedArtifactStore) (payload : Payload)
    (nonce : Bytes) (written : ℕ) : Dict String Bytes :=
  match sealJson codec store payload nonce with
  | .ok artifact => writeNew files artifact.target (artifact.blob.take written)
  | .error _ => files

/-- `get_json`. -/
def getJson (files : Dict String Bytes) (store : EncryptedArtifactStore)
    (reference : ArtifactReference) : Except PyError (List (String × Json)) := do
  let target ← orRaise (codec.resolve reference.relativePath) pathEscaped
  let blob ← orRaise (files.get? target)
    { typeName := "FileNotFoundError", bases := ["OSError"], message := target }
  let cleartext ← codec.decrypt store.key (blob.take 12) (blob.drop 12)
    (asciiBytes reference.contentHash)
  raiseIf (codec.sha256 cleartext ≠ reference.contentHash)
    (.valueError "artifact integrity check failed")
  match ← codec.loads cleartext with
  | .object fields => pure fields
  | _ => .error (.valueError "research artifact must be a JSON object")

/-- The files of the root, the stores that have been opened, and the references that they have
handed out. -/
structure ArtifactWorld (Payload : Type) where
  files : Dict String Bytes
  stores : List EncryptedArtifactStore := []
  returned : List (EncryptedArtifactStore × Payload × ArtifactReference) := []

/-- What happens to a root. -/
inductive ArtifactAction (Payload : Type) where
  | opens (key : Bytes)
  | puts (store : EncryptedArtifactStore) (payload : Payload) (nonce : Bytes)
  | isCut (store : EncryptedArtifactStore) (payload : Payload) (nonce : Bytes) (written : ℕ)

/-- A store is opened, or not; `put_json` of an open store returns, or raises, or is interrupted. -/
inductive ArtifactStep : ArtifactWorld Payload → ArtifactAction Payload → ArtifactWorld Payload → Prop where
  | opened (w : ArtifactWorld Payload) (key : Bytes) (store : EncryptedArtifactStore)
      (h : EncryptedArtifactStore.open' key = .ok store) :
      ArtifactStep w (.opens key) { w with stores := w.stores ++ [store] }
  | refused (w : ArtifactWorld Payload) (key : Bytes) (e : PyError)
      (h : EncryptedArtifactStore.open' key = .error e) : ArtifactStep w (.opens key) w
  | put (w : ArtifactWorld Payload) (store : EncryptedArtifactStore) (payload : Payload)
      (nonce : Bytes) (reference : ArtifactReference) (files : Dict String Bytes)
      (hopen : store ∈ w.stores) (hnonce : nonce.length = 12)
      (h : putJson codec w.files store payload nonce = .ok (reference, files)) :
      ArtifactStep w (.puts store payload nonce)
        { w with files, returned := w.returned ++ [(store, payload, reference)] }
  | raised (w : ArtifactWorld Payload) (store : EncryptedArtifactStore) (payload : Payload)
      (nonce : Bytes) (e : PyError) (hopen : store ∈ w.stores) (hnonce : nonce.length = 12)
      (h : putJson codec w.files store payload nonce = .error e) :
      ArtifactStep w (.puts store payload nonce) w
  | interrupted (w : ArtifactWorld Payload) (store : EncryptedArtifactStore) (payload : Payload)
      (nonce : Bytes) (written : ℕ) (hopen : store ∈ w.stores) (hnonce : nonce.length = 12) :
      ArtifactStep w (.isCut store payload nonce written)
        { w with files := interruptedPut codec w.files store payload nonce written }

end Store

section Reading

/-- The cipher decrypts exactly what was encrypted under the same key, nonce and associated data, no two
texts have one digest, and the text of a payload is read back as its JSON value. -/
structure ArtifactCodec.Ideal {Payload : Type} (codec : ArtifactCodec Payload)
    (jsonValue : Payload → List (String × Json)) : Prop where
  loads_dumps : ∀ payload text, codec.dumps payload = .ok text →
    codec.loads text = .ok (.object (jsonValue payload))
  sha256_injective : Function.Injective codec.sha256
  decrypt_eq_ok : ∀ key nonce data associated text,
    codec.decrypt key nonce data associated = .ok text ↔ data = codec.encrypt key nonce text associated

variable {Payload : Type} {codec : ArtifactCodec Payload}
  {jsonValue : Payload → List (String × Json)}

/-- The file holds a nonce and the whole encryption of a text under a key. -/
def Holds (codec : ArtifactCodec Payload) (store : EncryptedArtifactStore) (text blob : Bytes) : Prop :=
  blob.drop 12 = codec.encrypt store.key (blob.take 12) text (asciiBytes (codec.sha256 text))

/-- The reference is that of a payload, whose file is in the root. -/
structure Refers (codec : ArtifactCodec Payload) (files : Dict String Bytes) (payload : Payload)
    (reference : ArtifactReference) (text : Bytes) (target : String) (blob : Bytes) : Prop where
  dumps : codec.dumps payload = .ok text
  contentHash : reference.contentHash = codec.sha256 text
  resolve : codec.resolve reference.relativePath = some target
  file : files.get? target = some blob

/-- What is sealed is the encryption of the text under the key of the store. -/
theorem sealJson_eq_ok {store : EncryptedArtifactStore} {payload : Payload} {nonce : Bytes}
    {artifact : SealedArtifact} (h : sealJson codec store payload nonce = .ok artifact) :
    ∃ text, codec.dumps payload = .ok text ∧
      artifact.reference.contentHash = codec.sha256 text ∧
      artifact.reference.relativePath = artifactPath (codec.sha256 text) ∧
      codec.resolve artifact.reference.relativePath = some artifact.target ∧
      artifact.blob = nonce ++
        codec.encrypt store.key nonce text (asciiBytes (codec.sha256 text)) := by
  obtain ⟨text, hdumps, h⟩ := bind_eq_ok.mp h
  obtain ⟨target, htarget, h⟩ := bind_eq_ok.mp h
  cases h
  rw [orRaise_eq_ok] at htarget
  exact ⟨text, hdumps, rfl, rfl, htarget, rfl⟩

/-- A file that exists stays as it is. -/
theorem get?_writeNew {files : Dict String Bytes} {target target' : String} {blob blob' : Bytes}
    (h : files.get? target = some blob) : (writeNew files target' blob').get? target = some blob := by
  unfold writeNew
  split
  · exact h
  · rename_i habsent
    have hne : target' ≠ target := by
      intro heq
      apply habsent
      rw [heq, Dict.contains, h]
      rfl
    rw [Dict.get?_set_ne _ hne, h]

/-- After a write the file is there: the one that was, or the new one. -/
theorem get?_writeNew_self (files : Dict String Bytes) (target : String) (blob : Bytes) :
    (writeNew files target blob).get? target = some ((files.get? target).getD blob) := by
  unfold writeNew
  split
  · rename_i hpresent
    obtain ⟨old, hold⟩ := Option.isSome_iff_exists.mp hpresent
    rw [hold]
    rfl
  · rename_i habsent
    have hnone : files.get? target = none := by simpa [Dict.contains] using habsent
    rw [Dict.get?_set_self, hnone]
    rfl

/-- A file stays as it is when a write is cut short. -/
theorem get?_interruptedPut {files : Dict String Bytes} {target : String} {blob : Bytes}
    (store : EncryptedArtifactStore) (payload : Payload) (nonce : Bytes) (written : ℕ)
    (h : files.get? target = some blob) :
    (interruptedPut codec files store payload nonce written).get? target = some blob := by
  unfold interruptedPut
  split
  · exact get?_writeNew h
  · exact h

/-- A reference to a payload is read exactly when its file holds the payload in full, under the key. -/
theorem getJson_iff_holds (hideal : codec.Ideal jsonValue) {files : Dict String Bytes}
    {store : EncryptedArtifactStore} {payload : Payload} {reference : ArtifactReference}
    {text blob : Bytes} {target : String} (h : Refers codec files payload reference text target blob) :
    getJson codec files store reference = .ok (jsonValue payload) ↔ Holds codec store text blob := by
  unfold getJson Holds
  rw [h.resolve, h.contentHash]
  simp only [orRaise, ok_bind, h.file]
  constructor
  · intro hread
    obtain ⟨cleartext, hdecrypt, hread⟩ := bind_eq_ok.mp hread
    obtain ⟨_, hdigest, _⟩ := bind_eq_ok.mp hread
    have hsame : cleartext = text :=
      hideal.sha256_injective (not_ne_iff.mp (raiseIf_eq_ok.mp hdigest))
    subst hsame
    exact (hideal.decrypt_eq_ok ..).mp hdecrypt
  · intro hholds
    rw [(hideal.decrypt_eq_ok ..).mpr hholds, ok_bind, raiseIf, if_neg (not_not_intro rfl), ok_bind,
      hideal.loads_dumps _ _ h.dumps, ok_bind]
    rfl

end Reading

section Runs

variable {Payload : Type} {codec : ArtifactCodec Payload}
  {jsonValue : Payload → List (String × Json)}

/-- Every reference that a store has handed out is read by it as the value of its payload. -/
def ArtifactWorld.Readable (codec : ArtifactCodec Payload)
    (jsonValue : Payload → List (String × Json)) (w : ArtifactWorld Payload) : Prop :=
  ∀ entry ∈ w.returned, getJson codec w.files entry.1 entry.2.2 = .ok (jsonValue entry.2.1)

/-- Where a payload is put, there is no file, or one that already holds it in full under the key of the
store. -/
def Unspoilt (codec : ArtifactCodec Payload) (w : ArtifactWorld Payload) :
    ArtifactAction Payload → Prop
  | .puts store payload _ => ∀ text target blob, codec.dumps payload = .ok text →
      codec.resolve (artifactPath (codec.sha256 text)) = some target →
      w.files.get? target = some blob → Holds codec store text blob
  | .opens _ | .isCut _ _ _ _ => True

/-- Every reference leads to a file, which holds its payload for the store. -/
def Kept (codec : ArtifactCodec Payload) (w : ArtifactWorld Payload) : Prop :=
  ∀ entry ∈ w.returned, ∃ text target blob,
    Refers codec w.files entry.2.1 entry.2.2 text target blob ∧ Holds codec entry.1 text blob

/-- Some reference leads to a file that does not hold its payload for the store. -/
def Spoilt (codec : ArtifactCodec Payload) (w : ArtifactWorld Payload) : Prop :=
  ∃ entry ∈ w.returned, ∃ text target blob,
    Refers codec w.files entry.2.1 entry.2.2 text target blob ∧ ¬Holds codec entry.1 text blob

/-- A reference leads to the same file when files are only added. -/
theorem Refers.of_files {files files' : Dict String Bytes} {payload : Payload}
    {reference : ArtifactReference} {text blob : Bytes} {target : String}
    (h : Refers codec files payload reference text target blob)
    (hfiles : files.get? target = some blob → files'.get? target = some blob) :
    Refers codec files' payload reference text target blob :=
  { h with file := hfiles h.file }

/-- A reference that is handed out leads to the file that was there, or to what has been sealed. -/
theorem refers_of_putJson {files files' : Dict String Bytes} {store : EncryptedArtifactStore}
    {payload : Payload} {nonce : Bytes} {reference : ArtifactReference}
    (h : putJson codec files store payload nonce = .ok (reference, files')) :
    (∀ target blob, files.get? target = some blob → files'.get? target = some blob) ∧
    ∃ text target, codec.dumps payload = .ok text ∧
      codec.resolve (artifactPath (codec.sha256 text)) = some target ∧
      Refers codec files' payload reference text target ((files.get? target).getD
        (nonce ++ codec.encrypt store.key nonce text (asciiBytes (codec.sha256 text)))) := by
  obtain ⟨artifact, hseal, h⟩ := bind_eq_ok.mp h
  cases h
  obtain ⟨text, hdumps, hhash, hpath, hresolve, hblob⟩ := sealJson_eq_ok hseal
  constructor
  · intro target blob hfile
    exact get?_writeNew hfile
  · refine ⟨text, artifact.target, hdumps, hpath ▸ hresolve, hdumps, hhash, hresolve, ?_⟩
    rw [get?_writeNew_self, hblob]

/-- What is sealed holds the payload. -/
theorem holds_sealed (store : EncryptedArtifactStore) (text : Bytes) {nonce : Bytes}
    (hnonce : nonce.length = 12) :
    Holds codec store text
      (nonce ++ codec.encrypt store.key nonce text (asciiBytes (codec.sha256 text))) := by
  rw [Holds, ← hnonce, List.drop_left, List.take_left]

/-- The file of a reference that is handed out holds its payload exactly when the step was allowed. -/
theorem holds_iff_unspoilt {w : ArtifactWorld Payload} {store : EncryptedArtifactStore}
    {payload : Payload} {nonce text : Bytes} {target : String} (hnonce : nonce.length = 12)
    (hdumps : codec.dumps payload = .ok text)
    (hresolve : codec.resolve (artifactPath (codec.sha256 text)) = some target) :
    Holds codec store text ((w.files.get? target).getD
        (nonce ++ codec.encrypt store.key nonce text (asciiBytes (codec.sha256 text)))) ↔
      Unspoilt codec w (.puts store payload nonce) := by
  constructor
  · intro hholds text' target' blob hdumps' hresolve' hfile
    rw [hdumps] at hdumps'
    cases hdumps'
    rw [hresolve] at hresolve'
    cases hresolve'
    rwa [hfile] at hholds
  · intro hallowed
    cases hfile : w.files.get? target with
    | none => exact holds_sealed store text hnonce
    | some blob => exact hallowed text target blob hdumps hresolve hfile

/-- Files are only added by a step. -/
theorem ArtifactStep.files {w w' : ArtifactWorld Payload} {a : ArtifactAction Payload}
    (h : ArtifactStep codec w a w') {target : String} {blob : Bytes}
    (hfile : w.files.get? target = some blob) : w'.files.get? target = some blob := by
  cases h with
  | opened key store hopens => exact hfile
  | refused key e hopens => exact hfile
  | put store payload nonce reference files hopen hnonce hput =>
    exact (refers_of_putJson hput).1 target blob hfile
  | raised store payload nonce e hopen hnonce hput => exact hfile
  | interrupted store payload nonce written hopen hnonce => exact get?_interruptedPut _ _ _ _ hfile

/-- `put_json` raises only when there is no text or no file to write. -/
theorem unspoilt_of_raised {w : ArtifactWorld Payload} {store : EncryptedArtifactStore}
    {payload : Payload} {nonce : Bytes} {e : PyError}
    (h : putJson codec w.files store payload nonce = .error e) :
    Unspoilt codec w (.puts store payload nonce) := by
  intro text target blob hdumps hresolve hfile
  simp [putJson, sealJson, hdumps, ok_bind, hresolve, orRaise] at h

/-- A step hands out no reference and is allowed, or it hands out one whose file holds the payload
exactly when the step is allowed. -/
theorem ArtifactStep.returned {w w' : ArtifactWorld Payload} {a : ArtifactAction Payload}
    (h : ArtifactStep codec w a w') :
    w'.returned = w.returned ∧ Unspoilt codec w a ∨
      ∃ entry text target blob, w'.returned = w.returned ++ [entry] ∧
        Refers codec w'.files entry.2.1 entry.2.2 text target blob ∧
        (Holds codec entry.1 text blob ↔ Unspoilt codec w a) := by
  cases h with
  | opened key store hopens => exact .inl ⟨rfl, trivial⟩
  | refused key e hopens => exact .inl ⟨rfl, trivial⟩
  | put store payload nonce reference files hopen hnonce hput =>
    obtain ⟨_, text, target, hdumps, hresolve, hrefers⟩ := refers_of_putJson hput
    exact .inr ⟨_, text, target, _, rfl, hrefers, holds_iff_unspoilt hnonce hdumps hresolve⟩
  | raised store payload nonce e hopen hnonce hput => exact .inl ⟨rfl, unspoilt_of_raised hput⟩
  | interrupted store payload nonce written hopen hnonce => exact .inl ⟨rfl, trivial⟩

/-- An allowed step keeps the payloads of all references. -/
theorem Kept.step {w w' : ArtifactWorld Payload} {a : ArtifactAction Payload} (hkept : Kept codec w)
    (hallowed : Unspoilt codec w a) (h : ArtifactStep codec w a w') : Kept codec w' := by
  have hbefore : ∀ entry ∈ w.returned, ∃ text target blob,
      Refers codec w'.files entry.2.1 entry.2.2 text target blob ∧ Holds codec entry.1 text blob := by
    intro entry hentry
    obtain ⟨text, target, blob, hrefers, hholds⟩ := hkept entry hentry
    exact ⟨text, target, blob, hrefers.of_files h.files, hholds⟩
  intro entry hentry
  obtain ⟨hsame, _⟩ | ⟨new, text, target, blob, hnew, hrefers, hholds⟩ := h.returned
  · rw [hsame] at hentry
    exact hbefore entry hentry
  · rw [hnew, List.mem_append, List.mem_singleton] at hentry
    rcases hentry with hentry | rfl
    · exact hbefore entry hentry
    · exact ⟨text, target, blob, hrefers, hholds.mpr hallowed⟩

/-- A step that is not allowed spoils a reference. -/
theorem spoilt_of_not_unspoilt {w w' : ArtifactWorld Payload} {a : ArtifactAction Payload}
    (hnot : ¬Unspoilt codec w a) (h : ArtifactStep codec w a w') : Spoilt codec w' := by
  obtain ⟨_, hallowed⟩ | ⟨new, text, target, blob, hnew, hrefers, hholds⟩ := h.returned
  · exact absurd hallowed hnot
  · refine ⟨new, ?_, text, target, blob, hrefers, fun h => hnot (hholds.mp h)⟩
    rw [hnew]
    exact List.mem_append_right _ (List.mem_singleton.mpr rfl)

/-- A reference that is spoilt stays so. -/
theorem Spoilt.step {w w' : ArtifactWorld Payload} {a : ArtifactAction Payload}
    (hspoilt : Spoilt codec w) (h : ArtifactStep codec w a w') : Spoilt codec w' := by
  obtain ⟨entry, hentry, text, target, blob, hrefers, hholds⟩ := hspoilt
  refine ⟨entry, ?_, text, target, blob, hrefers.of_files h.files, hholds⟩
  obtain ⟨hsame, _⟩ | ⟨new, _, _, _, hnew, _⟩ := h.returned
  · rwa [hsame]
  · rw [hnew]
    exact List.mem_append_left _ hentry

/-- All references are read, after a run on a root, exactly when every `put_json` of the run found no
file for its payload, or one that already held it in full under the key of its store. -/
theorem readable_iff_unspoilt (hideal : codec.Ideal jsonValue) {w w' : ArtifactWorld Payload}
    {actions : List (ArtifactAction Payload)} (hfresh : w.returned = [])
    (hrun : Transitions.Run (ArtifactStep codec) (fun _ _ => True) w actions w') :
    w'.Readable codec jsonValue ↔
      Transitions.Run (ArtifactStep codec) (Unspoilt codec) w actions w' := by
  have hinit : Kept codec w := by
    intro entry hentry
    rw [hfresh] at hentry
    cases hentry
  constructor
  · intro hreadable
    apply Transitions.Run.allowed_of_unspoilt (I := Kept codec) (B := Spoilt codec)
      (fun w a w' hkept hallowed h => hkept.step hallowed h)
      (fun w a w' _ hnot h => spoilt_of_not_unspoilt hnot h)
      (fun w a w' hspoilt h => hspoilt.step h) hrun hinit
    intro ⟨entry, hentry, text, target, blob, hrefers, hholds⟩
    exact hholds ((getJson_iff_holds hideal hrefers).mp (hreadable entry hentry))
  · intro hallowed
    have hkept : Kept codec w' :=
      hallowed.invariant (fun w a w' hkept hallowed h => hkept.step hallowed h) hinit
    intro entry hentry
    obtain ⟨text, target, blob, hrefers, hholds⟩ := hkept entry hentry
    exact (getJson_iff_holds hideal hrefers).mpr hholds

end Runs

section Sample

/-- The text of an empty object. -/
def emptyObject : Bytes := asciiBytes "\x7b\x7d"

/-- The digest of that text. -/
def emptyObjectDigest : Bytes :=
  [0x44, 0x13, 0x6f, 0xa3, 0x55, 0xb3, 0x67, 0x8a, 0x11, 0x46, 0xad, 0x16, 0xf7, 0xe8, 0x64, 0x9e,
    0x94, 0xfb, 0x4f, 0xc2, 0x1f, 0xe7, 0x7e, 0x83, 0x10, 0xc0, 0x60, 0xf6, 0x1c, 0xaa, 0xff, 0x8a]

/-- Bytes in hexadecimal digits. -/
def hexText (bytes : Bytes) : String := String.ofList (bytes.flatMap fun b => hexDigits 2 b.toNat)

/-- A sample codec for a single payload, the empty object. Its digest of the empty object is the real
one, and its cipher writes the key, the nonce and the associated data in front of the text. -/
def sampleCodec : ArtifactCodec Unit where
  dumps _ := .ok emptyObject
  loads text := if text = emptyObject then .ok (.object []) else .error (.valueError "JSON")
  sha256 text := hexText (Equiv.swap emptyObject emptyObjectDigest text)
  encrypt key nonce text associated := key ++ nonce ++ associated ++ text
  decrypt key nonce data associated :=
    if key ++ nonce ++ associated <+: data then
      .ok (data.drop (key ++ nonce ++ associated).length)
    else .error { typeName := "InvalidTag" }
  resolve := some

/-- Bytes are known by their digits. -/
theorem hexText_injective : Function.Injective hexText := by
  intro a b h
  have hchars := String.ofList_inj.mp h
  induction a generalizing b with
  | nil =>
    cases b with
    | nil => rfl
    | cons y ys => simp [hexDigits] at hchars
  | cons x xs ih =>
    cases b with
    | nil => simp [hexDigits] at hchars
    | cons y ys =>
      rw [List.flatMap_cons, List.flatMap_cons] at hchars
      obtain ⟨hfirst, hrest⟩ := List.append_inj hchars rfl
      have hbyte := hexDigits_injective x.toNat_lt y.toNat_lt hfirst
      rw [UInt8.toNat_inj.mp hbyte, ih (congrArg String.ofList hrest) hrest]

/-- The sample codec is as it is assumed to be. -/
theorem sampleCodec_ideal : sampleCodec.Ideal fun _ => [] where
  loads_dumps payload text h := by
    cases h
    rfl
  sha256_injective := hexText_injective.comp (Equiv.injective _)
  decrypt_eq_ok key nonce data associated text := by
    simp only [sampleCodec]
    constructor
    · intro h
      split at h
      · rename_i hprefix
        cases h
        exact (List.prefix_iff_eq_append.mp hprefix).symm
      · cases h
    · intro h
      rw [h, if_pos (List.prefix_append _ _), List.drop_left]

/-- A key of equal bytes. -/
def sampleStore (byte : UInt8) : EncryptedArtifactStore := ⟨List.replicate 32 byte, by simp⟩

/-- A nonce of zeros. -/
def sampleNonce : Bytes := List.replicate 12 0

/-- The file of the empty object. -/
def sampleTarget : String := artifactPath (sampleCodec.sha256 emptyObject)

/-- The reference to the empty object. -/
def sampleReference : ArtifactReference :=
  { contentHash := sampleCodec.sha256 emptyObject, relativePath := sampleTarget }

/-- What a store writes for the empty object. -/
def sampleBlob (store : EncryptedArtifactStore) : Bytes :=
  sampleNonce ++ sampleCodec.encrypt store.key sampleNonce emptyObject
    (asciiBytes (sampleCodec.sha256 emptyObject))

/-- The empty object is put into a root. -/
theorem putJson_sample (files : Dict String Bytes) (store : EncryptedArtifactStore) :
    putJson sampleCodec files store () sampleNonce =
      .ok (sampleReference, writeNew files sampleTarget (sampleBlob store)) := rfl

/-- A store is opened with a key of equal bytes. -/
theorem open_sampleStore (byte : UInt8) :
    EncryptedArtifactStore.open' (List.replicate 32 byte) = .ok (sampleStore byte) := by
  rw [EncryptedArtifactStore.open', dif_pos (by simp)]
  rfl

/-- A store is opened and the empty object is put into it. -/
def putSample (w : ArtifactWorld Unit) (byte : UInt8) : ArtifactWorld Unit where
  files := writeNew w.files sampleTarget (sampleBlob (sampleStore byte))
  stores := w.stores ++ [sampleStore byte]
  returned := w.returned ++ [(sampleStore byte, (), sampleReference)]

/-- The two steps that put the empty object into a store that is opened. -/
theorem run_putSample {allowed : ArtifactWorld Unit → ArtifactAction Unit → Prop}
    (w : ArtifactWorld Unit) (byte : UInt8)
    (hopens : allowed w (.opens (List.replicate 32 byte)))
    (hputs : allowed { w with stores := w.stores ++ [sampleStore byte] }
      (.puts (sampleStore byte) () sampleNonce)) {actions : List (ArtifactAction Unit)}
    {w' : ArtifactWorld Unit}
    (hrest : Transitions.Run (ArtifactStep sampleCodec) allowed (putSample w byte) actions w') :
    Transitions.Run (ArtifactStep sampleCodec) allowed w
      (.opens (List.replicate 32 byte) :: .puts (sampleStore byte) () sampleNonce :: actions) w' := by
  apply Transitions.Run.cons _ _ _ _ _ hopens (.opened w _ _ (open_sampleStore byte))
  apply Transitions.Run.cons _ _ _ _ _ hputs
  · exact .put _ (sampleStore byte) () sampleNonce sampleReference _
      (List.mem_append_right _ (List.mem_singleton.mpr rfl)) (by decide) (putJson_sample _ _)
  · exact hrest

/-- A single store reads what it has written. -/
theorem readable_sample :
    (putSample { files := .empty } 0).Readable sampleCodec fun _ => [] := by
  apply (readable_iff_unspoilt sampleCodec_ideal rfl
    (run_putSample { files := .empty } 0 trivial trivial (.nil _))).mpr
  apply run_putSample { files := .empty } 0 trivial _ (.nil _)
  intro text target blob _ _ hfile
  cases hfile

/-- After the key has been changed, a payload that is put again is left under the old key, and the
reference that is handed out cannot be read. -/
theorem unreadable_after_rotation :
    ¬∀ (Payload : Type) (codec : ArtifactCodec Payload) (jsonValue : Payload → List (String × Json))
      (w w' : ArtifactWorld Payload) (actions : List (ArtifactAction Payload)),
      codec.Ideal jsonValue → w.returned = [] →
        Transitions.Run (ArtifactStep codec) (fun _ _ => True) w actions w' →
          w'.Readable codec jsonValue := by
  intro h
  have hrun := @run_putSample (fun _ _ => True) { files := .empty } 0 trivial trivial _ _
    (@run_putSample (fun _ _ => True) _ 1 trivial trivial _ _ (.nil _))
  have hreadable := h Unit sampleCodec (fun _ => []) _ _ _ sampleCodec_ideal rfl hrun
    (sampleStore 1, (), sampleReference) (by simp [putSample])
  have hfile : (putSample (putSample { files := .empty } 0) 1).files.get? sampleTarget =
      some (sampleBlob (sampleStore 0)) := get?_writeNew (get?_writeNew_self _ _ _)
  have hrefers : Refers sampleCodec (putSample (putSample { files := .empty } 0) 1).files ()
      sampleReference emptyObject sampleTarget (sampleBlob (sampleStore 0)) :=
    ⟨rfl, rfl, rfl, hfile⟩
  have hholds := (getJson_iff_holds sampleCodec_ideal hrefers).mp hreadable
  have hkey := congrArg List.head? hholds
  have hzero : ((sampleBlob (sampleStore 0)).drop 12).head? = some 0 := rfl
  rw [hzero] at hkey
  cases hkey

end Sample

end Amlguard
