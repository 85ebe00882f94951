import Amlguard.Monitoring.Artifacts
import Mathlib.Data.List.DropRight

/-!
# The recorder of trajectories

`TrajectoryRecorder` appends each event to those of its run, and writes the whole trajectory to the store of
encrypted artifacts each time. A write that raises leaves the event in memory and the reference of the run
where it was.

What the store gives back for a run is therefore its trajectory up to the last call of `record` that has
returned, whatever other runs and other processes do in between, as long as each document finds no file
under its digest or one that holds it in full.
-/

namespace Amlguard

/-- An event, as the recorder keeps it. -/
structure RecordedEvent where
  eventType : String
  payload : Json
  deriving DecidableEq

/-- What the recorder writes for a run. -/
abbrev TrajectoryDocument := UUID × List RecordedEvent

/-- The JSON value of an event. -/
def RecordedEvent.value (event : RecordedEvent) : Json :=
  .object [("event_type", .string event.eventType), ("payload", event.payload)]

/-- The fields of a document, as `json.dumps` sorts them. -/
def documentFields (document : TrajectoryDocument) : List (String × Json) :=
  [("events", .array (document.2.map RecordedEvent.value)), ("run_id", .string document.1.str)]

/-- A `TrajectoryRecorder`. -/
structure TrajectoryRecorder where
  store : Option EncryptedArtifactStore
  events : Dict UUID (List RecordedEvent) := .empty
  latest : Dict UUID ArtifactReference := .empty

namespace TrajectoryRecorder

/-- The events of a run. -/
def eventsOf (r : TrajectoryRecorder) (runId : UUID) : List RecordedEvent := (r.events.get? runId).getD []

/-- `record`, with the nonce that `put_json` draws: its end, the recorder and the files of the root. -/
def record (codec : ArtifactCodec TrajectoryDocument) (files : Dict String Bytes) (r : TrajectoryRecorder)
    (runId : UUID) (event : RecordedEvent) (nonce : Bytes) :
    Except PyError Unit × TrajectoryRecorder × Dict String Bytes :=
  let events := r.eventsOf runId ++ [event]
  let r := { r with events := r.events.set runId events }
  match r.store with
  | none => (.ok (), r, files)
  | some store =>
    match putJson codec files store (runId, events) nonce with
    | .ok (reference, files) => (.ok (), { r with latest := r.latest.set runId reference }, files)
    | .error e => (.error e, r, files)

end TrajectoryRecorder

/-- A recorder on the files of its root, and all calls of `record` so far with whether they returned. -/
structure RecorderWorld where
  files : Dict String Bytes
  recorder : TrajectoryRecorder
  calls : List (UUID × RecordedEvent × Bool) := []

/-- What happens to a recorder and its root. -/
inductive RecorderAction where
  | records (runId : UUID) (event : RecordedEvent) (nonce : Bytes)
  | isWritten (files : Dict String Bytes)

namespace RecorderWorld

/-- The effect of a call of `record`. -/
def record (codec : ArtifactCodec TrajectoryDocument) (w : RecorderWorld) (runId : UUID)
    (event : RecordedEvent) (nonce : Bytes) : RecorderWorld :=
  let r := w.recorder.record codec w.files runId event nonce
  { files := r.2.2, recorder := r.2.1, calls := w.calls ++ [(runId, event, r.1.isOk)] }

/-- The calls for a run. -/
def callsOf (w : RecorderWorld) (runId : UUID) : List (RecordedEvent × Bool) :=
  (w.calls.filter fun c => c.1 = runId).map Prod.snd

/-- The events of a run up to the last call that has returned. -/
def kept (w : RecorderWorld) (runId : UUID) : List RecordedEvent :=
  ((w.callsOf runId).rdropWhile fun c => !c.2).map Prod.fst

end RecorderWorld

section Steps

variable (codec : ArtifactCodec TrajectoryDocument)

/-- A call of `record`, or files that others add to the root. -/
inductive RecorderStep : RecorderWorld → RecorderAction → RecorderWorld → Prop where
  | recorded (w : RecorderWorld) (runId : UUID) (event : RecordedEvent) (nonce : Bytes)
      (hnonce : nonce.length = 12) :
      RecorderStep w (.records runId event nonce) (w.record codec runId event nonce)
  | written (w : RecorderWorld) (files : Dict String Bytes)
      (hkeeps : ∀ target blob, w.files.get? target = some blob → files.get? target = some blob) :
      RecorderStep w (.isWritten files) { w with files }

/-- Where the document of a call is put, there is no file, or one that holds it in full under the key of
the store. -/
def FindsUnspoilt (store : EncryptedArtifactStore) (w : RecorderWorld) : RecorderAction → Prop
  | .records runId event nonce => Unspoilt codec { files := w.files }
      (.puts store (runId, w.recorder.eventsOf runId ++ [event]) nonce)
  | .isWritten _ => True

/-- The recorder has all events in memory, and the store gives back the trajectory of every run up to the
last call that has returned. -/
structure RecorderWorld.Recovered (store : EncryptedArtifactStore) (w : RecorderWorld) : Prop where
  events (runId : UUID) : w.recorder.eventsOf runId = (w.callsOf runId).map Prod.fst
  latest (runId : UUID) : (w.recorder.latest.get? runId).map (getJson codec w.files store) =
    if w.kept runId = [] then none else some (.ok (documentFields (runId, w.kept runId)))

/-- The reference of every run leads to the file of its trajectory up to the last call that has
returned. -/
structure RecorderWorld.Filed (store : EncryptedArtifactStore) (w : RecorderWorld) : Prop where
  store_eq : w.recorder.store = some store
  events (runId : UUID) : w.recorder.eventsOf runId = (w.callsOf runId).map Prod.fst
  latest (runId : UUID) : (w.recorder.latest.get? runId = none ∧ w.kept runId = []) ∨
    ∃ reference text target blob, w.recorder.latest.get? runId = some reference ∧ w.kept runId ≠ [] ∧
      Refers codec w.files (runId, w.kept runId) reference text target blob

end Steps

namespace RecorderWorld

variable {codec : ArtifactCodec TrajectoryDocument} {store : EncryptedArtifactStore} {w w' : RecorderWorld}

/-- Every reference is read as the trajectory that it was made for. -/
def ReadsBack (codec : ArtifactCodec TrajectoryDocument) (store : EncryptedArtifactStore)
    (w : RecorderWorld) (runId : UUID) : Prop :=
  ∀ reference, w.recorder.latest.get? runId = some reference →
    getJson codec w.files store reference = .ok (documentFields (runId, w.kept runId))

/-- What the store gives back is a matter of the references that there are. -/
theorem Filed.recovered_iff (h : w.Filed codec store) :
    w.Recovered codec store ↔ ∀ runId, w.ReadsBack codec store runId := by
  constructor
  · intro hrecovered runId reference hreference
    have hlatest := hrecovered.latest runId
    rw [hreference, Option.map_some] at hlatest
    split at hlatest
    · cases hlatest
    · exact Option.some.inj hlatest
  · intro hreads
    refine ⟨h.events, fun runId => ?_⟩
    rcases h.latest runId with ⟨hnone, hkept⟩ | ⟨reference, text, target, blob, hsome, hkept, -⟩
    · rw [hnone, if_pos hkept]
      rfl
    · rw [hsome, Option.map_some, if_neg hkept, hreads runId reference hsome]

/-- Files that are only added leave a run filed as it was. -/
theorem filed_of_files {runId : UUID}
    (hsame : w'.recorder.latest.get? runId = w.recorder.latest.get? runId)
    (hkept : w'.kept runId = w.kept runId)
    (hkeeps : ∀ target blob, w.files.get? target = some blob → w'.files.get? target = some blob)
    (h : (w.recorder.latest.get? runId = none ∧ w.kept runId = []) ∨
      ∃ reference text target blob, w.recorder.latest.get? runId = some reference ∧ w.kept runId ≠ [] ∧
        Refers codec w.files (runId, w.kept runId) reference text target blob) :
    (w'.recorder.latest.get? runId = none ∧ w'.kept runId = []) ∨
      ∃ reference text target blob, w'.recorder.latest.get? runId = some reference ∧ w'.kept runId ≠ [] ∧
        Refers codec w'.files (runId, w'.kept runId) reference text target blob := by
  rw [hsame, hkept]
  apply h.imp id
  rintro ⟨reference, text, target, blob, hsome, hne, hrefers⟩
  exact ⟨reference, text, target, blob, hsome, hne, hrefers.of_files (hkeeps target blob)⟩

/-- Files that are only added leave a run as readable as it was. -/
theorem readsBack_of_files (hideal : codec.Ideal documentFields) {runId : UUID}
    (h : w.Filed codec store)
    (hsame : w'.recorder.latest.get? runId = w.recorder.latest.get? runId)
    (hkept : w'.kept runId = w.kept runId)
    (hkeeps : ∀ target blob, w.files.get? target = some blob → w'.files.get? target = some blob) :
    w'.ReadsBack codec store runId ↔ w.ReadsBack codec store runId := by
  unfold ReadsBack
  rw [hsame, hkept]
  rcases h.latest runId with ⟨hnone, -⟩ | ⟨reference, text, target, blob, hsome, -, hrefers⟩
  · simp [hnone]
  · have hlater := hrefers.of_files (hkeeps target blob)
    simp only [hsome, Option.some.injEq, forall_eq']
    exact (getJson_iff_holds hideal hlater).trans (getJson_iff_holds hideal hrefers).symm

/-- The calls for a run after one call more. -/
theorem callsOf_record (runId : UUID) (event : RecordedEvent) (nonce : Bytes) (run : UUID) :
    (w.record codec runId event nonce).callsOf run = w.callsOf run ++
      if runId = run then [(event, (w.recorder.record codec w.files runId event nonce).1.isOk)] else [] := by
  by_cases hrun : runId = run <;> simp [callsOf, record, hrun]

/-- The events of a run after one call more, whether it returns or not. -/
theorem eventsOf_record (runId : UUID) (event : RecordedEvent) (nonce : Bytes) (run : UUID) :
    (w.record codec runId event nonce).recorder.eventsOf run = w.recorder.eventsOf run ++
      if runId = run then [event] else [] := by
  have hevents : (w.record codec runId event nonce).recorder.events =
      w.recorder.events.set runId (w.recorder.eventsOf runId ++ [event]) := by
    simp only [record, TrajectoryRecorder.record]
    split
    · rfl
    · split <;> rfl
  rw [TrajectoryRecorder.eventsOf, hevents, Dict.get?_set]
  split
  · rename_i heq
    subst heq
    rfl
  · simp [TrajectoryRecorder.eventsOf]

/-- A call that raises leaves the files and the references, and what is kept of every run. -/
theorem record_raised (hstore : w.recorder.store = some store) {runId : UUID} {event : RecordedEvent}
    {nonce : Bytes} {e : PyError}
    (hput : putJson codec w.files store (runId, w.recorder.eventsOf runId ++ [event]) nonce = .error e) :
    (w.record codec runId event nonce).files = w.files ∧
      (w.record codec runId event nonce).recorder.latest = w.recorder.latest ∧
      (w.record codec runId event nonce).recorder.store = some store ∧
      ∀ run, (w.record codec runId event nonce).kept run = w.kept run := by
  have hrecord : w.recorder.record codec w.files runId event nonce =
      (.error e, { w.recorder with
        events := w.recorder.events.set runId (w.recorder.eventsOf runId ++ [event]) }, w.files) := by
    simp only [TrajectoryRecorder.record, hstore, hput]
  refine ⟨by rw [record, hrecord], by rw [record, hrecord], by rw [record, hrecord, hstore], fun run => ?_⟩
  rw [kept, callsOf_record, hrecord]
  split
  · rw [List.rdropWhile_concat_pos _ _ _ (by rfl)]
    rfl
  · rw [List.append_nil]
    rfl

/-- A call that returns keeps all events of its run, under the reference of its document. -/
theorem record_returned (hstore : w.recorder.store = some store) {runId : UUID} {event : RecordedEvent}
    {nonce : Bytes} {reference : ArtifactReference} {files : Dict String Bytes}
    (hput : putJson codec w.files store (runId, w.recorder.eventsOf runId ++ [event]) nonce =
      .ok (reference, files)) :
    (w.record codec runId event nonce).files = files ∧
      (w.record codec runId event nonce).recorder.latest = w.recorder.latest.set runId reference ∧
      (w.record codec runId event nonce).recorder.store = some store ∧
      (w.record codec runId event nonce).kept runId = (w.callsOf runId).map Prod.fst ++ [event] ∧
      ∀ run, runId ≠ run → (w.record codec runId event nonce).kept run = w.kept run := by
  have hrecord : w.recorder.record codec w.files runId event nonce =
      (.ok (), { w.recorder with
        events := w.recorder.events.set runId (w.recorder.eventsOf runId ++ [event])
        latest := w.recorder.latest.set runId reference }, files) := by
    simp only [TrajectoryRecorder.record, hstore, hput]
  refine ⟨by rw [record, hrecord], by rw [record, hrecord], by rw [record, hrecord, hstore], ?_, ?_⟩
  · rw [kept, callsOf_record, hrecord, if_pos rfl, List.rdropWhile_concat_neg _ _ _ (by simp [Except.isOk, Except.toBool])]
    simp
  · intro run hrun
    rw [kept, callsOf_record, if_neg hrun, List.append_nil]
    rfl

/-- Every step files every trajectory, and what it reads back afterwards is what it has read back before
and what its call finds. -/
theorem step_spec (hideal : codec.Ideal documentFields) {a : RecorderAction} (h : w.Filed codec store)
    (hstep : RecorderStep codec w a w') :
    w'.Filed codec store ∧ ((∀ runId, w.ReadsBack codec store runId) →
      ((∀ runId, w'.ReadsBack codec store runId) ↔ FindsUnspoilt codec store w a)) := by
  cases hstep with
  | written files hkeeps =>
    constructor
    · exact ⟨h.store_eq, h.events, fun runId => filed_of_files (w := w) rfl rfl hkeeps (h.latest runId)⟩
    · intro hreads
      have hread (runId : UUID) :
          ReadsBack codec store { w with files } runId ↔ w.ReadsBack codec store runId :=
        readsBack_of_files hideal h rfl rfl hkeeps
      exact iff_of_true (fun runId => (hread runId).mpr (hreads runId)) trivial
  | recorded runId event nonce hnonce =>
    have hevents (run : UUID) : (w.record codec runId event nonce).recorder.eventsOf run =
        ((w.record codec runId event nonce).callsOf run).map Prod.fst := by
      rw [eventsOf_record, callsOf_record, h.events]
      split <;> simp
    cases hput : putJson codec w.files store (runId, w.recorder.eventsOf runId ++ [event]) nonce with
    | error e =>
      obtain ⟨hfiles, hlatest, hstore, hkept⟩ := record_raised h.store_eq hput
      have hkeeps (target : String) (blob : Bytes) (hfile : w.files.get? target = some blob) :
          (w.record codec runId event nonce).files.get? target = some blob := by
        rw [hfiles, hfile]
      constructor
      · refine ⟨hstore, hevents, fun run => ?_⟩
        exact filed_of_files (by rw [hlatest]) (hkept run) hkeeps (h.latest run)
      · intro hreads
        have hfound : FindsUnspoilt codec store w (.records runId event nonce) :=
          unspoilt_of_raised (w := { files := w.files }) hput
        refine iff_of_true (fun run => ?_) hfound
        exact (readsBack_of_files hideal h (by rw [hlatest]) (hkept run) hkeeps).mpr (hreads run)
    | ok r =>
      obtain ⟨reference, files⟩ := r
      obtain ⟨hfiles, hlatest, hstore, hown, hother⟩ := record_returned h.store_eq hput
      obtain ⟨hkeeps, text, target, hdumps, hresolve, hrefers⟩ := refers_of_putJson hput
      rw [← hfiles] at hkeeps hrefers
      rw [h.events, ← hown] at hrefers
      have hsame {run : UUID} (hrun : runId ≠ run) :
          (w.record codec runId event nonce).recorder.latest.get? run = w.recorder.latest.get? run := by
        rw [hlatest, Dict.get?_set_ne _ hrun]
      have hnew : (w.record codec runId event nonce).recorder.latest.get? runId = some reference := by
        rw [hlatest, Dict.get?_set_self]
      have hne : (w.record codec runId event nonce).kept runId ≠ [] := by
        rw [hown]
        simp
      constructor
      · refine ⟨hstore, hevents, fun run => ?_⟩
        by_cases hrun : runId = run
        · subst hrun
          exact .inr ⟨reference, text, target, _, hnew, hne, hrefers⟩
        · exact filed_of_files (hsame hrun) (hother run hrun) hkeeps (h.latest run)
      · intro hreads
        have hread : (w.record codec runId event nonce).ReadsBack codec store runId ↔
            FindsUnspoilt codec store w (.records runId event nonce) := by
          unfold ReadsBack
          simp only [hnew, Option.some.injEq, forall_eq']
          rw [getJson_iff_holds hideal hrefers]
          exact holds_iff_unspoilt (w := { files := w.files }) hnonce hdumps hresolve
        rw [← hread]
        constructor
        · exact fun hall => hall runId
        · intro hthis run
          by_cases hrun : runId = run
          · exact hrun ▸ hthis
          · exact (readsBack_of_files hideal h (hsame hrun) (hother run hrun) hkeeps).mpr (hreads run)

end RecorderWorld

/-- In every state of a run of a recorder, with any number of trajectories that are recorded in any order
and any files that others add, memory has all events and the store gives back each trajectory up to its
last call that has returned, exactly when every call finds no file for its document or one that holds
it. -/
theorem trajectories_recovered_iff {codec : ArtifactCodec TrajectoryDocument}
    (hideal : codec.Ideal documentFields) (store : EncryptedArtifactStore) (files : Dict String Bytes)
    (actions : List RecorderAction) (w : RecorderWorld) :
    (Transitions.Run (RecorderStep codec) (fun w _ => w.Recovered codec store)
        { files, recorder := { store := some store } } actions w ∧ w.Recovered codec store) ↔
      Transitions.Run (RecorderStep codec) (FindsUnspoilt codec store)
        { files, recorder := { store := some store } } actions w := by
  have hfresh : RecorderWorld.Filed codec store { files, recorder := { store := some store } } :=
    ⟨rfl, fun _ => rfl, fun _ => .inl ⟨rfl, rfl⟩⟩
  have hkeeps (v : RecorderWorld) (a : RecorderAction) (v' : RecorderWorld) (h : v.Filed codec store)
      (hstep : RecorderStep codec v a v') : v'.Filed codec store :=
    (RecorderWorld.step_spec hideal h hstep).1
  have hexact (v : RecorderWorld) (a : RecorderAction) (v' : RecorderWorld)
      (hv : v.Filed codec store ∧ v.Recovered codec store) (hstep : RecorderStep codec v a v') :
      v'.Filed codec store ∧ v'.Recovered codec store ↔ FindsUnspoilt codec store v a := by
    obtain ⟨hfiled, hiff⟩ := RecorderWorld.step_spec hideal hv.1 hstep
    rw [hfiled.recovered_iff, hiff (hv.1.recovered_iff.mp hv.2), and_iff_right hfiled]
  rw [← Transitions.Run.throughout_iff hexact
    ⟨hfresh, hfresh.recovered_iff.mpr fun _ _ h => by cases h⟩]
  constructor
  · rintro ⟨hrun, hend⟩
    have hfiled : w.Filed codec store := (hrun.any).invariant (fun v a v' h _ => hkeeps v a v' h) hfresh
    exact ⟨hrun.strengthen hkeeps hfresh, hfiled, hend⟩
  · rintro ⟨hrun, hend⟩
    exact ⟨hrun.mono fun v _ h => h.2, hend.2⟩

/-- An event without data. -/
def plainEvent (eventType : String) : RecordedEvent := ⟨eventType, .object []⟩

/-- A trajectory of one event. -/
def sampleDocument : TrajectoryDocument := (7, [plainEvent "evidence_retrieved"])

/-- The text of that trajectory. -/
def sampleDocumentText : Bytes :=
  asciiBytes ("\x7b\"events\":[\x7b\"event_type\":\"evidence_retrieved\",\"payload\":\x7b\x7d\x7d]," ++
    "\"run_id\":\"00000000-0000-0000-0000-000000000007\"\x7d")

/-- The digest of that text. -/
def sampleDocumentDigest : Bytes :=
  [0x4d, 0xb1, 0xb1, 0xe3, 0xb5, 0x9b, 0xdd, 0x13, 0x88, 0x36, 0xde, 0x05, 0xb5, 0xf3, 0x08, 0x1a,
    0xe9, 0x5b, 0x92, 0xce, 0xe8, 0x01, 0x7e, 0xa9, 0xba, 0x05, 0x49, 0xbf, 0x2e, 0x29, 0xb8, 0x55]

/-- A trajectory of another run. -/
def otherDocument : TrajectoryDocument := (8, [plainEvent "controls_evaluated"])

/-- The text of that trajectory. -/
def otherDocumentText : Bytes :=
  asciiBytes ("\x7b\"events\":[\x7b\"event_type\":\"controls_evaluated\",\"payload\":\x7b\x7d\x7d]," ++
    "\"run_id\":\"00000000-0000-0000-0000-000000000008\"\x7d")

/-- The digest of that text. -/
def otherDocumentDigest : Bytes :=
  [0x73, 0xe5, 0x3e, 0x0f, 0xf3, 0xc8, 0xc3, 0xdb, 0x89, 0x54, 0xf1, 0x33, 0x25, 0xda, 0xe2, 0x02,
    0xa3, 0x71, 0xd3, 0x01, 0xc1, 0x9a, 0x04, 0x5d, 0x79, 0x76, 0x4a, 0xad, 0x5d, 0xd3, 0x2f, 0xf5]

/-- Lists in lists, too deep for `json.dumps`. -/
def nestedLists : Json := (fun item => .array [item])^[1000000] .null

/-- A sample codec for the two trajectories, with the cipher of the sample codec of the store. -/
def documentCodec : ArtifactCodec TrajectoryDocument where
  dumps document :=
    if document = sampleDocument then .ok sampleDocumentText
    else if document = otherDocument then .ok otherDocumentText
    else .error { typeName := "RecursionError", bases := ["RuntimeError"] }
  loads text :=
    if text = sampleDocumentText then .ok (.object (documentFields sampleDocument))
    else if text = otherDocumentText then .ok (.object (documentFields otherDocument))
    else .error (.valueError "JSON")
  sha256 text := hexText (Equiv.swap sampleDocumentText sampleDocumentDigest
    (Equiv.swap otherDocumentText otherDocumentDigest text))
  encrypt := sampleCodec.encrypt
  decrypt := sampleCodec.decrypt
  resolve := some

/-- The texts of the two trajectories differ. -/
theorem otherDocumentText_ne : otherDocumentText ≠ sampleDocumentText := by decide +kernel

/-- The sample codec is as it is assumed to be. -/
theorem documentCodec_ideal : documentCodec.Ideal documentFields where
  loads_dumps document text h := by
    simp only [documentCodec] at h ⊢
    split at h
    · rename_i hdocument
      cases h
      rw [hdocument, if_pos rfl]
    · split at h
      · rename_i hdocument
        cases h
        rw [hdocument, if_neg otherDocumentText_ne, if_pos rfl]
      · cases h
  sha256_injective := (hexText_injective.comp (Equiv.injective _)).comp (Equiv.injective _)
  decrypt_eq_ok := sampleCodec_ideal.decrypt_eq_ok

/-- A recorder on an empty root. -/
def freshRecorder : RecorderWorld := ⟨.empty, { store := some (sampleStore 0) }, []⟩

/-- The recorder after an event of one run. -/
def recordedOnce : RecorderWorld :=
  freshRecorder.record documentCodec 7 (plainEvent "evidence_retrieved") sampleNonce

/-- The recorder after an event of another run. -/
def recordedTwice : RecorderWorld :=
  recordedOnce.record documentCodec 8 (plainEvent "controls_evaluated") sampleNonce

/-- The second trajectory has a file of its own. -/
theorem otherDocument_absent :
    recordedOnce.files.get? (artifactPath (documentCodec.sha256 otherDocumentText)) = none := by
  decide +kernel

/-- The first event of the other run makes the other document. -/
theorem dumps_other : documentCodec.dumps
    (8, recordedOnce.recorder.eventsOf 8 ++ [plainEvent "controls_evaluated"]) = .ok otherDocumentText := by
  have hevents : recordedOnce.recorder.eventsOf 8 = [] := by decide +kernel
  have hother : (8, [plainEvent "controls_evaluated"]) ≠ sampleDocument := by decide +kernel
  rw [hevents]
  unfold documentCodec
  dsimp only [List.nil_append]
  rw [if_neg hother]
  exact if_pos rfl

/-- A second event of the first run makes a document that is neither of the two. -/
theorem dumps_second (event : RecordedEvent) : documentCodec.dumps
    (7, recordedTwice.recorder.eventsOf 7 ++ [event]) =
      .error { typeName := "RecursionError", bases := ["RuntimeError"] } := by
  have hevents : recordedTwice.recorder.eventsOf 7 = [plainEvent "evidence_retrieved"] := by decide +kernel
  rw [hevents]
  unfold documentCodec
  dsimp only
  rw [if_neg (by simp [sampleDocument]), if_neg (by simp [otherDocument])]

/-- A recorder gives the first event of each of two runs back, also after a call that raised. -/
theorem trajectories_recovered_iff_raising :
    (recordedTwice.record documentCodec 7 ⟨"human_review", nestedLists⟩ sampleNonce).Recovered documentCodec
      (sampleStore 0) := by
  have hnonce : sampleNonce.length = 12 := by decide
  have hfirst : FindsUnspoilt documentCodec (sampleStore 0) freshRecorder
      (.records 7 (plainEvent "evidence_retrieved") sampleNonce) := by
    intro text target blob _ _ hfile
    cases hfile
  have hsecond : FindsUnspoilt documentCodec (sampleStore 0) recordedOnce
      (.records 8 (plainEvent "controls_evaluated") sampleNonce) := by
    intro text target blob hdumps hresolve hfile
    rw [dumps_other] at hdumps
    have htarget : artifactPath (documentCodec.sha256 text) = target := Option.some.inj hresolve
    rw [← htarget, ← Except.ok.inj hdumps, otherDocument_absent] at hfile
    cases hfile
  have hthird : FindsUnspoilt documentCodec (sampleStore 0) recordedTwice
      (.records 7 ⟨"human_review", nestedLists⟩ sampleNonce) := by
    intro text target blob hdumps
    rw [dumps_second] at hdumps
    cases hdumps
  exact ((trajectories_recovered_iff documentCodec_ideal (sampleStore 0) .empty _ _).mpr
    (.cons _ _ _ _ _ hfirst (.recorded _ _ _ _ hnonce) (.cons _ _ _ _ _ hsecond (.recorded _ _ _ _ hnonce)
      (.cons _ _ _ _ _ hthird (.recorded _ _ _ _ hnonce) (.nil _))))).2

end Amlguard
