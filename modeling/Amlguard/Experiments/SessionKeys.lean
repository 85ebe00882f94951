import Amlguard.Experiments.InMemory
import Amlguard.Experiments.Effect
import Amlguard.Experiments.Issued
import Amlguard.Experiments.Sessions
import Amlguard.Library.Spelling

/-!
# What a session key identifies

A session key is the digest of a text that puts colons between an experiment, a configuration, a
scenario and a repetition. The experiment's text has a fixed length and the repetition's has no colon,
so two sessions that are spelled alike belong to one experiment and have one repetition; a colon can
move between the configuration and the scenario, and nothing else can.

Both queues file what they hold for a session under its key: a reservation, a result, a row. Sessions
with different keys do not meet there.
-/

namespace Amlguard

open Spelling

/-- A session of an experiment. -/
structure ExperimentSession where
  experimentId : UUID
  configurationId : String
  scenarioId : String
  repetition : ℕ
  experimentId_lt : experimentId < 2 ^ 128
  deriving DecidableEq

namespace ExperimentSession

/-- The `session_key` of a session. -/
def key (lib : Stdlib) (s : ExperimentSession) : String :=
  sessionKey lib s.experimentId s.configurationId s.scenarioId s.repetition

/-- The configuration of one session and the scenario of the other have an additional part, which
moves a colon from one to the other. -/
def ShiftsColon (s s' : ExperimentSession) : Prop :=
  ∃ part, s.configurationId = s'.configurationId ++ ":" ++ part ∧
    s'.scenarioId = part ++ ":" ++ s.scenarioId

/-- Two sessions that are spelled alike: of one experiment and one repetition, with a colon that ends
the configuration of one and lies inside the configuration of the other. -/
def SpelledAlike (s s' : ExperimentSession) : Prop :=
  s.experimentId = s'.experimentId ∧ s.repetition = s'.repetition ∧
    (s.ShiftsColon s' ∨ s'.ShiftsColon s)

variable {lib : Stdlib} {s s' : ExperimentSession}

/-- The configuration and the scenario agree, or a colon has moved, when their joined texts agree. -/
theorem joined_eq_iff {c c' d d' : String} : c ++ ":" ++ d = c' ++ ":" ++ d' ↔
    c = c' ∧ d = d' ∨ (∃ part, c' = c ++ ":" ++ part ∧ d = part ++ ":" ++ d') ∨
      ∃ part, c = c' ++ ":" ++ part ∧ d' = part ++ ":" ++ d := by
  have hjoin (a b : String) : (a ++ ":" ++ b).toList = a.toList ++ ':' :: b.toList := by simp
  have hlist (a b d : String) : a = b ++ ":" ++ d ↔ a.toList = b.toList ++ ':' :: d.toList := by
    rw [← String.toList_inj, hjoin]
  have hexists (p : List Char → Prop) : (∃ part : String, p part.toList) ↔ ∃ part, p part :=
    ⟨fun ⟨part, h⟩ => ⟨part.toList, h⟩, fun ⟨part, h⟩ => ⟨String.ofList part, by simpa using h⟩⟩
  simp only [hlist]
  rw [hjoin, append_cons_eq_append_cons_iff, String.toList_inj, String.toList_inj,
    hexists fun part => c'.toList = c.toList ++ ':' :: part ∧ d.toList = part ++ ':' :: d'.toList,
    hexists fun part => c.toList = c'.toList ++ ':' :: part ∧ d'.toList = part ++ ':' :: d.toList]

/-- The configuration and the scenario stand together in the text of a session. -/
theorem sessionText_eq (e : UUID) (session : String × String × ℕ) : sessionText e session =
    UUID.str e ++ ":" ++ (session.1 ++ ":" ++ session.2.1) ++ ":" ++ toString session.2.2 := by
  simp only [sessionText, String.append_assoc]

/-- A repetition is spelled without a colon. -/
theorem colon_notMem_repetition (n : ℕ) : ':' ∉ (toString n).toList := by
  rw [← padded_zero]
  exact notMem_padded rfl

/-- The text of a session determines the experiment, the repetition and the joined text between. -/
theorem sessionText_eq_iff {e e' : UUID} (he : e < 2 ^ 128) (he' : e' < 2 ^ 128)
    {session session' : String × String × ℕ} : sessionText e session = sessionText e' session' ↔
      e = e' ∧ session.1 ++ ":" ++ session.2.1 = session'.1 ++ ":" ++ session'.2.1 ∧
        session.2.2 = session'.2.2 := by
  constructor
  · intro h
    obtain rfl := experimentId_of_sessionText he he' h
    rw [sessionText_eq, sessionText_eq] at h
    have hlist : (UUID.str e ++ ":" ++ (session.1 ++ ":" ++ session.2.1)).toList ++
          ':' :: (toString session.2.2).toList =
        (UUID.str e ++ ":" ++ (session'.1 ++ ":" ++ session'.2.1)).toList ++
          ':' :: (toString session'.2.2).toList := by
      simpa using congrArg String.toList h
    obtain ⟨hleft, hnumber⟩ :=
      eq_of_append_cons (colon_notMem_repetition _) (colon_notMem_repetition _) hlist
    have hjoined : (session.1 ++ ":" ++ session.2.1).toList =
        (session'.1 ++ ":" ++ session'.2.1).toList := by
      rw [String.toList_append (t := session.1 ++ ":" ++ session.2.1),
        String.toList_append (t := session'.1 ++ ":" ++ session'.2.1)] at hleft
      exact List.append_cancel_left hleft
    exact ⟨rfl, String.toList_inj.mp hjoined, Spelling.toString_inj (String.toList_inj.mp hnumber)⟩
  · intro ⟨hexperiment, hjoined, hrepetition⟩
    rw [sessionText_eq, sessionText_eq, hexperiment, hjoined, hrepetition]

/-- A session that shifts a colon is another one. -/
theorem ne_of_shiftsColon (h : s.ShiftsColon s') : s ≠ s' := by
  rintro rfl
  obtain ⟨part, hpart, -⟩ := h
  have hlength := congrArg String.length hpart
  rw [String.length_append, String.length_append, show ":".length = 1 from rfl] at hlength
  omega

/-- Texts of sessions are equal for equal sessions and those that are spelled alike. -/
theorem sessionText_eq_iff_spelledAlike :
    sessionText s.experimentId (s.configurationId, s.scenarioId, s.repetition) =
        sessionText s'.experimentId (s'.configurationId, s'.scenarioId, s'.repetition) ↔
      s = s' ∨ s.SpelledAlike s' := by
  rw [sessionText_eq_iff s.experimentId_lt s'.experimentId_lt, joined_eq_iff]
  constructor
  · rintro ⟨hexperiment, ⟨hconfiguration, hscenario⟩ | hshift | hshift, hrepetition⟩
    · left
      cases s
      cases s'
      simp_all
    · exact .inr ⟨hexperiment, hrepetition, .inr hshift⟩
    · exact .inr ⟨hexperiment, hrepetition, .inl hshift⟩
  · rintro (rfl | ⟨hexperiment, hrepetition, hshift | hshift⟩)
    · exact ⟨rfl, .inl ⟨rfl, rfl⟩, rfl⟩
    · exact ⟨hexperiment, .inr (.inr hshift), hrepetition⟩
    · exact ⟨hexperiment, .inr (.inl hshift), hrepetition⟩

/-- Keys are equal for equal sessions and those that are spelled alike, if the digest keeps texts
apart. -/
theorem key_eq_iff (hsha256 : Function.Injective lib.sha256) :
    s.key lib = s'.key lib ↔ s = s' ∨ s.SpelledAlike s' := by
  rw [← sessionText_eq_iff_spelledAlike]
  exact hsha256.eq_iff

end ExperimentSession

section Stores

variable {lib : Stdlib}

/-- The call settles a job of the given key: it reserves its cost, completes it or fails it. -/
def QueueCall.Settles (key : String) : QueueCall → Prop
  | .reserveCost job _ => job.sessionKey = key
  | .complete job _ _ => job.sessionKey = key
  | .fail job _ _ => job.sessionKey = key
  | _ => False

/-- What the in-memory queue holds under a key: a reservation and a result. -/
def InMemoryQueue.held (q : InMemoryQueue) (key : String) : Option (UUID × ℚ) × Option Json :=
  (q.reservations.get? key, q.results.get? key)

/-- A call for one session leaves what is held under another key. -/
theorem InMemoryQueue.held_perform {draws : Draws} {call : QueueCall} {key key' : String}
    {q : InMemoryQueue} (hcall : call.Settles key) (hne : key ≠ key') :
    (InMemoryExperimentQueue.perform lib draws call q).2.held key' = q.held key' := by
  cases call with
  | reserveCost job amount =>
    obtain rfl := hcall
    simp only [InMemoryExperimentQueue.perform, InMemoryExperimentQueue.reserveCost]
    split
    · rfl
    split
    · rfl
    split
    · rfl
    · simp only [held, Dict.get?_set_ne _ hne]
  | complete job result cost =>
    obtain rfl := hcall
    simp only [InMemoryExperimentQueue.perform, InMemoryExperimentQueue.complete]
    split
    · rfl
    split
    · simp only [held, InMemoryExperimentQueue.addStopped, Dict.get?_erase_ne _ hne]
    · have hresult : (if q.results.contains job.sessionKey then q.results
          else q.results.set job.sessionKey result).get? key' = q.results.get? key' := by
        split
        · rfl
        · exact Dict.get?_set_ne _ hne result
      split
      · simp only [held, Dict.get?_erase_ne _ hne, hresult]
      · simp only [held, Dict.get?_erase_ne _ hne, hresult]
  | fail job error retryable =>
    obtain rfl := hcall
    simp only [InMemoryExperimentQueue.perform, InMemoryExperimentQueue.fail]
    split
    · simp only [held, Dict.get?_erase_ne _ hne]
    split
    · simp only [held, Dict.get?_erase_ne _ hne]
    · simp only [held, Dict.get?_erase_ne _ hne]
  | _ => cases hcall

/-- A row of the job table has the key. -/
def Database.Taken (db : Database) (key : String) : Prop :=
  ∃ row ∈ db.jobs.values, row.sessionKey = key

/-- A call for one session leaves the stored result of another key. -/
theorem Database.sessions_perform {draws : Draws} {call : QueueCall} {key key' : String}
    {db : Database} (hcall : call.Settles key) (hne : key ≠ key') :
    (PostgresExperimentQueue.perform lib draws call db).2.sessions.get? key' =
      db.sessions.get? key' := by
  have heffect := PostgresExperimentQueue.perform_effect lib draws call db
  generalize (PostgresExperimentQueue.perform lib draws call db).1 = r at heffect
  generalize (PostgresExperimentQueue.perform lib draws call db).2 = db' at heffect
  cases heffect with
  | completed job result cost manifest row sessions hmanifest hrow hrunning hroom hsessions =>
    obtain rfl := hcall
    unfold PostgresExperimentQueue.insertSession at hsessions
    split at hsessions
    · cases hsessions
      rfl
    · simp only [bind_eq_ok] at hsessions
      obtain ⟨stored, hstored, -, -, hset⟩ := hsessions
      cases PostgresExperimentQueue.varchar_eq_ok hstored
      cases hset
      exact Dict.get?_set_ne _ hne _
  | unchanged | reserved | failed | flagged => rfl
  | scheduled | created | leased | beat => cases hcall

/-- A row that is inserted takes its own key and no other. -/
theorem Database.taken_insertJob {manifest : ExperimentManifest} {fresh : UUID × Datetime}
    {entry : String × String × String × ℕ} {key' : String} {db db' : Database} (hne : entry.1 ≠ key')
    (h : PostgresExperimentQueue.insertJob manifest fresh entry db = .ok db') :
    db'.Taken key' ↔ db.Taken key' := by
  simp only [PostgresExperimentQueue.insertJob, bind_eq_ok, raiseIf_eq_ok] at h
  obtain ⟨estimated, -, stored, hstored, c, -, d, -, cost, -, -, hfresh, -, -, hset⟩ := h
  cases PostgresExperimentQueue.varchar_eq_ok hstored
  rw [Bool.not_eq_true, Option.isSome_eq_false_iff, Option.isNone_iff_eq_none] at hfresh
  cases hset
  unfold Taken
  rw [Dict.values_set_of_none _ hfresh]
  simp [or_and_right, exists_or, hne]

end Stores

namespace ExperimentSession

/-- One session is told apart from another: by its key, so that nothing which a queue does for it
under its key meets what the other session has, be it a reservation, a result or a row. -/
structure ToldApart (lib : Stdlib) (s s' : ExperimentSession) : Prop where
  key : s.key lib = s'.key lib → s = s'
  held : s ≠ s' → ∀ draws call q, QueueCall.Settles (s.key lib) call →
    (InMemoryExperimentQueue.perform lib draws call q).2.held (s'.key lib) = q.held (s'.key lib)
  stored : s ≠ s' → ∀ draws call db, QueueCall.Settles (s.key lib) call →
    (PostgresExperimentQueue.perform lib draws call db).2.sessions.get? (s'.key lib) =
      db.sessions.get? (s'.key lib)
  taken : s ≠ s' → ∀ manifest fresh session db db',
    PostgresExperimentQueue.insertJob manifest fresh (s.key lib, session) db = .ok db' →
      (db'.Taken (s'.key lib) ↔ db.Taken (s'.key lib))

/-- Session keys tell two sessions apart exactly when they are not spelled alike. -/
theorem toldApart_iff (lib : Stdlib) (hsha256 : Function.Injective lib.sha256)
    (s s' : ExperimentSession) : ToldApart lib s s' ↔ ¬s.SpelledAlike s' := by
  constructor
  · intro h halike
    have heq := h.key ((key_eq_iff hsha256).mpr (.inr halike))
    rcases halike.2.2 with hshift | hshift
    · exact ne_of_shiftsColon hshift heq
    · exact ne_of_shiftsColon hshift heq.symm
  · intro h
    have hkey : s.key lib = s'.key lib → s = s' := by
      intro heq
      exact ((key_eq_iff hsha256).mp heq).resolve_right h
    constructor
    · exact hkey
    · intro hne draws call q hcall
      exact InMemoryQueue.held_perform hcall fun heq => hne (hkey heq)
    · intro hne draws call db hcall
      exact Database.sessions_perform hcall fun heq => hne (hkey heq)
    · intro hne manifest fresh session db db' hinsert
      exact Database.taken_insertJob (fun heq => hne (hkey heq)) hinsert

/-- A digest that confuses no texts. -/
def textDigest : Stdlib :=
  { sampleStdlib with sha256 raw := raw }

/-- A configuration whose ID has no colon, for the scenario `REG-001`. -/
def plainSession : ExperimentSession := ⟨7, "fake-b5", "REG-001", 1, by decide⟩

/-- Two repetitions of one configuration and scenario are told apart. -/
theorem toldApart_iff_repetition : ToldApart textDigest plainSession { plainSession with repetition := 2 } := by
  apply (toldApart_iff textDigest (fun _ _ h => h) _ _).mpr
  intro halike
  exact absurd halike.2.1 (by decide)

/-- The configuration `fake:b5` and the scenario `REG-001`. -/
def colonInConfiguration : ExperimentSession := ⟨7, "fake:b5", "REG-001", 1, by decide⟩

/-- The configuration `fake` and the scenario `b5:REG-001`. -/
def colonInScenario : ExperimentSession := ⟨7, "fake", "b5:REG-001", 1, by decide⟩

/-- A colon that moves from the configuration to the scenario leaves the key as it is, though the
sessions differ and the digest confuses no texts. -/
theorem colon_confuses_sessions : Function.Injective textDigest.sha256 ∧
    colonInConfiguration ≠ colonInScenario ∧
    colonInConfiguration.key textDigest = colonInScenario.key textDigest ∧
    ¬ToldApart textDigest colonInConfiguration colonInScenario := by
  have hkey : colonInConfiguration.key textDigest = colonInScenario.key textDigest := rfl
  refine ⟨fun _ _ h => h, by decide, hkey, fun h => ?_⟩
  exact absurd (h.key hkey) (by decide)

end ExperimentSession

end Amlguard
