import Amlguard.Experiments.Domain
import Mathlib.Data.List.Dedup
import Mathlib.Data.List.Perm.Lattice
import Mathlib.Data.List.FinRange

/-!
# The sessions of a manifest

A session is a configuration, a scenario and a repetition; its key is the digest of a text
that spells the three after the experiment's ID. The text puts colons between the parts, so
two sessions whose IDs contain colons may be spelled alike.

`exact_iff` is the arithmetic of scheduling: what the sessions of earlier scenarios and the
newly scheduled ones amount to, whatever the order of the new ones.
-/

namespace Amlguard

/-- The text of which a session key is the digest. -/
def sessionText (experimentId : UUID) (session : String × String × ℕ) : String :=
  UUID.str experimentId ++ ":" ++ session.1 ++ ":" ++ session.2.1 ++ ":" ++ toString session.2.2

section Text

/-- Sessions of different experiments are spelled differently. -/
theorem experimentId_of_sessionText {a b : UUID} (ha : a < 2 ^ 128) (hb : b < 2 ^ 128)
    {session session' : String × String × ℕ} (h : sessionText a session = sessionText b session') :
    a = b := by
  have hlist := congrArg String.toList h
  simp only [sessionText, String.toList_append, List.append_assoc] at hlist
  have hprefix := (List.append_inj hlist (by rw [length_str, length_str])).1
  exact str_injective ha hb (String.toList_inj.mp hprefix)

end Text

/-- The sessions of a manifest for a list of scenarios. -/
def manifestSessions (manifest : ExperimentManifest) (scenarioIds : List String) :
    List (String × String × ℕ) :=
  manifest.configurations.flatMap fun configuration =>
    scenarioIds.flatMap fun scenarioId =>
      (List.range' 1 manifest.repetitions).map fun repetition =>
        (configuration.configurationId, scenarioId, repetition)

/-- The session is one of the manifest's for a list of scenarios. -/
def IsSession (manifest : ExperimentManifest) (scenarioIds : List String)
    (session : String × String × ℕ) : Prop :=
  session.1 ∈ manifest.configurations.map (·.configurationId) ∧ session.2.1 ∈ scenarioIds ∧
    1 ≤ session.2.2 ∧ session.2.2 ≤ manifest.repetitions

instance (manifest : ExperimentManifest) (scenarioIds : List String)
    (session : String × String × ℕ) : Decidable (IsSession manifest scenarioIds session) :=
  inferInstanceAs (Decidable (_ ∧ _ ∧ _ ∧ _))

section Sessions

variable {lib : Stdlib} {manifest : ExperimentManifest}

/-- The listed sessions are the manifest's. -/
theorem mem_manifestSessions {scenarioIds : List String} {session : String × String × ℕ} :
    session ∈ manifestSessions manifest scenarioIds ↔ IsSession manifest scenarioIds session := by
  obtain ⟨configurationId, scenarioId, repetition⟩ := session
  simp only [manifestSessions, IsSession, List.mem_flatMap, List.mem_map, List.mem_range'_1,
    Prod.mk.injEq]
  constructor
  · rintro ⟨configuration, hconfiguration, scenario, hscenario, r, hr, rfl, rfl, rfl⟩
    exact ⟨⟨configuration, hconfiguration, rfl⟩, hscenario, hr.1, by omega⟩
  · rintro ⟨⟨configuration, hconfiguration, rfl⟩, hscenario, hone, hle⟩
    exact ⟨configuration, hconfiguration, scenarioId, hscenario, repetition, ⟨hone, by omega⟩,
      rfl, rfl, rfl⟩

/-- The keys of a schedule are those of its sessions, each beside its session. -/
theorem scheduleKeys_eq (scenarioIds : List String) :
    scheduleKeys lib manifest scenarioIds =
      (manifestSessions manifest scenarioIds).map fun session =>
        (lib.sha256 (sessionText manifest.experimentId session), session) := by
  simp only [scheduleKeys, manifestSessions, List.map_flatMap, List.map_map]
  rfl

/-- Distinct scenarios have distinct sessions. -/
theorem nodup_manifestSessions {scenarioIds : List String} (h : scenarioIds.Nodup) :
    (manifestSessions manifest scenarioIds).Nodup := by
  unfold manifestSessions
  apply List.nodup_flatMap.mpr
  constructor
  · intro configuration _
    apply List.nodup_flatMap.mpr
    constructor
    · intro scenarioId _
      apply List.Nodup.map _ List.nodup_range'
      intro r r' heq
      exact (Prod.mk.inj (Prod.mk.inj heq).2).2
    · apply h.imp
      intro scenarioId scenarioId' hne session hmem hmem'
      simp only [List.mem_map] at hmem hmem'
      obtain ⟨r, -, rfl⟩ := hmem
      obtain ⟨r', -, heq⟩ := hmem'
      exact hne (Prod.mk.inj (Prod.mk.inj heq).2).1.symm
  · apply (List.pairwise_map.mp manifest.configurations_are_unique).imp
    intro configuration configuration' hne session hmem hmem'
    simp only [List.mem_flatMap, List.mem_map] at hmem hmem'
    obtain ⟨s, -, r, -, rfl⟩ := hmem
    obtain ⟨s', -, r', -, heq⟩ := hmem'
    exact hne (Prod.mk.inj heq).1.symm

/-- Distinct sessions come from distinct scenarios. -/
theorem nodup_of_manifestSessions {scenarioIds : List String}
    (h : (manifestSessions manifest scenarioIds).Nodup) : scenarioIds.Nodup := by
  obtain ⟨configuration, hconfiguration⟩ :=
    List.exists_mem_of_ne_nil _ manifest.configurations_ne_nil
  have hscenarios := (List.nodup_flatMap.mp h).1 configuration hconfiguration
  apply (List.nodup_flatMap.mp hscenarios).2.imp
  intro scenarioId scenarioId' hdisjoint heq
  subst heq
  have hone : (configuration.configurationId, scenarioId, 1) ∈
      (List.range' 1 manifest.repetitions).map fun repetition =>
        (configuration.configurationId, scenarioId, repetition) := by
    apply List.mem_map_of_mem
    have hpos := manifest.repetitions_pos
    simp only [List.mem_range'_1]
    omega
  exact hdisjoint hone hone

/-- The sessions of two lists of scenarios, one after the other. -/
theorem manifestSessions_append (scenarioIds scenarioIds' : List String) :
    (manifestSessions manifest (scenarioIds ++ scenarioIds')).Perm
      (manifestSessions manifest scenarioIds ++ manifestSessions manifest scenarioIds') := by
  simp only [manifestSessions, List.flatMap_append]
  exact (List.flatMap_append_perm _ _ _).symm

/-- The order of the scenarios does not matter. -/
theorem manifestSessions_perm {scenarioIds scenarioIds' : List String}
    (h : scenarioIds.Perm scenarioIds') :
    (manifestSessions manifest scenarioIds).Perm (manifestSessions manifest scenarioIds') :=
  List.Perm.flatMap_left _ fun _ _ => h.flatMap_right _

/-- The sessions of some of the scenarios. -/
theorem filter_manifestSessions (scenarioIds : List String) (p : String → Bool) :
    (manifestSessions manifest scenarioIds).filter (fun session => p session.2.1) =
      manifestSessions manifest (scenarioIds.filter p) := by
  simp only [manifestSessions, List.filter_flatMap]
  congr 1
  funext configuration
  induction scenarioIds with
  | nil => rfl
  | cons scenarioId rest ih =>
    rw [List.flatMap_cons, ih, List.filter_map]
    cases hp : p scenarioId with
    | true =>
      rw [List.filter_cons_of_pos hp, List.flatMap_cons]
      congr 2
      exact List.filter_eq_self.mpr fun _ _ => hp
    | false =>
      rw [List.filter_cons_of_neg (by simp [hp])]
      rw [List.filter_eq_nil_iff.mpr fun _ _ => (by simp [hp]), List.map_nil, List.nil_append]

/-- The distinct scenarios of two lists: those of the first, and the new ones of the second. -/
theorem dedup_append_perm {old new : List String} (hnew : (new.filter (· ∉ old)).Nodup) :
    (old ++ new).dedup.Perm (old.dedup ++ new.filter (· ∉ old)) := by
  apply (List.perm_ext_iff_of_nodup (List.nodup_dedup _) _).mpr
  · intro scenarioId
    by_cases h : scenarioId ∈ old <;> simp [h]
  · apply List.nodup_append.mpr
    refine ⟨List.nodup_dedup _, hnew, fun a ha b hb heq => ?_⟩
    subst heq
    simp only [List.mem_filter, decide_eq_true_eq] at hb
    exact hb.2 (List.mem_dedup.mp ha)

/-- A list holds the sessions of the distinct scenarios exactly when it holds each session of
the manifest once and nothing else. -/
theorem perm_manifestSessions_iff {sessions : List (String × String × ℕ)}
    {scenarioIds : List String} :
    sessions.Perm (manifestSessions manifest scenarioIds.dedup) ↔
      ∀ session, sessions.count session =
        if IsSession manifest scenarioIds session then 1 else 0 := by
  rw [List.perm_iff_count]
  refine forall_congr' fun session => ?_
  have hmem : session ∈ manifestSessions manifest scenarioIds.dedup ↔
      IsSession manifest scenarioIds session := by
    simp only [mem_manifestSessions, IsSession, List.mem_dedup]
  rw [(nodup_manifestSessions (List.nodup_dedup scenarioIds)).count, if_congr hmem rfl rfl]

/-- No two sessions of the manifest are spelled alike. -/
def SpelledApart (manifest : ExperimentManifest) (scenarioIds : List String) : Prop :=
  ∀ session session', IsSession manifest scenarioIds session →
    IsSession manifest scenarioIds session' →
      sessionText manifest.experimentId session = sessionText manifest.experimentId session' →
        session = session'

/-- The digest does not confuse the texts of the manifest's sessions. -/
def DigestApart (lib : Stdlib) (manifest : ExperimentManifest) (scenarioIds : List String) : Prop :=
  ∀ session session', IsSession manifest scenarioIds session →
    IsSession manifest scenarioIds session' →
      lib.sha256 (sessionText manifest.experimentId session) =
          lib.sha256 (sessionText manifest.experimentId session') →
        sessionText manifest.experimentId session = sessionText manifest.experimentId session'

/-- Each entry holds the key of its session. -/
def Keyed (lib : Stdlib) (manifest : ExperimentManifest)
    (entries : List (String × String × String × ℕ)) : Prop :=
  ∀ entry ∈ entries, entry.1 = lib.sha256 (sessionText manifest.experimentId entry.2)

section Exact

variable {old new existing : List String} {stored keys : List (String × String × String × ℕ)}

/-- A session of the new scenarios has a stored key exactly when its scenario is an old one. -/
theorem stored_key_iff (hdigest : DigestApart lib manifest (old ++ new))
    (hspelled : SpelledApart manifest (old ++ new))
    (hstored : (stored.map (·.2)).Perm (manifestSessions manifest old.dedup))
    (hkeyed : Keyed lib manifest stored) {session : String × String × ℕ}
    (hsession : IsSession manifest new session) :
    lib.sha256 (sessionText manifest.experimentId session) ∈ stored.map (·.1) ↔
      session.2.1 ∈ old := by
  have hnew : IsSession manifest (old ++ new) session :=
    ⟨hsession.1, List.mem_append_right _ hsession.2.1, hsession.2.2⟩
  constructor
  · intro hmem
    obtain ⟨entry, hentry, hkey⟩ := List.mem_map.mp hmem
    have hold := hstored.subset (List.mem_map_of_mem (f := (·.2)) hentry)
    obtain ⟨hconfiguration, hscenario, hrange⟩ := mem_manifestSessions.mp hold
    rw [List.mem_dedup] at hscenario
    have hentry' : IsSession manifest (old ++ new) entry.2 :=
      ⟨hconfiguration, List.mem_append_left _ hscenario, hrange⟩
    rw [hkeyed entry hentry] at hkey
    rw [← hspelled _ _ hentry' hnew (hdigest _ _ hentry' hnew hkey)]
    exact hscenario
  · intro hscenario
    have hold : session ∈ stored.map (·.2) := hstored.symm.subset
      (mem_manifestSessions.mpr ⟨hsession.1, List.mem_dedup.mpr hscenario, hsession.2.2⟩)
    obtain ⟨entry, hentry, rfl⟩ := List.mem_map.mp hold
    exact List.mem_map.mpr ⟨entry, hentry, hkeyed entry hentry⟩

/-- The scheduled entries that are not stored yet are the sessions of the new scenarios. -/
theorem new_entries_perm (hdigest : DigestApart lib manifest (old ++ new))
    (hspelled : SpelledApart manifest (old ++ new))
    (hstored : (stored.map (·.2)).Perm (manifestSessions manifest old.dedup))
    (hkeyed : Keyed lib manifest stored) (hkeys : keys.Perm (scheduleKeys lib manifest new))
    (hexisting : ∀ session, IsSession manifest new session →
      (lib.sha256 (sessionText manifest.experimentId session) ∈ existing ↔
        lib.sha256 (sessionText manifest.experimentId session) ∈ stored.map (·.1))) :
    ((keys.filter fun key => key.1 ∉ existing).map (·.2)).Perm
      (manifestSessions manifest (new.filter (· ∉ old))) := by
  have hfilter := (hkeys.filter fun key => decide (key.1 ∉ existing)).map (·.2)
  rw [scheduleKeys_eq, List.filter_map, List.map_map] at hfilter
  have hsame : (manifestSessions manifest new).filter
      ((fun key : String × String × String × ℕ => decide (key.1 ∉ existing)) ∘ fun session =>
        (lib.sha256 (sessionText manifest.experimentId session), session)) =
      (manifestSessions manifest new).filter fun session => decide (session.2.1 ∉ old) := by
    apply List.filter_congr
    intro session hsession
    have hnew := mem_manifestSessions.mp hsession
    rw [Function.comp_apply, decide_eq_decide, hexisting session hnew,
      stored_key_iff hdigest hspelled hstored hkeyed hnew]
  rw [hsame, filter_manifestSessions new fun scenarioId => decide (scenarioId ∉ old)] at hfilter
  simpa only [Function.comp_def, List.map_id'] using hfilter

/-- Keyed entries with the sessions of distinct scenarios have distinct keys. -/
theorem nodup_keys {scenarioIds : List String} (hdigest : DigestApart lib manifest scenarioIds)
    (hspelled : SpelledApart manifest scenarioIds)
    (hstored : (stored.map (·.2)).Perm (manifestSessions manifest scenarioIds.dedup))
    (hkeyed : Keyed lib manifest stored) : (stored.map (·.1)).Nodup := by
  have hnodup : stored.Nodup := by
    apply List.Nodup.of_map (·.2)
    exact hstored.nodup_iff.mpr (nodup_manifestSessions (List.nodup_dedup _))
  have hsession : ∀ entry ∈ stored, IsSession manifest scenarioIds entry.2 := by
    intro entry hentry
    have hmem := mem_manifestSessions.mp (hstored.subset (List.mem_map_of_mem (f := (·.2)) hentry))
    exact ⟨hmem.1, List.mem_dedup.mp hmem.2.1, hmem.2.2⟩
  apply hnodup.map_on
  intro entry hentry entry' hentry' hkey
  have heq := hkey
  rw [hkeyed entry hentry, hkeyed entry' hentry'] at heq
  have htext := hdigest _ _ (hsession entry hentry) (hsession entry' hentry') heq
  exact Prod.ext hkey (hspelled _ _ (hsession entry hentry) (hsession entry' hentry') htext)

/-- Adding the scheduled entries that are not stored yet makes up the sessions of all scenarios
exactly when no new scenario is repeated and no two sessions are spelled alike. -/
theorem exact_iff (hdigest : DigestApart lib manifest (old ++ new))
    (hstored : (stored.map (·.2)).Perm (manifestSessions manifest old.dedup))
    (hkeyed : Keyed lib manifest stored) (hkeys : keys.Perm (scheduleKeys lib manifest new))
    (hexisting : ∀ session, IsSession manifest new session →
      (lib.sha256 (sessionText manifest.experimentId session) ∈ existing ↔
        lib.sha256 (sessionText manifest.experimentId session) ∈ stored.map (·.1))) :
    (((stored ++ keys.filter fun key => key.1 ∉ existing).map (·.2)).Perm
        (manifestSessions manifest (old ++ new).dedup) ∧
      ((stored ++ keys.filter fun key => key.1 ∉ existing).map (·.1)).Nodup) ↔
    (new.filter (· ∉ old)).Nodup ∧ SpelledApart manifest (old ++ new) := by
  have hkeyedNew : Keyed lib manifest (stored ++ keys.filter fun key => key.1 ∉ existing) := by
    intro entry hentry
    rcases List.mem_append.mp hentry with hold | hnew
    · exact hkeyed entry hold
    · have hmem := hkeys.subset (List.mem_filter.mp hnew).1
      rw [scheduleKeys_eq] at hmem
      obtain ⟨session, -, rfl⟩ := List.mem_map.mp hmem
      rfl
  constructor
  · rintro ⟨hperm, hnodup⟩
    have hspelled : SpelledApart manifest (old ++ new) := by
      intro session session' hsession hsession' htext
      have hmem : ∀ {session}, IsSession manifest (old ++ new) session →
          ∃ entry ∈ stored ++ keys.filter fun key => key.1 ∉ existing, entry.2 = session := by
        intro session h
        apply List.mem_map.mp
        exact hperm.symm.subset
          (mem_manifestSessions.mpr ⟨h.1, List.mem_dedup.mpr h.2.1, h.2.2⟩)
      obtain ⟨entry, hentry, rfl⟩ := hmem hsession
      obtain ⟨entry', hentry', rfl⟩ := hmem hsession'
      have hkey : entry.1 = entry'.1 := by
        rw [hkeyedNew entry hentry, hkeyedNew entry' hentry', htext]
      rw [List.inj_on_of_nodup_map hnodup hentry hentry' hkey]
    refine ⟨?_, hspelled⟩
    have hsessions := hperm.nodup_iff.mpr (nodup_manifestSessions (List.nodup_dedup _))
    rw [List.map_append] at hsessions
    have hrows := new_entries_perm hdigest hspelled hstored hkeyed hkeys hexisting
    exact nodup_of_manifestSessions (hrows.nodup_iff.mp (List.Nodup.of_append_right hsessions))
  · rintro ⟨hnew, hspelled⟩
    have hrows := new_entries_perm hdigest hspelled hstored hkeyed hkeys hexisting
    have hperm : ((stored ++ keys.filter fun key => key.1 ∉ existing).map (·.2)).Perm
        (manifestSessions manifest (old ++ new).dedup) := by
      rw [List.map_append]
      exact (hstored.append hrows).trans
        ((manifestSessions_append old.dedup (new.filter (· ∉ old))).symm.trans
          (manifestSessions_perm (dedup_append_perm hnew).symm))
    exact ⟨hperm, nodup_keys hdigest hspelled hperm hkeyedNew⟩

end Exact

end Sessions

end Amlguard
