import Amlguard.Domain.Values
import Amlguard.Library.Ranking
import Mathlib.Data.List.MinMax
import Mathlib.Data.Prod.Lex
import Mathlib.Algebra.Order.Ring.Rat

/-!
# Capability tiers

Models are ranked by a weighted score and the ranking is cut into a lower, a middle and an upper slice;
the cheapest of the first and the best of the other two are selected. What a third of the models is, is
rounded down, so the middle slice takes the remainder.

The ranking keeps models of equal score in the order of the list. How the floating-point arithmetic of
the score rounds is left open.
-/

namespace Amlguard

/-- A score between zero and one. -/
abbrev UnitScore := {x : ℚ // 0 ≤ x ∧ x ≤ 1}

/-- The results of one model. -/
structure CapabilityResult where
  modelId : String
  structuredOutputReliability : UnitScore
  toolCallCorrectness : UnitScore
  instructionAdherence : UnitScore
  contextRetrieval : UnitScore
  latencyReliability : UnitScore
  euCatalogueEligible : Bool
  noFallbackVerified : Bool
  costPerMillionTokensEur : Option ℚ := none
  deriving DecidableEq

/-- `capability_score`; every operation rounds its result, and every constant is rounded. -/
def CapabilityResult.capabilityScore (rounded : ℚ → ℚ) (item : CapabilityResult) : ℚ :=
  let weighted (weight : ℚ) (score : UnitScore) : ℚ := rounded (rounded weight * score)
  let sum := rounded (weighted (3 / 10) item.structuredOutputReliability +
    weighted (3 / 10) item.toolCallCorrectness)
  let sum := rounded (sum + weighted (2 / 10) item.instructionAdherence)
  let sum := rounded (sum + weighted (1 / 10) item.contextRetrieval)
  rounded (sum + weighted (1 / 10) item.latencyReliability)

section Select

variable (rounded : ℚ → ℚ)

/-- A model is eligible and was verified to have no fallback. -/
def isEligible (item : CapabilityResult) : Bool := item.euCatalogueEligible && item.noFallbackVerified

/-- The eligible models in the order of their scores. -/
def eligibleResults (results : List CapabilityResult) : List CapabilityResult :=
  Ranking.sortedBy (·.capabilityScore rounded) (results.filter isEligible)

/-- `third`. -/
def third (eligible : List CapabilityResult) : ℕ := max 1 (eligible.length / 3)

/-- `lower`. -/
def lowerTier (eligible : List CapabilityResult) : List CapabilityResult :=
  eligible.take (third eligible)

/-- `middle`. -/
def middleTier (eligible : List CapabilityResult) : List CapabilityResult :=
  (eligible.take (max (third eligible + 1) (eligible.length - third eligible))).drop (third eligible)

/-- `upper`. -/
def upperTier (eligible : List CapabilityResult) : List CapabilityResult :=
  eligible.drop (eligible.length - third eligible)

/-- `cost_key`: unknown costs come last, and of equal costs the higher score first. -/
def costKey (item : CapabilityResult) : Bool ×ₗ ℚ ×ₗ ℚ :=
  toLex (item.costPerMillionTokensEur.isNone,
    toLex (item.costPerMillionTokensEur.getD 0, -item.capabilityScore rounded))

end Select

section Tiers

variable {rounded : ℚ → ℚ} {results eligible : List CapabilityResult}

/-- From three models on the slices are not empty and make up the ranking. -/
theorem tiers_partition (h : 3 ≤ eligible.length) :
    lowerTier eligible ≠ [] ∧ middleTier eligible ≠ [] ∧ upperTier eligible ≠ [] ∧
      lowerTier eligible ++ middleTier eligible ++ upperTier eligible = eligible := by
  have hthird : 1 ≤ third eligible ∧ 2 * third eligible + 1 ≤ eligible.length := by
    unfold third
    omega
  have hend : max (third eligible + 1) (eligible.length - third eligible) =
      eligible.length - third eligible := by
    omega
  unfold middleTier
  rw [hend]
  refine ⟨?_, ?_, ?_, Ranking.take_append_slice_append_drop (by omega)⟩
  · apply List.ne_nil_of_length_pos
    rw [lowerTier, List.length_take]
    omega
  · apply List.ne_nil_of_length_pos
    rw [List.length_drop, List.length_take]
    omega
  · apply List.ne_nil_of_length_pos
    rw [upperTier, List.length_drop]
    omega

/-- What is selected: one model of each slice of the ranking. -/
structure SelectsTiers (rounded : ℚ → ℚ) (eligible : List CapabilityResult)
    (m1 m2 m3 : CapabilityResult) : Prop where
  cheapest : m1 ∈ lowerTier eligible ∧ ∀ item ∈ lowerTier eligible, costKey rounded m1 ≤ costKey rounded item
  middle : m2 ∈ middleTier eligible ∧
    ∀ item ∈ middleTier eligible, item.capabilityScore rounded ≤ m2.capabilityScore rounded
  best : m3 ∈ upperTier eligible ∧
    ∀ item ∈ upperTier eligible, item.capabilityScore rounded ≤ m3.capabilityScore rounded

/-- The slices are not empty and make up the ranking; the selected models are of the three slices,
stand at three positions and do not decrease in score, and no eligible model has a higher score than the
last. -/
structure DistinctTiers (rounded : ℚ → ℚ) (eligible : List CapabilityResult)
    (m1 m2 m3 : CapabilityResult) : Prop where
  nonempty : lowerTier eligible ≠ [] ∧ middleTier eligible ≠ [] ∧ upperTier eligible ≠ []
  cover : lowerTier eligible ++ middleTier eligible ++ upperTier eligible = eligible
  members : m1 ∈ lowerTier eligible ∧ m2 ∈ middleTier eligible ∧ m3 ∈ upperTier eligible
  positions : ∃ i j k : ℕ, i < j ∧ j < k ∧ eligible[i]? = some m1 ∧ eligible[j]? = some m2 ∧
    eligible[k]? = some m3
  ordered : m1.capabilityScore rounded ≤ m2.capabilityScore rounded ∧
    m2.capabilityScore rounded ≤ m3.capabilityScore rounded
  highest : ∀ item ∈ eligible, item.capabilityScore rounded ≤ m3.capabilityScore rounded

/-- Models that are selected from the slices of a ranking are distinct and ordered. -/
theorem SelectsTiers.distinct {m1 m2 m3 : CapabilityResult}
    (hselect : SelectsTiers rounded (eligibleResults rounded results) m1 m2 m3)
    (h : 3 ≤ (eligibleResults rounded results).length) :
    DistinctTiers rounded (eligibleResults rounded results) m1 m2 m3 := by
  obtain ⟨hlower, hmiddle, hupper, hcover⟩ := tiers_partition h
  obtain ⟨i, j, k, hij, hjk, hi, hj, hk⟩ :=
    Ranking.exists_positions hselect.cheapest.1 hselect.middle.1 hselect.best.1
  rw [hcover] at hi hj hk
  constructor
  · exact ⟨hlower, hmiddle, hupper⟩
  · exact hcover
  · exact ⟨hselect.cheapest.1, hselect.middle.1, hselect.best.1⟩
  · exact ⟨i, j, k, hij, hjk, hi, hj, hk⟩
  · exact ⟨Ranking.key_le_of_getElem? hij hi hj, Ranking.key_le_of_getElem? hjk hj hk⟩
  · intro item hitem
    have hsorted : (eligibleResults rounded results).Pairwise fun a b =>
        a.capabilityScore rounded ≤ b.capabilityScore rounded := Ranking.pairwise_sortedBy
    rw [← hcover] at hitem hsorted
    rcases List.mem_append.mp hitem with hbelow | habove
    · exact (List.pairwise_append.mp hsorted).2.2 item hbelow m3 hselect.best.1
    · exact hselect.best.2 item habove

end Tiers

end Amlguard
