import Cinegraph.SpeakerReview.Decisions
import Mathlib.Data.List.Forall2
import Mathlib.Data.List.Perm.Basic

/-!
The four decision stages in a row: one decision a candidate at every stage, accepted
decisions that no later stage touches, and what a decision accepted from a model rests on.
-/

namespace Cinegraph.SpeakerReview

open Library Json

section Stages

variable [Host]

/-- The decisions after each stage. -/
structure DecisionStages where
  primary : List SpeakerReviewDecision
  adjudication : List SpeakerReviewDecision
  finalReview : List SpeakerReviewDecision
  human : List SpeakerReviewDecision

def DecisionStages.all (stages : DecisionStages) : List (List SpeakerReviewDecision) :=
  [stages.primary, stages.adjudication, stages.finalReview, stages.human]

/-- The verdict maps of the three model stages. -/
structure StageVerdicts where
  primary : VerdictMap
  adjudication : VerdictMap
  finalReview : VerdictMap

def runStages (configuration : SpeakerReviewConfiguration)
    (candidates : List SpeakerReviewCandidate) (verdicts : StageVerdicts)
    (resolutions : List HumanSpeakerReviewResolution) : Except Raised DecisionStages := do
  let primary := decidePrimaryConsensus configuration candidates verdicts.primary
  let adjudication := applyAdjudication configuration primary verdicts.adjudication
  let finalReview := applyFinalReview configuration adjudication verdicts.finalReview
  let human ← applyResolutions finalReview resolutions
  return { primary, adjudication, finalReview, human }

def SpeakerReviewDisposition.isAccepted : SpeakerReviewDisposition → Bool
  | .consensusAccepted | .adjudicationAccepted | .finalReviewAccepted | .humanReviewAccepted => true
  | .adjudicationRequired | .needsHuman => false

/-- A later stage leaves accepted decisions alone. -/
def Kept (before after : List SpeakerReviewDecision) : Prop :=
  List.Forall₂ (fun old new => old.disposition.isAccepted = true → new = old) before after

/-- Every configured primary pass gave exactly one verdict, and all name the speaker. -/
structure Unanimous (configuration : SpeakerReviewConfiguration)
    (verdicts : List SpeakerReviewVerdict) (speaker : String) : Prop where
  passes : (verdicts.map (·.passId)).Perm configuration.primaryPassIds.eraseDups
  present : verdicts ≠ []
  agree : ∀ verdict ∈ verdicts, verdict.speaker = speaker

/-- A verdict supports a speaker of a candidate: it names him, he is allowed, its evidence
is the candidate's own, and its confidence reaches the threshold. -/
structure Supports (candidate : SpeakerReviewCandidate) (minimum : FloatValue) (speaker : String)
    (verdict : SpeakerReviewVerdict) : Prop where
  names : verdict.speaker = speaker
  allowed : speaker ∈ candidate.allowedSpeakers
  cites : verdict.evidenceIds ≠ []
  own : ∀ id ∈ verdict.evidenceIds, id ∈ candidate.evidenceIds
  not_below : verdict.confidence.value.lt minimum = false
  confident : minimum ≠ .nan → verdict.confidence.value.ge minimum = true
  decided : verdict.action ≠ .needsReview

/-- What a decision accepted from a model rests on. -/
def ModelSupported (configuration : SpeakerReviewConfiguration) (candidate : SpeakerReviewCandidate)
    (decision : SpeakerReviewDecision) : Prop :=
  match decision.disposition with
  | .consensusAccepted => ∃ speaker, decision.speaker = some speaker ∧
      decision.primaryVerdicts ≠ [] ∧ ∀ verdict ∈ decision.primaryVerdicts,
        Supports candidate configuration.consensusMinimumConfidence speaker verdict
  | .adjudicationAccepted => ∃ verdict, decision.adjudicationVerdict = some verdict ∧
      decision.speaker = some verdict.speaker ∧
        Supports candidate configuration.adjudicationMinimumConfidence verdict.speaker verdict
  | .finalReviewAccepted => ∃ verdict, decision.finalReviewVerdict = some verdict ∧
      decision.speaker = some verdict.speaker ∧
        Supports candidate configuration.finalReviewMinimumConfidence verdict.speaker verdict
  | _ => True

/-- `{candidate.candidate_id: candidate for candidate in candidates}` -/
def candidatesById (candidates : List SpeakerReviewCandidate) : CandidateMap := fun id =>
  candidates.reverse.find? fun candidate => candidate.candidateId = id

/-- A verdict map that the parser makes of some output. -/
def Parsed (configuration : SpeakerReviewConfiguration) (candidates : List SpeakerReviewCandidate)
    (verdicts : VerdictMap) : Prop :=
  ∃ validate output errors, parseBatchResults validate output (candidatesById candidates)
    configuration = .ok (verdicts, errors)

variable {configuration : SpeakerReviewConfiguration} {candidates : List SpeakerReviewCandidate}

theorem candidatesById_of_mem (distinct : (candidates.map (·.candidateId)).Nodup)
    {candidate : SpeakerReviewCandidate} (member : candidate ∈ candidates) :
    candidatesById candidates candidate.candidateId = some candidate := by
  rw [candidatesById]
  cases found : candidates.reverse.find? fun other =>
      other.candidateId = candidate.candidateId with
  | none =>
      have absent := List.find?_eq_none.mp found candidate (List.mem_reverse.mpr member)
      simp at absent
  | some other =>
      have listed := List.mem_reverse.mp (List.mem_of_find?_eq_some found)
      have same : other.candidateId = candidate.candidateId := by
        simpa using List.find?_some found
      rw [List.inj_on_of_nodup_map distinct listed member same]

section Consensus

omit [Host] in
theorem nodup_eraseDups (items : List String) : items.eraseDups.Nodup := by
  induction h : items.length using Nat.strong_induction_on generalizing items with
  | _ n ih =>
      cases items with
      | nil => simp
      | cons a items =>
          rw [List.eraseDups_cons, List.nodup_cons]
          have shorter := List.length_filter_le (fun b => !b == a) items
          rw [List.length_cons] at h
          exact ⟨by simp [List.mem_eraseDups], ih _ (by omega) _ rfl⟩

omit [Host] in
theorem perm_of_sameElements {a b : List String} (nodup : b.Nodup) (length : a.length = b.length)
    (same : sameElements a b = true) : a.Perm b := by
  rw [sameElements, Bool.and_eq_true, List.all_eq_true, List.all_eq_true] at same
  have covered : b ⊆ a := fun c member => by simpa using same.2 c member
  exact ((List.subperm_of_subset nodup covered).perm_of_length_le (by omega)).symm

omit [Host] in
theorem all_eq_of_eraseDups {items : List String} (one : items.eraseDups.length = 1) :
    ∀ a ∈ items, ∀ b ∈ items, a = b := by
  obtain ⟨c, single⟩ := List.length_eq_one_iff.mp one
  intro a hA b hB
  have hA := List.mem_eraseDups.mpr hA
  have hB := List.mem_eraseDups.mpr hB
  rw [single, List.mem_singleton] at hA hB
  rw [hA, hB]

/-- What it takes for the primary verdicts of a candidate to be a consensus. -/
theorem hasPrimaryConsensus_sound {verdicts : List SpeakerReviewVerdict}
    (accepted : (hasPrimaryConsensus configuration verdicts).1 = true) :
    ∃ first rest, verdicts = first :: rest ∧
      Unanimous configuration verdicts first.speaker ∧
      ∀ verdict ∈ verdicts, verdict.action ≠ .needsReview ∧
        verdict.confidence.value.lt configuration.consensusMinimumConfidence = false ∧
        verdict.evidenceIds ≠ [] := by
  unfold hasPrimaryConsensus at accepted
  simp only at accepted
  split at accepted
  · cases accepted
  rename_i counted
  split at accepted
  · cases accepted
  rename_i decided
  split at accepted
  · cases accepted
  rename_i agreed
  split at accepted
  · cases accepted
  rename_i confident
  split at accepted
  · cases accepted
  rename_i cited
  rw [not_or, not_not, Bool.not_eq_false] at counted
  rw [not_not] at agreed
  have one := all_eq_of_eraseDups agreed
  cases verdicts with
  | nil => cases agreed
  | cons first rest =>
      refine ⟨first, rest, rfl, ⟨?_, by simp, ?_⟩, ?_⟩
      · apply perm_of_sameElements (nodup_eraseDups _) _ counted.2
        rw [List.length_map]
        exact counted.1
      · intro verdict member
        exact one _ (List.mem_map_of_mem member) _ (by simp)
      · intro verdict member
        refine ⟨fun escalated => decided ?_, ?_, fun none => cited ?_⟩
        · exact List.any_eq_true.mpr ⟨verdict, member, by simpa using escalated⟩
        · cases below : verdict.confidence.value.lt configuration.consensusMinimumConfidence with
          | false => rfl
          | true => exact absurd (List.any_eq_true.mpr ⟨verdict, member, below⟩) confident
        · exact List.any_eq_true.mpr ⟨verdict, member, by simpa using none⟩

end Consensus

section Support

omit [Host] in
theorem ge_of_not_lt {a b : FloatValue} (finite : a.isFinite = true) (number : b ≠ .nan)
    (above : a.lt b = false) : a.ge b = true := by
  cases a with
  | finite q =>
      cases b with
      | finite r => simpa [FloatValue.lt, FloatValue.ge] using above
      | infinity negative => simpa [FloatValue.lt, FloatValue.ge] using above
      | nan => exact absurd rfl number
  | infinity negative => cases finite
  | nan => cases finite

omit [Host] in
theorem lt_of_ge {a b : FloatValue} (above : a.ge b = true) : a.lt b = false := by
  cases a with
  | finite q => cases b <;> simp_all [FloatValue.lt, FloatValue.ge]
  | infinity negative =>
      cases b with
      | infinity other =>
          simp only [FloatValue.ge, Bool.or_eq_true, Bool.not_eq_true'] at above
          rcases above with rfl | rfl <;> simp [FloatValue.lt]
      | _ => simp_all [FloatValue.lt, FloatValue.ge]
  | nan => cases b <;> rfl

theorem SpeakerReviewVerdict.confidence_finite (verdict : SpeakerReviewVerdict) :
    verdict.confidence.value.isFinite = true := by
  have unit := verdict.confidence_unit
  cases value : verdict.confidence.value with
  | finite q => rfl
  | infinity negative =>
      rw [value] at unit
      cases unit
  | nan =>
      rw [value] at unit
      cases unit

/-- A filed verdict of a candidate names one of its speakers and cites its evidence. -/
theorem parsed_own {verdicts : VerdictMap} (parsed : Parsed configuration candidates verdicts)
    (distinct : (candidates.map (·.candidateId)).Nodup) {candidate : SpeakerReviewCandidate}
    (member : candidate ∈ candidates) {verdict : SpeakerReviewVerdict}
    (filed : verdict ∈ verdictsOf verdicts candidate.candidateId) :
    verdict.speaker ∈ candidate.allowedSpeakers ∧
      ∀ id ∈ verdict.evidenceIds, id ∈ candidate.evidenceIds := by
  obtain ⟨validate, output, errors, run⟩ := parsed
  obtain ⟨id, ⟨from_candidate⟩⟩ := parseBatchResults_filed run candidate.candidateId verdict filed
  have found := from_candidate.found
  rw [id, candidatesById_of_mem distinct member] at found
  injection found with same
  rw [same]
  exact ⟨from_candidate.speaker_allowed, from_candidate.evidence_own⟩

theorem acceptedVerdict_eq {minimum : FloatValue} {verdicts : VerdictMap} {candidateId : String}
    {verdict : SpeakerReviewVerdict}
    (accepted : acceptedVerdict minimum verdicts candidateId = some verdict) :
    onlyVerdict (verdictsOf verdicts candidateId) = some verdict ∧
      verdict ∈ verdictsOf verdicts candidateId ∧ meetsPolicy minimum verdict = true := by
  rw [acceptedVerdict, Option.filter_eq_some_iff] at accepted
  obtain ⟨only, policy⟩ := accepted
  refine ⟨only, ?_, policy⟩
  unfold onlyVerdict at only
  split at only
  · rename_i single
    cases only
    rw [single]
    exact List.mem_singleton_self _
  · cases only

/-- A verdict that a later stage accepts supports its speaker. -/
theorem acceptedVerdict_supports {minimum : FloatValue} {verdicts : VerdictMap}
    (parsed : Parsed configuration candidates verdicts)
    (distinct : (candidates.map (·.candidateId)).Nodup) {candidate : SpeakerReviewCandidate}
    (member : candidate ∈ candidates) {verdict : SpeakerReviewVerdict}
    (accepted : acceptedVerdict minimum verdicts candidate.candidateId = some verdict) :
    Supports candidate minimum verdict.speaker verdict := by
  obtain ⟨-, filed, policy⟩ := acceptedVerdict_eq accepted
  obtain ⟨allowed, own⟩ := parsed_own parsed distinct member filed
  simp only [meetsPolicy, Bool.and_eq_true, decide_eq_true_eq] at policy
  exact ⟨rfl, allowed, policy.2, own, lt_of_ge policy.1.2, fun _ => policy.1.2, policy.1.1⟩

end Support

section Pointwise

/-! One candidate through the stages. -/

variable (verdicts : StageVerdicts) (resolutions : List HumanSpeakerReviewResolution)

variable (configuration) in
def afterPrimary (candidate : SpeakerReviewCandidate) : SpeakerReviewDecision :=
  primaryDecision configuration verdicts.primary candidate

variable (configuration) in
def afterAdjudication (candidate : SpeakerReviewCandidate) : SpeakerReviewDecision :=
  adjudicated configuration verdicts.adjudication (afterPrimary configuration verdicts candidate)

variable (configuration) in
def afterFinalReview (candidate : SpeakerReviewCandidate) : SpeakerReviewDecision :=
  finallyReviewed configuration verdicts.finalReview
    (afterAdjudication configuration verdicts candidate)

variable (configuration) in
def afterHuman (candidate : SpeakerReviewCandidate) : SpeakerReviewDecision :=
  resolved resolutions (afterFinalReview configuration verdicts candidate)

variable {verdicts resolutions}

theorem runStages_eq {stages : DecisionStages}
    (run : runStages configuration candidates verdicts resolutions = .ok stages) :
    stages.primary = candidates.map (afterPrimary configuration verdicts) ∧
    stages.adjudication = candidates.map (afterAdjudication configuration verdicts) ∧
    stages.finalReview = candidates.map (afterFinalReview configuration verdicts) ∧
    stages.human = candidates.map (afterHuman configuration verdicts resolutions) ∧
    sameElements (unresolvedIds stages.finalReview) (resolutions.map (·.candidateId)) = true := by
  rw [runStages, bind_eq_ok] at run
  obtain ⟨human, applied, result⟩ := run
  obtain ⟨same, made⟩ := applyResolutions_eq_ok.mp applied
  subst made
  injection result with result
  subst result
  refine ⟨rfl, ?_, ?_, ?_, same⟩
  · rw [applyAdjudication, decidePrimaryConsensus, List.map_map]
    rfl
  · rw [applyFinalReview, applyAdjudication, decidePrimaryConsensus, List.map_map, List.map_map]
    rfl
  · rw [applyFinalReview, applyAdjudication, decidePrimaryConsensus, List.map_map, List.map_map,
      List.map_map]
    rfl

theorem afterPrimary_id (candidate : SpeakerReviewCandidate) :
    (afterPrimary configuration verdicts candidate).candidateId = candidate.candidateId := rfl

theorem afterAdjudication_id (candidate : SpeakerReviewCandidate) :
    (afterAdjudication configuration verdicts candidate).candidateId = candidate.candidateId := by
  unfold afterAdjudication adjudicated
  split <;> rfl

theorem afterFinalReview_id (candidate : SpeakerReviewCandidate) :
    (afterFinalReview configuration verdicts candidate).candidateId = candidate.candidateId := by
  unfold afterFinalReview finallyReviewed
  split
  · exact afterAdjudication_id candidate
  · exact afterAdjudication_id candidate

theorem afterHuman_id (candidate : SpeakerReviewCandidate) :
    (afterHuman configuration verdicts resolutions candidate).candidateId =
      candidate.candidateId := by
  unfold afterHuman resolved
  split <;> exact afterFinalReview_id candidate

theorem afterAdjudication_of_accepted {candidate : SpeakerReviewCandidate}
    (accepted : (afterPrimary configuration verdicts candidate).disposition.isAccepted = true) :
    afterAdjudication configuration verdicts candidate =
      afterPrimary configuration verdicts candidate := by
  have consensus : (afterPrimary configuration verdicts candidate).disposition =
      .consensusAccepted := by
    unfold afterPrimary primaryDecision at accepted ⊢
    simp only at accepted ⊢
    split at accepted
    · rw [if_pos ‹_›]
    · cases accepted
  rw [afterAdjudication, adjudicated, if_pos consensus]

theorem afterFinalReview_of_accepted {candidate : SpeakerReviewCandidate}
    (accepted : (afterAdjudication configuration verdicts candidate).disposition.isAccepted =
      true) : afterFinalReview configuration verdicts candidate =
      afterAdjudication configuration verdicts candidate := by
  have decided : (afterAdjudication configuration verdicts candidate).disposition ≠
      .needsHuman := by
    intro open_decision
    rw [open_decision] at accepted
    cases accepted
  rw [afterFinalReview, finallyReviewed, if_pos decided]

/-- With distinct ids, the resolutions of a set that is accepted belong to open decisions. -/
theorem afterHuman_of_accepted (distinct : (candidates.map (·.candidateId)).Nodup)
    (same : sameElements (unresolvedIds (candidates.map (afterFinalReview configuration verdicts)))
      (resolutions.map (·.candidateId)) = true)
    {candidate : SpeakerReviewCandidate} (member : candidate ∈ candidates)
    (accepted : (afterFinalReview configuration verdicts candidate).disposition.isAccepted =
      true) : afterHuman configuration verdicts resolutions candidate =
      afterFinalReview configuration verdicts candidate := by
  rw [afterHuman, resolved]
  split
  · rename_i resolution found
    exfalso
    rw [resolutionOf] at found
    have listed := List.mem_reverse.mp (List.mem_of_find?_eq_some found)
    have id : resolution.candidateId = candidate.candidateId := by
      have key := List.find?_some found
      rw [afterFinalReview_id] at key
      simpa using key
    rw [sameElements, Bool.and_eq_true, List.all_eq_true, List.all_eq_true] at same
    have unresolved := same.2 _ (List.mem_map_of_mem listed)
    rw [List.contains_iff_mem, unresolvedIds, List.mem_map] at unresolved
    obtain ⟨decision, filtered, key⟩ := unresolved
    obtain ⟨inside, needs⟩ := List.mem_filter.mp filtered
    obtain ⟨other, otherMember, rfl⟩ := List.mem_map.mp inside
    rw [afterFinalReview_id, id] at key
    have identical : other = candidate :=
      List.inj_on_of_nodup_map distinct otherMember member key
    subst identical
    rw [of_decide_eq_true needs] at accepted
    cases accepted
  · rfl

/-- A consensus at any stage is the one of the primary passes. -/
theorem consensus_source {candidate : SpeakerReviewCandidate} {decision : SpeakerReviewDecision}
    (stage : decision = afterPrimary configuration verdicts candidate ∨
      decision = afterAdjudication configuration verdicts candidate ∨
      decision = afterFinalReview configuration verdicts candidate ∨
      decision = afterHuman configuration verdicts resolutions candidate)
    (consensus : decision.disposition = .consensusAccepted) :
    decision = afterPrimary configuration verdicts candidate := by
  have adjudication (consensus : (afterAdjudication configuration verdicts candidate).disposition =
      .consensusAccepted) : afterAdjudication configuration verdicts candidate =
        afterPrimary configuration verdicts candidate := by
    unfold afterAdjudication adjudicated at consensus ⊢
    split
    · rfl
    · rename_i other
      rw [if_neg other] at consensus
      simp only at consensus
      split at consensus <;> cases consensus
  have finalReview (consensus : (afterFinalReview configuration verdicts candidate).disposition =
      .consensusAccepted) : afterFinalReview configuration verdicts candidate =
        afterAdjudication configuration verdicts candidate := by
    unfold afterFinalReview finallyReviewed at consensus ⊢
    split
    · rfl
    · rename_i other
      rw [if_neg other] at consensus
      simp only at consensus
      split at consensus <;> cases consensus
  have human (consensus : (afterHuman configuration verdicts resolutions candidate).disposition =
      .consensusAccepted) : afterHuman configuration verdicts resolutions candidate =
        afterFinalReview configuration verdicts candidate := by
    unfold afterHuman resolved at consensus ⊢
    split
    · rename_i found
      rw [found] at consensus
      cases consensus
    · rfl
  rcases stage with rfl | rfl | rfl | rfl
  · rfl
  · exact adjudication consensus
  · have same := finalReview consensus
    rw [same] at consensus ⊢
    exact adjudication consensus
  · have same := human consensus
    rw [same] at consensus ⊢
    have same := finalReview consensus
    rw [same] at consensus ⊢
    exact adjudication consensus

theorem afterPrimary_unanimous {candidate : SpeakerReviewCandidate}
    (consensus : (afterPrimary configuration verdicts candidate).disposition =
      .consensusAccepted) : ∃ speaker,
      (afterPrimary configuration verdicts candidate).speaker = some speaker ∧
      Unanimous configuration (verdictsOf verdicts.primary candidate.candidateId) speaker ∧
      ∀ verdict ∈ verdictsOf verdicts.primary candidate.candidateId,
        verdict.action ≠ .needsReview ∧
        verdict.confidence.value.lt configuration.consensusMinimumConfidence = false ∧
        verdict.evidenceIds ≠ [] := by
  unfold afterPrimary primaryDecision at consensus ⊢
  simp only at consensus ⊢
  split at consensus
  · rename_i accepted
    obtain ⟨first, rest, shape, unanimous, each⟩ := hasPrimaryConsensus_sound accepted
    refine ⟨first.speaker, ?_, unanimous, each⟩
    rw [if_pos accepted, shape]
    rfl
  · cases consensus

variable (distinct : (candidates.map (·.candidateId)).Nodup)
  {candidate : SpeakerReviewCandidate} (member : candidate ∈ candidates)

include distinct member

theorem afterPrimary_supported (parsed : Parsed configuration candidates verdicts.primary) :
    ModelSupported configuration candidate (afterPrimary configuration verdicts candidate) := by
  rw [ModelSupported]
  split
  · rename_i consensus
    obtain ⟨speaker, decided, unanimous, each⟩ := afterPrimary_unanimous consensus
    refine ⟨speaker, decided, unanimous.present, fun verdict filed => ?_⟩
    obtain ⟨allowed, own⟩ := parsed_own parsed distinct member filed
    obtain ⟨action, above, cites⟩ := each verdict filed
    have names := unanimous.agree verdict filed
    rw [names] at allowed
    exact ⟨names, allowed, cites, own, above,
      fun number => ge_of_not_lt verdict.confidence_finite number above, action⟩
  · rename_i other
    unfold afterPrimary primaryDecision at other
    simp only at other
    split at other <;> cases other
  · rename_i other
    unfold afterPrimary primaryDecision at other
    simp only at other
    split at other <;> cases other
  · trivial

theorem afterAdjudication_supported (primary : Parsed configuration candidates verdicts.primary)
    (parsed : Parsed configuration candidates verdicts.adjudication) :
    ModelSupported configuration candidate
      (afterAdjudication configuration verdicts candidate) := by
  have before := afterPrimary_supported distinct member primary
  rw [afterAdjudication, adjudicated]
  split
  · exact before
  · cases accepted : acceptedVerdict configuration.adjudicationMinimumConfidence
        verdicts.adjudication (afterPrimary configuration verdicts candidate).candidateId with
    | none => trivial
    | some verdict =>
        rw [afterPrimary_id] at accepted
        exact ⟨verdict, (acceptedVerdict_eq accepted).1, rfl,
          acceptedVerdict_supports parsed distinct member accepted⟩

theorem afterFinalReview_supported (primary : Parsed configuration candidates verdicts.primary)
    (adjudication : Parsed configuration candidates verdicts.adjudication)
    (parsed : Parsed configuration candidates verdicts.finalReview) :
    ModelSupported configuration candidate
      (afterFinalReview configuration verdicts candidate) := by
  have before := afterAdjudication_supported distinct member primary adjudication
  rw [afterFinalReview, finallyReviewed]
  split
  · exact before
  · have id : (afterAdjudication configuration verdicts candidate).candidateId =
        candidate.candidateId := afterAdjudication_id candidate
    cases accepted : acceptedVerdict configuration.finalReviewMinimumConfidence
        verdicts.finalReview (afterAdjudication configuration verdicts candidate).candidateId with
    | none => trivial
    | some verdict =>
        rw [id] at accepted
        refine ⟨verdict, ?_, rfl, acceptedVerdict_supports parsed distinct member accepted⟩
        simp only [id]
        exact (acceptedVerdict_eq accepted).1

theorem afterHuman_supported (primary : Parsed configuration candidates verdicts.primary)
    (adjudication : Parsed configuration candidates verdicts.adjudication)
    (finalReview : Parsed configuration candidates verdicts.finalReview) :
    ModelSupported configuration candidate
      (afterHuman configuration verdicts resolutions candidate) := by
  have before := afterFinalReview_supported distinct member primary adjudication finalReview
  rw [afterHuman, resolved]
  split
  · trivial
  · exact before

end Pointwise

end Stages

section Sample

open Sample

def sampleVerdict (candidateId passId : String) : SpeakerReviewVerdict :=
  { brokenVerdict with candidateId := candidateId, passId := passId, rationale := "Direct match." }

def sampleResolution : HumanSpeakerReviewResolution where
  candidateId := "S01E01-2"
  speaker := "BOB"
  reviewer := "reviewer"
  reviewedAt := ()
  rationale := "Heard in the recording."
  candidate_trimmed := by decide +kernel
  speaker_trimmed := by decide +kernel
  reviewer_trimmed := by decide +kernel
  rationale_trimmed := by decide +kernel
  aware := rfl

def sampleCandidates : List SpeakerReviewCandidate :=
  [sampleCandidate "S01E01-1", sampleCandidate "S01E01-2"]

/-- Both primary passes agree on the first candidate, and nobody decides the second. -/
def sampleVerdicts : StageVerdicts where
  primary := Dict.ofList [("S01E01-1",
    [sampleVerdict "S01E01-1" "primary-a", sampleVerdict "S01E01-1" "primary-b"])]
  adjudication := Dict.empty
  finalReview := Dict.empty

def sampleStages : DecisionStages :=
  let primary := decidePrimaryConsensus DEFAULT_SPEAKER_REVIEW_CONFIGURATION sampleCandidates
    sampleVerdicts.primary
  let adjudication := applyAdjudication DEFAULT_SPEAKER_REVIEW_CONFIGURATION primary
    sampleVerdicts.adjudication
  let finalReview := applyFinalReview DEFAULT_SPEAKER_REVIEW_CONFIGURATION adjudication
    sampleVerdicts.finalReview
  { primary, adjudication, finalReview, human := finalReview.map (resolved [sampleResolution]) }

theorem sampleStages_run : runStages DEFAULT_SPEAKER_REVIEW_CONFIGURATION sampleCandidates
    sampleVerdicts [sampleResolution] = .ok sampleStages := by
  have applied : applyResolutions sampleStages.finalReview [sampleResolution] =
      .ok sampleStages.human := applyResolutions_eq_ok.mpr ⟨by decide +kernel, rfl⟩
  rw [sampleStages] at applied
  rw [runStages, applied]
  rfl

end Sample

end Cinegraph.SpeakerReview
