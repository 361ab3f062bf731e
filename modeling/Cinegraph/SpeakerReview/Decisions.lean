import Cinegraph.SpeakerReview.BatchResults

/-!
The decision rules of a review: consensus of the primary passes, adjudication, final
review and human resolutions. Each stage decides only what the one before left open.
-/

namespace Cinegraph.SpeakerReview

open Library Json

namespace SpeakerReviewErrorMessages

def HUMAN_REVIEW_DECISION_SET_MISMATCH : String :=
  "Human-review decisions must resolve every queued candidate exactly once."

end SpeakerReviewErrorMessages

open SpeakerReviewErrorMessages

section Rules

variable [Host] (configuration : SpeakerReviewConfiguration)

/-- `set(a) == set(b)` -/
def sameElements (a b : List String) : Bool := a.all (b.contains ·) && b.all (a.contains ·)

def hasPrimaryConsensus (verdicts : List SpeakerReviewVerdict) : Bool × String :=
  let expectedPasses := configuration.primaryPassIds.eraseDups
  if verdicts.length ≠ expectedPasses.length ∨
      sameElements (verdicts.map (·.passId)) expectedPasses = false then
    (false, "One or more primary verdicts are missing.")
  else if verdicts.any (fun verdict => verdict.action = .needsReview) then
    (false, "A primary reviewer requested escalation.")
  else if (verdicts.map (·.speaker)).eraseDups.length ≠ 1 then
    (false, "Primary reviewers selected different speakers.")
  else if verdicts.any (fun verdict =>
      verdict.confidence.value.lt configuration.consensusMinimumConfidence) then
    (false, "Primary confidence is below the consensus threshold.")
  else if verdicts.any (fun verdict => verdict.evidenceIds = []) then
    (false, "A primary verdict did not cite evidence.")
  else (true, "Both primary reviewers independently agreed above threshold.")

def primaryDecision (verdicts : VerdictMap) (candidate : SpeakerReviewCandidate) :
    SpeakerReviewDecision :=
  let candidateVerdicts := verdictsOf verdicts candidate.candidateId
  let (accepted, reason) := hasPrimaryConsensus configuration candidateVerdicts
  { candidateId := candidate.candidateId
    disposition := if accepted then .consensusAccepted else .adjudicationRequired
    speaker := if accepted then candidateVerdicts.head?.map (·.speaker) else none
    reason
    primaryVerdicts := candidateVerdicts
    adjudicationVerdict := none
    finalReviewVerdict := none
    humanReviewResolution := none }

def decidePrimaryConsensus (candidates : List SpeakerReviewCandidate) (verdicts : VerdictMap) :
    List SpeakerReviewDecision :=
  candidates.map (primaryDecision configuration verdicts)

/-- `verdict_group[0] if len(verdict_group) == 1 else None` -/
def onlyVerdict : List SpeakerReviewVerdict → Option SpeakerReviewVerdict
  | [verdict] => some verdict
  | _ => none

/-- The automatic acceptance of a single verdict above a threshold. -/
def meetsPolicy (minimum : FloatValue) (verdict : SpeakerReviewVerdict) : Bool :=
  verdict.action ≠ .needsReview && verdict.confidence.value.ge minimum &&
    verdict.evidenceIds ≠ []

/-- The verdict of a later stage, where the policy of the stage accepts it. -/
def acceptedVerdict (minimum : FloatValue) (verdicts : VerdictMap) (candidateId : String) :
    Option SpeakerReviewVerdict :=
  (onlyVerdict (verdictsOf verdicts candidateId)).filter (meetsPolicy minimum)

def adjudicated (verdicts : VerdictMap) (decision : SpeakerReviewDecision) :
    SpeakerReviewDecision :=
  if decision.disposition = .consensusAccepted then decision
  else
    let accepted := acceptedVerdict configuration.adjudicationMinimumConfidence verdicts
      decision.candidateId
    { candidateId := decision.candidateId
      disposition := if accepted.isSome then .adjudicationAccepted else .needsHuman
      speaker := accepted.map (·.speaker)
      reason :=
        if accepted.isSome then "Adjudicator met the evidence and confidence policy."
        else "Adjudicator did not meet the automatic acceptance policy."
      primaryVerdicts := decision.primaryVerdicts
      adjudicationVerdict := onlyVerdict (verdictsOf verdicts decision.candidateId)
      finalReviewVerdict := none
      humanReviewResolution := none }

def applyAdjudication (primaryDecisions : List SpeakerReviewDecision) (verdicts : VerdictMap) :
    List SpeakerReviewDecision :=
  primaryDecisions.map (adjudicated configuration verdicts)

def finallyReviewed (verdicts : VerdictMap) (decision : SpeakerReviewDecision) :
    SpeakerReviewDecision :=
  if decision.disposition ≠ .needsHuman then decision
  else
    let accepted := acceptedVerdict configuration.finalReviewMinimumConfidence verdicts
      decision.candidateId
    { candidateId := decision.candidateId
      disposition := if accepted.isSome then .finalReviewAccepted else .needsHuman
      speaker := accepted.map (·.speaker)
      reason :=
        if accepted.isSome then "Final reviewer met the evidence and confidence policy."
        else "Final reviewer did not meet the automatic acceptance policy."
      primaryVerdicts := decision.primaryVerdicts
      adjudicationVerdict := decision.adjudicationVerdict
      finalReviewVerdict := onlyVerdict (verdictsOf verdicts decision.candidateId)
      humanReviewResolution := none }

def applyFinalReview (decisions : List SpeakerReviewDecision) (verdicts : VerdictMap) :
    List SpeakerReviewDecision :=
  decisions.map (finallyReviewed configuration verdicts)

/-- `resolution_by_id.get(candidate_id)`: a later resolution of one id replaces an earlier. -/
def resolutionOf (resolutions : List HumanSpeakerReviewResolution) (candidateId : String) :
    Option HumanSpeakerReviewResolution :=
  resolutions.reverse.find? fun item => item.candidateId = candidateId

def resolved (resolutions : List HumanSpeakerReviewResolution) (decision : SpeakerReviewDecision) :
    SpeakerReviewDecision :=
  match resolutionOf resolutions decision.candidateId with
  | some resolution =>
      { decision with
        disposition := .humanReviewAccepted
        speaker := some resolution.speaker
        reason := "Human reviewer resolved the remaining ambiguity."
        humanReviewResolution := some resolution }
  | none => decision

def unresolvedIds (decisions : List SpeakerReviewDecision) : List String :=
  (decisions.filter fun item => item.disposition = .needsHuman).map (·.candidateId)

def applyResolutions (priorDecisions : List SpeakerReviewDecision)
    (resolutions : List HumanSpeakerReviewResolution) :
    Except Raised (List SpeakerReviewDecision) := do
  reject (sameElements (unresolvedIds priorDecisions) (resolutions.map (·.candidateId)) = false)
    HUMAN_REVIEW_DECISION_SET_MISMATCH
  return priorDecisions.map (resolved resolutions)

theorem applyResolutions_eq_ok {priorDecisions decisions : List SpeakerReviewDecision}
    {resolutions : List HumanSpeakerReviewResolution} :
    applyResolutions priorDecisions resolutions = .ok decisions ↔
      sameElements (unresolvedIds priorDecisions) (resolutions.map (·.candidateId)) = true ∧
        decisions = priorDecisions.map (resolved resolutions) := by
  rw [applyResolutions, reject_bind_eq_ok, Bool.not_eq_false]
  exact and_congr_right fun _ => ⟨fun same => by cases same; rfl, fun same => by rw [same]; rfl⟩

end Rules

end Cinegraph.SpeakerReview
