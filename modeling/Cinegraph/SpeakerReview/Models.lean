import Cinegraph.Common.Records
import Cinegraph.Library.Lines
import Cinegraph.Library.WholeFloats

/-!
Records of a speaker review with their JSON forms: candidates and their evidence,
verdicts, human resolutions and decisions.
-/

namespace Cinegraph.SpeakerReview

open Library Json

/-- A float of the host language. -/
structure HostFloat [Floats] where
  value : FloatValue
  host : value.isHost

instance [Floats] : DecidableEq HostFloat := fun a b =>
  decidable_of_iff (a.value = b.value) (by cases a; cases b; simp)

/-- What records need of the host language beside its floats: conversions by `int`,
`float` and `str`, `str.upper`, and instants with their ISO texts. -/
class Host extends Floats where
  upper : String → String
  upper_ascii : ∀ s : String, s.toList.all (fun c => c.toNat < 128) = true →
    upper s = String.ofList (s.toList.map Char.toUpper)
  intOfText : String → Option Int
  floatOfInt : Int → Option HostFloat
  floatOfText : String → Option HostFloat
  reprOfContainer : Json → String
  Instant : Type
  isAware : Instant → Bool
  isoformat : Instant → String
  fromisoformat : String → Option Instant
  fromisoformat_isoformat : ∀ t, fromisoformat (isoformat t) = some t

export Host (Instant)

section Records

variable [Host]

section Conversions

/-- `str(value)` -/
def strOf : Json → String
  | .str s => s
  | .null => "None"
  | .bool b => if b then "True" else "False"
  | .int n => String.ofList (Json.dumpInt n)
  | .float (.finite q) => String.ofList (Floats.repr q)
  | .float (.infinity negative) => if negative then "-inf" else "inf"
  | .float .nan => "nan"
  | value => Host.reprOfContainer value

/-- `int(value)` -/
def intOf : Json → Except Raised Int
  | .int n => .ok n
  | .bool b => .ok (if b then 1 else 0)
  | .float (.finite q) => .ok (q.num.tdiv q.den)
  | .float (.infinity _) => .error ⟨.overflowError, "cannot convert float infinity to integer"⟩
  | .float .nan => .error (valueError "cannot convert float NaN to integer")
  | .str s =>
      match Host.intOfText s with
      | some n => .ok n
      | none => .error (valueError "invalid literal for int()")
  | _ => .error ⟨.typeError, "int() argument must be a string or a number"⟩

/-- The float behind a parsed number. -/
def HostFloat.ofValue (value : FloatValue) : Except Raised HostFloat :=
  if host : value.isHost then .ok ⟨value, host⟩ else .error (valueError "not a float")

/-- `float(value)` -/
def floatOf : Json → Except Raised HostFloat
  | .float value => HostFloat.ofValue value
  | .int n =>
      match Host.floatOfInt n with
      | some value => .ok value
      | none => .error ⟨.overflowError, "int too large to convert to float"⟩
  | .bool b =>
      match Host.floatOfInt (if b then 1 else 0) with
      | some value => .ok value
      | none => .error ⟨.overflowError, "int too large to convert to float"⟩
  | .str s =>
      match Host.floatOfText s with
      | some value => .ok value
      | none => .error (valueError "could not convert string to float")
  | _ => .error ⟨.typeError, "float() argument must be a string or a number"⟩

@[simp] theorem floatOf_float (f : HostFloat) : floatOf (.float f.value) = .ok f := by
  simp [floatOf, HostFloat.ofValue, f.host]

/-- `payload[key]` -/
def itemOf (payload : Json) (key : String) : Except Raised Json :=
  match payload with
  | .obj items => valueAt items key
  | _ => .error ⟨.typeError, "object is not subscriptable by a text"⟩

/-- `payload.get(key)` -/
def getOf (payload : Json) (key : String) : Except Raised Json :=
  match payload with
  | .obj items => .ok ((items.lookup key).getD .null)
  | _ => .error ⟨.attributeError, "object has no attribute 'get'"⟩

/-- The elements of a loop over a value. -/
def elementsOf : Json → Except Raised (List Json)
  | .arr items => .ok items
  | .obj items => .ok (items.map fun (key, _) => .str key)
  | .str s => .ok (s.toList.map fun c => .str (String.singleton c))
  | _ => .error ⟨.typeError, "object is not iterable"⟩

end Conversions

structure SpeakerReviewEvidence where
  evidenceId : String
  source : String
  speaker : String
  text : String
  similarityScore : Option HostFloat

def floatJson (f : HostFloat) : Json := .float f.value

def SpeakerReviewEvidence.toDict (item : SpeakerReviewEvidence) : Json :=
  .obj [
    ("evidence_id", .str item.evidenceId),
    ("source", .str item.source),
    ("speaker", .str item.speaker),
    ("text", .str item.text),
    ("similarity_score", nullableJson floatJson item.similarityScore)]

/-- The arguments of `SpeakerReviewCandidate`. -/
structure CandidateFields where
  candidateId : String
  sourceFilename : String
  sourceSha256 : String
  seasonNumber : Int
  episodeNumber : Int
  cueNumber : Int
  lineNumber : Int
  proposedSpeaker : String
  dialogueText : String
  allowedSpeakers : List String
  evidence : List SpeakerReviewEvidence

structure SpeakerReviewCandidate extends CandidateFields where
  proposed_allowed : proposedSpeaker ∈ allowedSpeakers
  has_evidence : evidence ≠ []

def CandidateFields.create (fields : CandidateFields) : Except Raised SpeakerReviewCandidate :=
  if allowed : fields.proposedSpeaker ∈ fields.allowedSpeakers then
    if evidence : fields.evidence ≠ [] then .ok { fields with proposed_allowed := allowed, has_evidence := evidence }
    else .error (valueError "A speaker review candidate requires evidence.")
  else .error (valueError "The proposed speaker must be in the episode allowlist.")

def SpeakerReviewCandidate.evidenceIds (candidate : SpeakerReviewCandidate) : List String :=
  candidate.evidence.map (·.evidenceId)

def SpeakerReviewCandidate.toDict (candidate : SpeakerReviewCandidate) : Json :=
  .obj [
    ("candidate_id", .str candidate.candidateId),
    ("source_filename", .str candidate.sourceFilename),
    ("source_sha256", .str candidate.sourceSha256),
    ("episode", .obj [
      ("season", .int candidate.seasonNumber),
      ("episode", .int candidate.episodeNumber)]),
    ("cue_number", .int candidate.cueNumber),
    ("line_number", .int candidate.lineNumber),
    ("proposed_speaker", .str candidate.proposedSpeaker),
    ("dialogue_text", .str candidate.dialogueText),
    ("allowed_speakers", .arr (candidate.allowedSpeakers.map .str)),
    ("evidence", .arr (candidate.evidence.map SpeakerReviewEvidence.toDict))]

inductive SpeakerReviewAction where
  | acceptCandidate
  | correctCandidate
  | needsReview
  deriving DecidableEq, Repr

namespace SpeakerReviewAction

def members : List SpeakerReviewAction := [acceptCandidate, correctCandidate, needsReview]

def value : SpeakerReviewAction → String
  | acceptCandidate => "accept_candidate"
  | correctCandidate => "correct_candidate"
  | needsReview => "needs_review"

end SpeakerReviewAction

inductive SpeakerReviewDisposition where
  | consensusAccepted
  | adjudicationRequired
  | adjudicationAccepted
  | finalReviewAccepted
  | humanReviewAccepted
  | needsHuman
  deriving DecidableEq, Repr

namespace SpeakerReviewDisposition

def members : List SpeakerReviewDisposition :=
  [consensusAccepted, adjudicationRequired, adjudicationAccepted, finalReviewAccepted,
    humanReviewAccepted, needsHuman]

def value : SpeakerReviewDisposition → String
  | consensusAccepted => "consensus_accepted"
  | adjudicationRequired => "adjudication_required"
  | adjudicationAccepted => "adjudication_accepted"
  | finalReviewAccepted => "final_review_accepted"
  | humanReviewAccepted => "human_review_accepted"
  | needsHuman => "needs_human"

end SpeakerReviewDisposition

/-- The arguments of `SpeakerReviewVerdict`. -/
structure VerdictFields where
  candidateId : String
  passId : String
  action : SpeakerReviewAction
  speaker : String
  confidence : HostFloat
  evidenceIds : List String
  rationale : String
  model : String
  responseId : String
  inputTokens : Int
  outputTokens : Int

/-- `isfinite(value) and 0.0 <= value <= 1.0` -/
def isConfidence : FloatValue → Bool
  | .finite q => 0 ≤ q && q ≤ 1
  | _ => false

structure SpeakerReviewVerdict extends VerdictFields where
  confidence_unit : isConfidence confidence.value = true
  input_nonnegative : 0 ≤ inputTokens
  output_nonnegative : 0 ≤ outputTokens

def VerdictFields.create (fields : VerdictFields) : Except Raised SpeakerReviewVerdict :=
  if unit : isConfidence fields.confidence.value = true then
    if tokens : 0 ≤ fields.inputTokens ∧ 0 ≤ fields.outputTokens then
      .ok { fields with
        confidence_unit := unit, input_nonnegative := tokens.1, output_nonnegative := tokens.2 }
    else .error (valueError "Token counts cannot be negative.")
  else .error (valueError "Speaker review confidence must be between zero and one.")

def SpeakerReviewVerdict.toDict (verdict : SpeakerReviewVerdict) : Json :=
  .obj [
    ("candidate_id", .str verdict.candidateId),
    ("pass_id", .str verdict.passId),
    ("action", .str verdict.action.value),
    ("speaker", .str verdict.speaker),
    ("confidence", floatJson verdict.confidence),
    ("evidence_ids", .arr (verdict.evidenceIds.map .str)),
    ("rationale", .str verdict.rationale),
    ("model", .str verdict.model),
    ("response_id", .str verdict.responseId),
    ("input_tokens", .int verdict.inputTokens),
    ("output_tokens", .int verdict.outputTokens)]

/-- The arguments of `HumanSpeakerReviewResolution`. -/
structure ResolutionFields where
  candidateId : String
  speaker : String
  reviewer : String
  reviewedAt : Instant
  rationale : String

/-- `value and value.strip() == value` -/
def isTrimmed (value : String) : Bool := value ≠ "" && Text.strip value = value

structure HumanSpeakerReviewResolution extends ResolutionFields where
  candidate_trimmed : isTrimmed candidateId = true
  speaker_trimmed : isTrimmed speaker = true
  reviewer_trimmed : isTrimmed reviewer = true
  rationale_trimmed : isTrimmed rationale = true
  aware : Host.isAware reviewedAt = true

/-- The message for a field that is empty or not trimmed. -/
def untrimmed (field : String) : Raised :=
  valueError ("Human review " ++ field ++ " must be non-empty and trimmed.")

def ResolutionFields.create (fields : ResolutionFields) :
    Except Raised HumanSpeakerReviewResolution :=
  if candidate : isTrimmed fields.candidateId = true then
    if speaker : isTrimmed fields.speaker = true then
      if reviewer : isTrimmed fields.reviewer = true then
        if rationale : isTrimmed fields.rationale = true then
          if aware : Host.isAware fields.reviewedAt = true then
            .ok { fields with
              candidate_trimmed := candidate, speaker_trimmed := speaker,
              reviewer_trimmed := reviewer, rationale_trimmed := rationale, aware := aware }
          else .error (valueError "Human review timestamp must be timezone-aware.")
        else .error (untrimmed "rationale")
      else .error (untrimmed "reviewer")
    else .error (untrimmed "speaker")
  else .error (untrimmed "candidate_id")

def HumanSpeakerReviewResolution.toDict (resolution : HumanSpeakerReviewResolution) : Json :=
  .obj [
    ("candidate_id", .str resolution.candidateId),
    ("speaker", .str resolution.speaker),
    ("reviewer", .str resolution.reviewer),
    ("reviewed_at", .str (Host.isoformat resolution.reviewedAt)),
    ("rationale", .str resolution.rationale)]

structure SpeakerReviewDecision where
  candidateId : String
  disposition : SpeakerReviewDisposition
  speaker : Option String
  reason : String
  primaryVerdicts : List SpeakerReviewVerdict
  adjudicationVerdict : Option SpeakerReviewVerdict
  finalReviewVerdict : Option SpeakerReviewVerdict
  humanReviewResolution : Option HumanSpeakerReviewResolution

def SpeakerReviewDecision.toDict (decision : SpeakerReviewDecision) : Json :=
  .obj [
    ("candidate_id", .str decision.candidateId),
    ("disposition", .str decision.disposition.value),
    ("speaker", nullableJson .str decision.speaker),
    ("reason", .str decision.reason),
    ("primary_verdicts", .arr (decision.primaryVerdicts.map SpeakerReviewVerdict.toDict)),
    ("adjudication_verdict", nullableJson SpeakerReviewVerdict.toDict decision.adjudicationVerdict),
    ("final_review_verdict", nullableJson SpeakerReviewVerdict.toDict decision.finalReviewVerdict),
    ("human_review_resolution",
      nullableJson HumanSpeakerReviewResolution.toDict decision.humanReviewResolution)]

section Readers

/-- One evidence record of a candidate. -/
def evidenceFromDict (item : Json) : Except Raised SpeakerReviewEvidence := do
  let evidenceId ← itemOf item "evidence_id"
  let source ← itemOf item "source"
  let speaker ← itemOf item "speaker"
  let text ← itemOf item "text"
  let similarityScore ← match ← getOf item "similarity_score" with
    | .null => pure none
    | _ => some <$> (itemOf item "similarity_score" >>= floatOf)
  return {
    evidenceId := strOf evidenceId
    source := strOf source
    speaker := strOf speaker
    text := strOf text
    similarityScore }

def candidateFromDict (payload : Json) : Except Raised SpeakerReviewCandidate := do
  let episode ← itemOf payload "episode"
  reject (isObject episode = false) "Candidate episode must be an object." .typeError
  let evidencePayload ← match ← itemOf payload "evidence" with
    | .arr items => pure items
    | _ => throw ⟨.typeError, "Candidate evidence must be a list."⟩
  let candidateId ← itemOf payload "candidate_id"
  let sourceFilename ← itemOf payload "source_filename"
  let sourceSha256 ← itemOf payload "source_sha256"
  let seasonNumber ← itemOf episode "season" >>= intOf
  let episodeNumber ← itemOf episode "episode" >>= intOf
  let cueNumber ← itemOf payload "cue_number" >>= intOf
  let lineNumber ← itemOf payload "line_number" >>= intOf
  let proposedSpeaker ← itemOf payload "proposed_speaker"
  let dialogueText ← itemOf payload "dialogue_text"
  let allowedSpeakers ← itemOf payload "allowed_speakers" >>= elementsOf
  let evidence ← (evidencePayload.filter isObject).mapM evidenceFromDict
  CandidateFields.create {
    candidateId := strOf candidateId
    sourceFilename := strOf sourceFilename
    sourceSha256 := strOf sourceSha256
    seasonNumber, episodeNumber, cueNumber, lineNumber
    proposedSpeaker := strOf proposedSpeaker
    dialogueText := strOf dialogueText
    allowedSpeakers := allowedSpeakers.map strOf
    evidence }

def verdictFromDict (payload : Json) : Except Raised SpeakerReviewVerdict := do
  let evidenceIds ← match ← getOf payload "evidence_ids" with
    | .arr items => pure items
    | _ => throw ⟨.typeError, "Verdict evidence_ids must be a list."⟩
  let candidateId ← itemOf payload "candidate_id"
  let passId ← itemOf payload "pass_id"
  let actionText ← itemOf payload "action"
  let action ← enumOf SpeakerReviewAction.members SpeakerReviewAction.value (.str (strOf actionText))
  let speaker ← itemOf payload "speaker"
  let confidence ← itemOf payload "confidence" >>= floatOf
  let rationale ← itemOf payload "rationale"
  let model ← itemOf payload "model"
  let responseId ← itemOf payload "response_id"
  let inputTokens ← itemOf payload "input_tokens" >>= intOf
  let outputTokens ← itemOf payload "output_tokens" >>= intOf
  VerdictFields.create {
    candidateId := strOf candidateId
    passId := strOf passId
    action
    speaker := strOf speaker
    confidence
    evidenceIds := evidenceIds.map strOf
    rationale := strOf rationale
    model := strOf model
    responseId := strOf responseId
    inputTokens, outputTokens }

def resolutionFromDict (payload : Json) : Except Raised HumanSpeakerReviewResolution := do
  let candidateId ← itemOf payload "candidate_id"
  let speaker ← itemOf payload "speaker"
  let reviewer ← itemOf payload "reviewer"
  let reviewedText ← itemOf payload "reviewed_at"
  let reviewedAt ← match Host.fromisoformat (strOf reviewedText) with
    | some t => pure t
    | none => throw (valueError "Invalid isoformat string")
  let rationale ← itemOf payload "rationale"
  ResolutionFields.create {
    candidateId := strOf candidateId
    speaker := strOf speaker
    reviewer := strOf reviewer
    reviewedAt
    rationale := strOf rationale }

/-- `read(payload) if isinstance(payload, dict) else None` -/
def objectOr {α : Type} (read : Json → Except Raised α) (payload : Json) :
    Except Raised (Option α) :=
  if isObject payload = true then some <$> read payload else .ok none

def decisionFromDict (payload : Json) : Except Raised SpeakerReviewDecision := do
  let primaryPayload ← match ← getOf payload "primary_verdicts" with
    | .arr items => pure items
    | _ => throw ⟨.typeError, "Decision primary_verdicts must be a list."⟩
  let adjudicationPayload ← getOf payload "adjudication_verdict"
  let finalPayload ← getOf payload "final_review_verdict"
  let humanPayload ← getOf payload "human_review_resolution"
  let candidateId ← itemOf payload "candidate_id"
  let dispositionText ← itemOf payload "disposition"
  let disposition ← enumOf SpeakerReviewDisposition.members SpeakerReviewDisposition.value
    (.str (strOf dispositionText))
  let speaker ← match ← getOf payload "speaker" with
    | .null => pure none
    | _ => (some ∘ strOf) <$> itemOf payload "speaker"
  let reason ← itemOf payload "reason"
  let primaryVerdicts ← (primaryPayload.filter isObject).mapM verdictFromDict
  let adjudicationVerdict ← objectOr verdictFromDict adjudicationPayload
  let finalReviewVerdict ← objectOr verdictFromDict finalPayload
  let humanReviewResolution ← objectOr resolutionFromDict humanPayload
  return {
    candidateId := strOf candidateId
    disposition, speaker
    reason := strOf reason
    primaryVerdicts, adjudicationVerdict, finalReviewVerdict, humanReviewResolution }

end Readers

end Records

namespace Sample

/-! A host whose floats are the whole numbers up to 2^53 and that knows one instant. -/

def wholeFloat? (n : Int) : Option (@HostFloat wholeFloats) :=
  if small : n.natAbs ≤ 2 ^ 53 then some (@HostFloat.mk wholeFloats (.finite n) ⟨rfl, small⟩)
  else none

/-- The texts of midnight on the first of January 2025. -/
def midnight : String := "2025-01-01T00:00:00+00:00"

def midnightZulu : String := "2025-01-01T00:00:00Z"

scoped instance sampleHost : Host where
  toFloats := wholeFloats
  upper s := String.ofList (s.toList.map Char.toUpper)
  upper_ascii _ _ := rfl
  intOfText s := readDigits s.toList
  floatOfInt := wholeFloat?
  floatOfText s := (readDigits s.toList).bind wholeFloat?
  reprOfContainer _ := "[]"
  Instant := Unit
  isAware _ := true
  isoformat _ := midnight
  fromisoformat s := if s = midnight ∨ s = midnightZulu then some () else none
  fromisoformat_isoformat _ := if_pos (Or.inl rfl)

def sampleEvidence : SpeakerReviewEvidence := ⟨"subtitle-line-3", "subtitle", "ALICE", "Hello.", none⟩

def sampleCandidate (candidateId : String) : SpeakerReviewCandidate where
  candidateId := candidateId
  sourceFilename := "S01E01.script-aligned.srt"
  sourceSha256 := "0123456789"
  seasonNumber := 1
  episodeNumber := 1
  cueNumber := 1
  lineNumber := 3
  proposedSpeaker := "ALICE"
  dialogueText := "Hello."
  allowedSpeakers := ["ALICE", "BOB"]
  evidence := [sampleEvidence]
  proposed_allowed := by decide
  has_evidence := by decide

end Sample

end Cinegraph.SpeakerReview
