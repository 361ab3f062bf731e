import Cinegraph.Domain.Episode
import Cinegraph.Library.Json

/-!
Results of the series agent: citations with their graph metadata, and answers
with their citations and tools. Compatibility normalization of Unicode text is
the one primitive left open here. A score given as an integer is the float
equal to it.
-/

namespace Cinegraph

open Library

/-- `unicodedata.normalize("NFKC", ·)`. -/
class Normalization where
  nfkc : String → String

/-- Compatibility normalization leaves ASCII text alone. -/
@[reducible] def Normalization.ascii : Normalization := ⟨fun text => text⟩

section GraphNormalization

variable [Normalization]

def normalizeGraphDisplay (value : String) : Option String :=
  let words := (Normalization.nfkc value).toList.splitOnP Text.isSpace |>.filter (· ≠ [])
  if words = [] then none else some (String.ofList ([' '].intercalate words))

def normalizeGraphIdentity (value : String) : Option String :=
  (normalizeGraphDisplay value).map Text.casefold

def isLower (c : Char) : Bool := 'a' ≤ c && c ≤ 'z'

def isDigit (c : Char) : Bool := '0' ≤ c && c ≤ '9'

/-- `[a-z][a-z0-9]*(?:_[a-z0-9]+)*` on the whole text. -/
def isSnakeCase (text : String) : Bool :=
  match text.toList.splitOn '_' with
  | (first :: rest) :: groups =>
      isLower first && rest.all (fun c => isLower c || isDigit c) &&
        groups.all (fun group => !group.isEmpty && group.all (fun c => isLower c || isDigit c))
  | _ => false

def normalizeGraphPredicate (value : String) : Option String := do
  let identity ← normalizeGraphIdentity value
  let normalized := String.ofList (identity.toList.map (fun c => if c = ' ' then '_' else c))
  if isSnakeCase normalized then some normalized else none

end GraphNormalization

inductive GraphEntityKind where
  | character | person | location | organization | object | event | concept
  deriving DecidableEq, Repr

def GraphEntityKind.value : GraphEntityKind → String
  | .character => "character"
  | .person => "person"
  | .location => "location"
  | .organization => "organization"
  | .object => "object"
  | .event => "event"
  | .concept => "concept"

inductive GraphClaimPolarity where
  | asserted | negated | uncertain
  deriving DecidableEq, Repr

def GraphClaimPolarity.value : GraphClaimPolarity → String
  | .asserted => "asserted"
  | .negated => "negated"
  | .uncertain => "uncertain"

namespace IdentifierGenerator

/-- `NAMESPACE_URL`. -/
def NAMESPACE : UUID := ⟨0x6ba7b8119dad11d180b400c04fd430c8⟩

variable [Normalization]

def graphEntityId (seriesId : UUID) (kind : GraphEntityKind) (normalizedKey : String) :
    Option UUID := do
  let key ← normalizeGraphIdentity normalizedKey
  some (NAMESPACE.uuid5
    ("cinegraph:graph-entity:" ++ seriesId.str ++ ":" ++ kind.value ++ ":" ++ key))

def graphClaimId (revision : String) (seriesId subjectId : UUID) (predicate : String)
    (objectId : UUID) (polarity : GraphClaimPolarity) : Option UUID := do
  if revision = "" ∨ Text.strip revision ≠ revision then none
  let normalized ← normalizeGraphPredicate predicate
  some (NAMESPACE.uuid5
    ("cinegraph:graph-claim:" ++ revision ++ ":" ++ seriesId.str ++ ":" ++ subjectId.str ++ ":" ++
      normalized ++ ":" ++ objectId.str ++ ":" ++ polarity.value))

def graphEvidenceId (claimId sourceVersionId chunkId : UUID) : UUID :=
  NAMESPACE.uuid5
    ("cinegraph:graph-evidence:" ++ claimId.str ++ ":" ++ sourceVersionId.str ++ ":" ++ chunkId.str)

end IdentifierGenerator

def GRAPH_CLAIM_EXTRACTION_REVISION : String := "graph-claim-v1"
def MAX_GRAPH_NAME_LENGTH : Nat := 256
def MAX_GRAPH_PREDICATE_LENGTH : Nat := 96
def MAX_SERIES_AGENT_ANSWER_LENGTH : Nat := 12000
def MAX_SERIES_AGENT_CITATIONS : Nat := 32

def SERIES_AGENT_TOOL_NAMES : List String :=
  ["grounded_transcript_answer", "authorized_graph_relationships"]

inductive CitationKind where
  | transcript
  | graph
  deriving DecidableEq, Repr

def CitationKind.value : CitationKind → String
  | .transcript => "transcript"
  | .graph => "graph"

namespace SeriesAgentErrorMessages

def RESULT_REFUSAL : String := "Safe refusals cannot contain answers or citations."
def RESULT_GROUNDED_REQUIRED : String :=
  "Grounded answers require a trimmed answer and citation."
def RESULT_CITATIONS_INVALID : String := "Series result citations and tools must be valid."
def RESULT_DUPLICATE_CITATIONS : String := "Series citations must be unique."

end SeriesAgentErrorMessages

structure CitationFields where
  kind : CitationKind
  episode : EpisodeRef
  startMs : Int
  endMs : Int
  segmentId : Option UUID := none
  claimId : Option UUID := none
  evidenceId : Option UUID := none
  sourceVersionId : Option UUID := none
  transcriptChunkId : Option UUID := none
  subjectEntityId : Option UUID := none
  subjectKind : Option GraphEntityKind := none
  subjectDisplayName : Option String := none
  predicate : Option String := none
  objectEntityId : Option UUID := none
  objectKind : Option GraphEntityKind := none
  objectDisplayName : Option String := none
  polarity : Option GraphClaimPolarity := none
  hopDistance : Option Int := none
  score : Option FloatValue := none
  deriving DecidableEq

namespace CitationFields

/-- Which of the graph metadata fields are present. -/
def graphMetadata (c : CitationFields) : List Bool :=
  [c.sourceVersionId.isSome, c.transcriptChunkId.isSome, c.subjectEntityId.isSome,
    c.subjectKind.isSome, c.subjectDisplayName.isSome, c.predicate.isSome,
    c.objectEntityId.isSome, c.objectKind.isSome, c.objectDisplayName.isSome,
    c.polarity.isSome, c.hopDistance.isSome, c.score.isSome]

def displayNameValid (name : String) : Bool :=
  Text.strip name = name && name ≠ "" && name.length ≤ MAX_GRAPH_NAME_LENGTH

def scoreValid : FloatValue → Bool
  | .finite value => 0 ≤ value && value ≤ 1
  | _ => false

variable [Normalization]

def graphMetadataValid (c : CitationFields) : Bool :=
  (do
    let sourceVersionId ← c.sourceVersionId
    let transcriptChunkId ← c.transcriptChunkId
    let claimId ← c.claimId
    let evidenceId ← c.evidenceId
    let subjectEntityId ← c.subjectEntityId
    let subjectKind ← c.subjectKind
    let subjectDisplayName ← c.subjectDisplayName
    let predicate ← c.predicate
    let objectEntityId ← c.objectEntityId
    let objectKind ← c.objectKind
    let objectDisplayName ← c.objectDisplayName
    let polarity ← c.polarity
    let hopDistance ← c.hopDistance
    let score ← c.score
    let entityId (kind : GraphEntityKind) (name : String) : Option UUID := do
      IdentifierGenerator.graphEntityId c.episode.seriesId kind (← normalizeGraphIdentity name)
    some (displayNameValid subjectDisplayName && displayNameValid objectDisplayName &&
      normalizeGraphPredicate predicate = some predicate &&
      predicate.length ≤ MAX_GRAPH_PREDICATE_LENGTH && 1 ≤ hopDistance && scoreValid score &&
      entityId subjectKind subjectDisplayName = some subjectEntityId &&
      entityId objectKind objectDisplayName = some objectEntityId &&
      IdentifierGenerator.graphClaimId GRAPH_CLAIM_EXTRACTION_REVISION c.episode.seriesId
        subjectEntityId predicate objectEntityId polarity = some claimId &&
      IdentifierGenerator.graphEvidenceId claimId sourceVersionId transcriptChunkId =
        evidenceId)).getD false

def check (c : CitationFields) : Except Raised Unit :=
  let invalid := .error (valueError SeriesAgentErrorMessages.RESULT_CITATIONS_INVALID)
  if c.startMs < 0 ∨ c.endMs ≤ c.startMs then invalid
  else if c.kind = .transcript ∧ (c.segmentId.isNone ∨ c.claimId.isSome ∨ c.evidenceId.isSome ∨
      c.graphMetadata.any id) then invalid
  else if c.kind = .graph ∧ (c.claimId.isNone ∨ c.evidenceId.isNone ∨ c.segmentId.isSome) then
    invalid
  else if c.kind = .graph ∧ c.graphMetadata.any id ∧ ¬c.graphMetadataValid then invalid
  else .ok ()

end CitationFields

structure SeriesAgentCitation [Normalization] extends CitationFields where
  valid : toCitationFields.check = .ok ()
  deriving DecidableEq

def SeriesAgentCitation.make [Normalization] (fields : CitationFields) :
    Except Raised SeriesAgentCitation :=
  construct CitationFields.check SeriesAgentCitation.mk fields

@[simp] theorem SeriesAgentCitation.make_fields [Normalization] (c : SeriesAgentCitation) :
    make c.toCitationFields = .ok c := construct_of_check c.valid

/-- What tells two citations of one result apart. -/
def SeriesAgentCitation.identity [Normalization] (c : SeriesAgentCitation) :
    CitationKind × Option UUID × Option UUID × Option UUID :=
  (c.kind, c.segmentId, c.claimId, c.evidenceId)

structure ResultFields [Normalization] where
  answer : Option String
  isSafeRefusal : Bool
  citations : List SeriesAgentCitation := []
  usedTools : List String := []
  deriving DecidableEq

/-- An answer text that a grounded result may carry. -/
def answerValid : Option String → Bool
  | none => false
  | some answer => Text.strip answer ≠ "" && Text.strip answer = answer &&
      answer.length ≤ MAX_SERIES_AGENT_ANSWER_LENGTH

def ResultFields.check [Normalization] (r : ResultFields) : Except Raised Unit :=
  if r.isSafeRefusal ∧ (r.answer.isSome ∨ r.citations ≠ []) then
    .error (valueError SeriesAgentErrorMessages.RESULT_REFUSAL)
  else if ¬r.isSafeRefusal ∧ (¬answerValid r.answer ∨ r.citations = []) then
    .error (valueError SeriesAgentErrorMessages.RESULT_GROUNDED_REQUIRED)
  else if ∃ tool ∈ r.usedTools, Text.strip tool = "" ∨ Text.strip tool ≠ tool then
    .error (valueError SeriesAgentErrorMessages.RESULT_CITATIONS_INVALID)
  else if MAX_SERIES_AGENT_CITATIONS < r.citations.length ∨ ¬r.usedTools.Nodup ∨
      ¬r.usedTools ⊆ SERIES_AGENT_TOOL_NAMES then
    .error (valueError SeriesAgentErrorMessages.RESULT_CITATIONS_INVALID)
  else if ¬(r.citations.map SeriesAgentCitation.identity).Nodup then
    .error (valueError SeriesAgentErrorMessages.RESULT_DUPLICATE_CITATIONS)
  else .ok ()

structure SeriesAgentResult [Normalization] extends ResultFields where
  valid : toResultFields.check = .ok ()
  deriving DecidableEq

def SeriesAgentResult.make [Normalization] (fields : ResultFields) :
    Except Raised SeriesAgentResult :=
  construct ResultFields.check SeriesAgentResult.mk fields

@[simp] theorem SeriesAgentResult.make_fields [Normalization] (r : SeriesAgentResult) :
    make r.toResultFields = .ok r := construct_of_check r.valid

section Facts

variable [Normalization]

/-- An accepted answer is a grounded text, an accepted refusal has none. -/
theorem SeriesAgentResult.answer_isSome (r : SeriesAgentResult) :
    r.answer.isSome = !r.isSafeRefusal := by
  have h := r.valid
  unfold ResultFields.check at h
  cases hr : r.isSafeRefusal with
  | true =>
      simp only [hr, true_and] at h
      split at h
      · cases h
      · simp_all
  | false =>
      simp only [hr, Bool.false_eq_true, false_and, if_false, not_false_eq_true, true_and] at h
      split at h
      · cases h
      · cases ha : r.answer <;> simp_all [answerValid]

theorem SeriesAgentResult.usedTools_subset (r : SeriesAgentResult) :
    r.usedTools ⊆ SERIES_AGENT_TOOL_NAMES := by
  have h := r.valid
  unfold ResultFields.check at h
  split_ifs at h with _ _ _ bounds
  simp only [not_or, not_not] at bounds
  exact bounds.2.2

theorem SeriesAgentResult.distinct_citations (r : SeriesAgentResult) :
    (r.citations.map SeriesAgentCitation.identity).Nodup := by
  have h := r.valid
  unfold ResultFields.check at h
  split_ifs at h with _ _ _ _ distinct
  exact distinct

end Facts

end Cinegraph
