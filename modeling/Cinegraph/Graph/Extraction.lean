import Cinegraph.Graph.Store
import Cinegraph.Library.Merging
import Cinegraph.Transcripts.Chunking
import Mathlib.Data.String.Basic

/-!
The extraction of graph claims from the chunks of a source version: what the extractor says of each
batch is checked, merged by entity, claim and evidence, and handed to the store in one replacement.
-/

namespace Cinegraph

open Library

namespace GraphErrorMessages

def IDENTIFIER_FIELDS_INVALID : String := "Graph identifier fields must be valid."

end GraphErrorMessages

open GraphErrorMessages

def MAX_GRAPH_EXTRACTION_CHUNKS : Nat := 256
def MAX_GRAPH_CANDIDATES : Nat := 512
def GRAPH_EXTRACTION_BATCH_SIZE : Nat := 32

structure GraphClaimExtractionConfiguration where
  revision : String := GRAPH_CLAIM_EXTRACTION_REVISION
  maxChunks : Nat := MAX_GRAPH_EXTRACTION_CHUNKS
  maxCandidates : Nat := MAX_GRAPH_CANDIDATES
  maxAliases : Nat := MAX_GRAPH_ALIASES
  maxNameLength : Nat := MAX_GRAPH_NAME_LENGTH
  maxPredicateLength : Nat := MAX_GRAPH_PREDICATE_LENGTH
  batchSize : Nat := GRAPH_EXTRACTION_BATCH_SIZE
  current : revision = GRAPH_CLAIM_EXTRACTION_REVISION
  positive : 1 ≤ maxChunks ∧ 1 ≤ maxCandidates ∧ 1 ≤ maxAliases ∧ 1 ≤ maxNameLength ∧
    1 ≤ maxPredicateLength ∧ 1 ≤ batchSize
  bounded : maxChunks ≤ MAX_GRAPH_EXTRACTION_CHUNKS ∧ maxCandidates ≤ MAX_GRAPH_CANDIDATES ∧
    maxAliases ≤ MAX_GRAPH_ALIASES ∧ maxNameLength ≤ MAX_GRAPH_NAME_LENGTH ∧
    maxPredicateLength ≤ MAX_GRAPH_PREDICATE_LENGTH ∧ batchSize ≤ GRAPH_EXTRACTION_BATCH_SIZE ∧
    batchSize ≤ maxChunks

def DEFAULT_GRAPH_CLAIM_EXTRACTION_CONFIGURATION : GraphClaimExtractionConfiguration where
  current := rfl
  positive := by decide
  bounded := by decide

structure ExtractedEntityReference where
  kind : GraphEntityKind
  name : String
  aliases : List String := []
  name_trimmed : Trimmed name

instance : DecidableEq ExtractedEntityReference := fun a b =>
  decidable_of_iff (a.kind = b.kind ∧ a.name = b.name ∧ a.aliases = b.aliases) (by
    cases a
    cases b
    simp)

structure ExtractedGraphClaim where
  subject : ExtractedEntityReference
  predicate : String
  object : ExtractedEntityReference
  polarity : GraphClaimPolarity
  confidence : FloatValue
  evidenceChunkIds : List UUID
  predicate_filled : Text.strip predicate ≠ ""
  probable : isProbability confidence = true
  evidence_ids : evidenceChunkIds ≠ [] ∧ evidenceChunkIds.Nodup
  deriving DecidableEq

structure ExtractAndReplaceGraphClaimsCommand where
  sourceVersion : SourceVersion
  chunks : List TranscriptRetrievalChunk

structure ExtractAndReplaceGraphClaimsResult where
  inputChunkCount : Nat
  candidateCount : Nat
  entityCount : Nat
  claimCount : Nat
  evidenceCount : Nat
  deriving DecidableEq

variable [Normalization]

/-- What the loop over the candidates fills. -/
structure GraphState where
  entitiesByKey : Dict (GraphEntityKind × String) GraphEntity := .empty
  aliases : Dict (GraphEntityKind × String) (List String) := .empty
  claimMap : Dict (UUID × String × UUID × GraphClaimPolarity) GraphClaim := .empty
  evidenceMap : Dict UUID GraphClaimEvidence := .empty

namespace ExtractAndReplaceGraphClaimsService

/-- `normalize_graph_predicate`, with the two ways in which it raises. -/
def requirePredicate (text : String) : Except Raised String := do
  let _ ← requireIdentity text
  orRaise (normalizeGraphPredicate text) (valueError CLAIM_PREDICATE_INVALID)

/-- The values sorted by their normal form and then by `rank`, the first of each normal form. -/
def spellings {β : Type} [LinearOrder β] (rank : String → β) (values : List String) :
    Except Raised (List String) := do
  let keyed ← values.mapM fun value => do
    let key ← requireIdentity value
    return (key, value)
  let sorted := sortedBy (fun item : String × String => toLex (item.1, rank item.2)) keyed
  return (firstOfEach Prod.fst [] sorted).map Prod.snd

variable (configuration : GraphClaimExtractionConfiguration)

/-- `_entity` -/
def entity (reference : ExtractedEntityReference) (seriesId : UUID) :
    Except Raised GraphEntity := do
  reject (Text.strip reference.name = "") ENTITY_FIELDS_INVALID .invalidModel
  reject (configuration.maxAliases < reference.aliases.length) ENTITY_ALIASES_INVALID .invalidModel
  let displayName ← orRaise (normalizeGraphDisplay reference.name)
    ⟨.invalidModel, ENTITY_NAME_INVALID⟩
  let displayAliases ← reference.aliases.mapM fun alias_ =>
    orRaise (normalizeGraphDisplay alias_) ⟨.invalidModel, ENTITY_NAME_INVALID⟩
  reject (configuration.maxNameLength < displayName.length ∨
    ∃ alias_ ∈ displayAliases, configuration.maxNameLength < alias_.length)
    ENTITY_NAME_INVALID .invalidModel
  let normalized ← requireIdentity displayName
  let entityId ← orRaise (IdentifierGenerator.graphEntityId seriesId reference.kind normalized)
    (valueError NORMALIZATION_INVALID)
  let aliases ← spellings (fun value => value) (displayName :: displayAliases).dedup
  reject (configuration.maxAliases < aliases.length) ENTITY_ALIASES_INVALID .invalidModel
  GraphEntityFields.create
    ⟨entityId, seriesId, reference.kind, normalized, displayName, aliases⟩

/-- `_validate_candidate` -/
def validateCandidate (candidate : ExtractedGraphClaim) (chunkIds : List UUID) :
    Except Raised Unit :=
  reject (candidate.evidenceChunkIds = [] ∨ ¬candidate.evidenceChunkIds.Nodup ∨
    ∃ chunkId ∈ candidate.evidenceChunkIds, chunkId ∉ chunkIds) UNKNOWN_EVIDENCE .invalidModel

/-- A turn of `_validate_chunks`, with the chunks and the series that were seen. -/
def validateChunk (sourceId : UUID) (known : List UUID × Option UUID)
    (value : TranscriptRetrievalChunk) : Except Raised (List UUID × Option UUID) := do
  reject (value.sourceVersionId ≠ sourceId ∨ value.rightsStatus ≠ .allowed ∨
    value.indexRevision ≠ TRANSCRIPT_INDEX_REVISION ∨ value.chunkId ∈ known.1)
    CHUNKS_INVALID .invalidModel
  reject (∃ series ∈ known.2, value.episode.seriesId ≠ series) CHUNKS_INVALID .invalidModel
  return (value.chunkId :: known.1, some (known.2.getD value.episode.seriesId))

/-- `_validate_chunks` -/
def validateChunks (chunks : List TranscriptRetrievalChunk) (sourceId : UUID) :
    Except Raised Unit := do
  let _ ← chunks.foldlM (validateChunk sourceId) ([], none)

/-- The key of an entity within its series. -/
def keyOf (item : GraphEntity) : GraphEntityKind × String := (item.kind, item.normalizedKey)

/-- The entity of a reference goes in, or lends its display name to the one that is there. -/
def addReference (state : GraphState) (item : GraphEntity) (reference : ExtractedEntityReference) :
    Except Raised GraphState := do
  let key := keyOf item
  let spelled := (state.aliases.get? key).getD [] ∪ (reference.name :: reference.aliases)
  let state := { state with aliases := state.aliases.set key spelled }
  match state.entitiesByKey.get? key with
  | none => return { state with entitiesByKey := state.entitiesByKey.set key item }
  | some existing =>
      let named ← requireIdentity item.displayName
      let present ← requireIdentity existing.displayName
      if toLex (named, item.displayName) < toLex (present, existing.displayName) then
        let renamed ← GraphEntityFields.create
          { existing.toGraphEntityFields with displayName := item.displayName }
        return { state with entitiesByKey := state.entitiesByKey.set key renamed }
      else return state

/-- The claim of a candidate between two entities. -/
def claimOf (candidate : ExtractedGraphClaim) (seriesId : UUID) (subject object : GraphEntity) :
    Except Raised GraphClaim := do
  let predicate ← requirePredicate candidate.predicate
  reject (configuration.maxPredicateLength < predicate.length) CLAIM_PREDICATE_INVALID
    .invalidModel
  let claimId ← orRaise (IdentifierGenerator.graphClaimId configuration.revision seriesId
    subject.entityId predicate object.entityId candidate.polarity)
    (valueError IDENTIFIER_FIELDS_INVALID)
  GraphClaimFields.create ⟨claimId, seriesId, subject.entityId, predicate, object.entityId,
    candidate.polarity, configuration.revision⟩

def claimKey (claim : GraphClaim) : UUID × String × UUID × GraphClaimPolarity :=
  (claim.subjectEntityId, claim.predicate, claim.objectEntityId, claim.polarity)

/-- The evidence of a claim in a chunk. -/
def evidenceOf (source : SourceVersion) (claim : GraphClaim) (confidence : FloatValue)
    (chunkId : UUID) (chunk : TranscriptRetrievalChunk) : Except Raised GraphClaimEvidence :=
  GraphEvidenceFields.extract {
    evidenceId := IdentifierGenerator.graphEvidenceId claim.claimId source.sourceVersionId chunkId
    claimId := claim.claimId
    sourceVersionId := source.sourceVersionId
    transcriptChunkId := chunkId
    episode := chunk.episode
    startMs := chunk.startMs
    endMs := chunk.endMs
    confidence
    transcriptIndexRevision := chunk.indexRevision
    extractionRevision := configuration.revision
    rightsStatus := source.rightsStatus
    sourceStatus := source.status
    reviewStatus := source.reviewStatus }

/-- The evidence in a chunk goes in unless there is some at least as confident. -/
def addEvidence (source : SourceVersion) (chunksById : Dict UUID TranscriptRetrievalChunk)
    (claim : GraphClaim) (confidence : FloatValue) (state : GraphState) (chunkId : UUID) :
    Except Raised GraphState := do
  let chunk ← orRaise (chunksById.get? chunkId) ⟨.keyError, chunkId.str⟩
  let evidenceId :=
    IdentifierGenerator.graphEvidenceId claim.claimId source.sourceVersionId chunkId
  match state.evidenceMap.get? evidenceId with
  | none =>
      let item ← evidenceOf configuration source claim confidence chunkId chunk
      return { state with evidenceMap := state.evidenceMap.set evidenceId item }
  | some old =>
      if old.confidence.toRat < confidence.toRat then
        let item ← evidenceOf configuration source claim confidence chunkId chunk
        return { state with evidenceMap := state.evidenceMap.set evidenceId item }
      else return state

/-- The loop over the candidates. -/
def addCandidate (source : SourceVersion) (seriesId : Option UUID)
    (chunksById : Dict UUID TranscriptRetrievalChunk) (state : GraphState)
    (candidate : ExtractedGraphClaim) : Except Raised GraphState := do
  validateCandidate candidate chunksById.keys
  let seriesId ← orRaise seriesId ⟨.invalidModel, CHUNKS_INVALID⟩
  let subject ← entity configuration candidate.subject seriesId
  let object ← entity configuration candidate.object seriesId
  let state ← addReference state subject candidate.subject
  let state ← addReference state object candidate.object
  let made ← claimOf configuration candidate seriesId subject object
  let claim := (state.claimMap.get? (claimKey made)).getD made
  let state := { state with claimMap := state.claimMap.set (claimKey made) claim }
  candidate.evidenceChunkIds.foldlM
    (addEvidence configuration source chunksById claim candidate.confidence) state

/-- An entity with the spellings that were collected for it. -/
def finalEntity (item : GraphEntity) (collected : List String) : Except Raised GraphEntity := do
  let aliases ← spellings (fun value => toLex (decide (value ≠ item.displayName), value))
    (item.displayName :: collected.map Text.strip)
  reject (configuration.maxAliases < aliases.length) ENTITY_ALIASES_INVALID .invalidModel
  GraphEntityFields.create { item.toGraphEntityFields with aliases }

/-- The batch of a filled state. -/
def finish (source : SourceVersion) (state : GraphState) : Except Raised GraphReplacement := do
  let entities ← state.entitiesByKey.entries.mapM fun (key, item) =>
    finalEntity configuration item ((state.aliases.get? key).getD [])
  return {
    newSourceVersionId := source.sourceVersionId
    retiredSourceVersionId := source.parentSourceVersionId
    entities := sortedBy (fun item => item.entityId.str) entities
    claims := sortedBy (fun claim => claim.claimId.str) state.claimMap.values
    evidence := sortedBy (fun item => item.evidenceId.str) state.evidenceMap.values }

/-- `chunks[offset : offset + batch_size]` for each offset. -/
def batches (chunks : List TranscriptRetrievalChunk) : List (List TranscriptRetrievalChunk) :=
  (List.range ((chunks.length + configuration.batchSize - 1) / configuration.batchSize)).map
    fun i => (chunks.drop (i * configuration.batchSize)).take configuration.batchSize

def chunkIds (chunks : List TranscriptRetrievalChunk) : List UUID :=
  chunks.map fun chunk => chunk.chunkId

variable (extract : List TranscriptRetrievalChunk → List ExtractedGraphClaim)

/-- The candidates of the batches, in their order. -/
def collect (chunks : List TranscriptRetrievalChunk) : Except Raised (List ExtractedGraphClaim) :=
  (batches configuration chunks).foldlM (fun candidates batch => do
    (extract batch).forM fun candidate => validateCandidate candidate (chunkIds batch)
    reject (configuration.maxCandidates < (candidates ++ extract batch).length)
      BATCH_OUTPUT_INVALID .invalidModel
    return candidates ++ extract batch) []

/-- What is checked before the extractor is asked. -/
def checkCommand (command : ExtractAndReplaceGraphClaimsCommand) : Except Raised Unit := do
  let source := command.sourceVersion
  reject (source.rightsStatus ≠ .allowed ∨ source.status ≠ .active ∨
    isSourceVersionApproved source.reviewStatus = false) SOURCE_NOT_GOVERNED .invalidModel
  reject (source.parentSourceVersionId = some source.sourceVersionId) REPLACEMENT_INVALID
    .invalidModel
  reject (configuration.maxChunks < command.chunks.length) CHUNK_LIMIT_EXCEEDED .invalidModel
  validateChunks command.chunks source.sourceVersionId

def seriesOf (chunks : List TranscriptRetrievalChunk) : Option UUID :=
  chunks.head?.map fun chunk => chunk.episode.seriesId

/-- `{chunk.chunk_id: chunk for chunk in chunks}` -/
def indexChunks (chunks : List TranscriptRetrievalChunk) : Dict UUID TranscriptRetrievalChunk :=
  Dict.ofList (chunks.map fun chunk => (chunk.chunkId, chunk))

/-- The batch of collected candidates. -/
def merge (command : ExtractAndReplaceGraphClaimsCommand) (candidates : List ExtractedGraphClaim) :
    Except Raised GraphReplacement := do
  let state ← candidates.foldlM (addCandidate configuration command.sourceVersion
    (seriesOf command.chunks) (indexChunks command.chunks)) {}
  finish configuration command.sourceVersion state

/-- The batch that is handed to the store, with the candidates it is made of. -/
def batchOf (command : ExtractAndReplaceGraphClaimsCommand) :
    Except Raised (List ExtractedGraphClaim × GraphReplacement) := do
  checkCommand configuration command
  let candidates ← collect configuration extract command.chunks
  let batch ← merge configuration command candidates
  return (candidates, batch)

def execute (replaceSourceVersion : GraphReplacement → Except Raised Unit)
    (command : ExtractAndReplaceGraphClaimsCommand) :
    Except Raised ExtractAndReplaceGraphClaimsResult := do
  let (candidates, batch) ← batchOf configuration extract command
  replaceSourceVersion batch
  return ⟨command.chunks.length, candidates.length, batch.entities.length, batch.claims.length,
    batch.evidence.length⟩

end ExtractAndReplaceGraphClaimsService

end Cinegraph
