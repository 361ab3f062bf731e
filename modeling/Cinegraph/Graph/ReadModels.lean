import Cinegraph.AgentJobs.Result
import Cinegraph.Library.Binary64
import Cinegraph.Retrieval.VectorIndex

/-!
What a reader of the claim graph answers: claims between two entities with the
evidence that supports them. Each value checks itself when it is built.
-/

namespace Cinegraph

open Library

namespace GraphRagErrorMessages

def QUERY_INVALID : String := "GraphRAG query is invalid."
def QUERY_SEEDS_INVALID : String := "GraphRAG seed terms must be a bounded immutable tuple."
def QUERY_PREDICATES_INVALID : String := "GraphRAG predicates must be normalized and unique."
def QUERY_EPISODES_INVALID : String := "GraphRAG candidate episodes must be bounded and unique."
def QUERY_LIMIT_INVALID : String := "GraphRAG query limits are invalid."
def RESULT_INVALID : String := "GraphRAG reader returned malformed results."
def RESULT_SCOPE_INVALID : String :=
  "GraphRAG reader returned evidence outside the trusted scope."
def RESULT_LIMIT_INVALID : String := "GraphRAG reader returned too many results."
def RESULT_RELATIONSHIP_INVALID : String := "GraphRAG result relationships are invalid."
def READER_BATCH_INVALID : String := "GraphRAG reader request is invalid."

end GraphRagErrorMessages

open GraphRagErrorMessages

def MAX_GRAPH_ALIASES : Nat := 32
def MAX_GRAPH_RAG_SEEDS : Nat := 8
def MAX_GRAPH_RAG_PREDICATES : Nat := 8
def MAX_GRAPH_RAG_HOPS : Nat := 2
def MAX_GRAPH_RAG_CLAIMS : Nat := 50
def MAX_GRAPH_RAG_EVIDENCE_PER_CLAIM : Nat := 10
def MAX_GRAPH_RAG_FRONTIER : Nat := 100
def MAX_GRAPH_RAG_CANDIDATE_EPISODES : Nat := 256

/-- The arguments of `GraphRagReadEntity`. -/
structure GraphRagReadEntityFields where
  entityId : UUID
  seriesId : UUID
  kind : GraphEntityKind
  normalizedKey : String
  displayName : String
  aliases : List String
  deriving DecidableEq

/-- The fields of evidence as it is extracted, stored and read. -/
structure GraphEvidenceFields where
  evidenceId : UUID
  claimId : UUID
  sourceVersionId : UUID
  transcriptChunkId : UUID
  episode : EpisodeRef
  startMs : Int
  endMs : Int
  confidence : FloatValue
  transcriptIndexRevision : String
  extractionRevision : String
  rightsStatus : RightsStatus
  sourceStatus : SourceVersionStatus
  reviewStatus : SourceReviewStatus
  deriving DecidableEq

/-- Evidence of a source that may be quoted, at the revisions in force. -/
def GraphEvidenceFields.Governed (e : GraphEvidenceFields) : Prop :=
  e.rightsStatus = .allowed ∧ e.sourceStatus = .active ∧
    isSourceVersionApproved e.reviewStatus = true ∧
    e.transcriptIndexRevision = TRANSCRIPT_INDEX_REVISION ∧
    e.extractionRevision = GRAPH_CLAIM_EXTRACTION_REVISION

instance (e : GraphEvidenceFields) : Decidable e.Governed :=
  inferInstanceAs (Decidable (_ ∧ _))

def GraphEvidenceFields.Valid (e : GraphEvidenceFields) : Prop :=
  0 ≤ e.startMs ∧ e.startMs < e.endMs ∧ isProbability e.confidence = true ∧ e.Governed ∧
    e.evidenceId =
      IdentifierGenerator.graphEvidenceId e.claimId e.sourceVersionId e.transcriptChunkId

instance (e : GraphEvidenceFields) : Decidable e.Valid :=
  inferInstanceAs (Decidable (_ ∧ _))

structure GraphRagReadEvidence extends GraphEvidenceFields where
  valid : toGraphEvidenceFields.Valid
  deriving DecidableEq

def GraphEvidenceFields.create (e : GraphEvidenceFields) :
    Except Raised GraphRagReadEvidence :=
  if valid : e.Valid then .ok ⟨e, valid⟩ else .error ⟨.invalidModel, RESULT_SCOPE_INVALID⟩

theorem GraphEvidenceFields.create_of_valid {e : GraphEvidenceFields} (valid : e.Valid) :
    e.create = .ok ⟨e, valid⟩ := dif_pos valid

/-- A text that may name an entity. -/
def IsGraphName (name : String) : Prop := Trimmed name ∧ name.length ≤ MAX_GRAPH_NAME_LENGTH

instance (name : String) : Decidable (IsGraphName name) := inferInstanceAs (Decidable (_ ∧ _))

section Names

variable [Normalization]

def GraphRagReadEntityFields.Valid (e : GraphRagReadEntityFields) : Prop :=
  e.normalizedKey.length ≤ MAX_GRAPH_NAME_LENGTH ∧ IsGraphName e.displayName ∧
    normalizeGraphIdentity e.displayName = some e.normalizedKey ∧
    e.aliases ≠ [] ∧ e.aliases.length ≤ MAX_GRAPH_ALIASES ∧
    (∀ alias_ ∈ e.aliases, IsGraphName alias_) ∧ (e.aliases.map normalizeGraphIdentity).Nodup ∧
    some e.normalizedKey ∈ e.aliases.map normalizeGraphIdentity ∧
    IdentifierGenerator.graphEntityId e.seriesId e.kind e.normalizedKey = some e.entityId

instance (e : GraphRagReadEntityFields) : Decidable e.Valid := inferInstanceAs (Decidable (_ ∧ _))

structure GraphRagReadEntity extends GraphRagReadEntityFields where
  valid : toGraphRagReadEntityFields.Valid
  deriving DecidableEq

def GraphRagReadEntityFields.create (e : GraphRagReadEntityFields) :
    Except Raised GraphRagReadEntity :=
  if valid : e.Valid then .ok ⟨e, valid⟩ else .error ⟨.invalidModel, RESULT_INVALID⟩

theorem GraphRagReadEntityFields.create_ok {e : GraphRagReadEntityFields}
    {entity : GraphRagReadEntity} (created : e.create = .ok entity) :
    entity.toGraphRagReadEntityFields = e := by
  unfold create at created
  split at created
  · cases created
    rfl
  · cases created

theorem GraphRagReadEntityFields.create_total_iff {e : GraphRagReadEntityFields} :
    (∃ entity, e.create = .ok entity) ↔ e.Valid := by
  unfold create
  split
  · rename_i valid
    exact iff_of_true ⟨_, rfl⟩ valid
  · rename_i invalid
    exact iff_of_false (fun ⟨_, made⟩ => by cases made) invalid

/-- The arguments of `GraphRagReadClaim`. -/
structure GraphRagReadClaimFields where
  claimId : UUID
  seriesId : UUID
  subject : GraphRagReadEntity
  predicate : String
  object : GraphRagReadEntity
  polarity : GraphClaimPolarity
  hopDistance : Int
  score : FloatValue
  evidence : List GraphRagReadEvidence
  deriving DecidableEq

def GraphRagReadClaimFields.Valid (c : GraphRagReadClaimFields) : Prop :=
  c.subject.seriesId = c.seriesId ∧ c.object.seriesId = c.seriesId ∧
    c.predicate.length ≤ MAX_GRAPH_PREDICATE_LENGTH ∧
    normalizeGraphPredicate c.predicate = some c.predicate ∧ 1 ≤ c.hopDistance ∧
    c.score.isFinite = true ∧ c.evidence ≠ [] ∧
    c.evidence.length ≤ MAX_GRAPH_RAG_EVIDENCE_PER_CLAIM ∧
    (c.evidence.map fun item => item.evidenceId).Nodup ∧
    (∀ item ∈ c.evidence, item.claimId = c.claimId ∧ item.evidenceId =
      IdentifierGenerator.graphEvidenceId item.claimId item.sourceVersionId
        item.transcriptChunkId) ∧
    IdentifierGenerator.graphClaimId GRAPH_CLAIM_EXTRACTION_REVISION c.seriesId c.subject.entityId
      c.predicate c.object.entityId c.polarity = some c.claimId

instance (c : GraphRagReadClaimFields) : Decidable c.Valid := inferInstanceAs (Decidable (_ ∧ _))

structure GraphRagReadClaim extends GraphRagReadClaimFields where
  valid : toGraphRagReadClaimFields.Valid
  deriving DecidableEq

def GraphRagReadClaimFields.create (c : GraphRagReadClaimFields) :
    Except Raised GraphRagReadClaim :=
  if valid : c.Valid then .ok ⟨c, valid⟩ else .error ⟨.invalidModel, RESULT_INVALID⟩

theorem GraphRagReadClaimFields.create_of_valid {c : GraphRagReadClaimFields} (valid : c.Valid) :
    c.create = .ok ⟨c, valid⟩ := dif_pos valid

theorem GraphRagReadClaimFields.create_ok {c : GraphRagReadClaimFields} {claim : GraphRagReadClaim}
    (created : c.create = .ok claim) : claim.toGraphRagReadClaimFields = c := by
  unfold create at created
  split at created
  · cases created
    rfl
  · cases created

end Names

end Cinegraph
