import Cinegraph.Graph.ReadModels

/-!
Entities, claims and evidence as an extraction produces them. The checks differ
from those of the read side, and so do their messages.
-/

namespace Cinegraph

open Library

namespace GraphErrorMessages

def ENTITY_FIELDS_INVALID : String := "Graph entity fields must be valid."
def ENTITY_NAME_INVALID : String := "Graph entity name must be trimmed and bounded."
def ENTITY_KEY_INVALID : String := "Graph entity key must be normalized and bounded."
def ENTITY_ALIASES_INVALID : String :=
  "Graph entity aliases must be non-empty, unique, and trimmed."
def CLAIM_FIELDS_INVALID : String := "Graph claim fields must be valid."
def CLAIM_PREDICATE_INVALID : String := "Graph claim predicate must be lowercase snake_case."
def CONFIDENCE_INVALID : String := "Graph confidence must be finite and between zero and one."
def EVIDENCE_FIELDS_INVALID : String := "Graph claim evidence fields must be valid."
def SOURCE_NOT_GOVERNED : String :=
  "Graph extraction source must be allowed, active, and approved."
def CHUNKS_INVALID : String :=
  "Graph extraction chunks must be current, governed, and one-series."
def CHUNK_LIMIT_EXCEEDED : String := "Graph extraction chunk limit was exceeded."
def BATCH_OUTPUT_INVALID : String := "Graph extractor output exceeded configured bounds."
def UNKNOWN_EVIDENCE : String := "Graph claim evidence must reference an input chunk."
def REPLACEMENT_INVALID : String := "Graph replacement source identifiers must be distinct."
def NORMALIZATION_INVALID : String := "Graph identity value must be a non-empty string."
def ENTITY_METADATA_CONFLICT : String :=
  "Graph entity identifier metadata conflicts with the existing row."
def CLAIM_METADATA_CONFLICT : String :=
  "Graph claim identifier metadata conflicts with the existing row."
def EVIDENCE_METADATA_CONFLICT : String :=
  "Graph evidence identifier metadata conflicts with the existing row."
def ALIAS_METADATA_CONFLICT : String :=
  "Graph alias identifier metadata conflicts with the existing row."
def STORE_BATCH_INVALID : String :=
  "Graph replacement batch must be complete and internally consistent."

end GraphErrorMessages

open GraphErrorMessages

/-- The arguments of `GraphEntity`. -/
structure GraphEntityFields where
  entityId : UUID
  seriesId : UUID
  kind : GraphEntityKind
  normalizedKey : String
  displayName : String
  aliases : List String
  deriving DecidableEq

/-- The arguments of `GraphClaim`. -/
structure GraphClaimFields where
  claimId : UUID
  seriesId : UUID
  subjectEntityId : UUID
  predicate : String
  objectEntityId : UUID
  polarity : GraphClaimPolarity
  extractionRevision : String := GRAPH_CLAIM_EXTRACTION_REVISION
  deriving DecidableEq

def GraphEvidenceFields.validate (e : GraphEvidenceFields) : Except Raised Unit := do
  reject (e.startMs < 0 ∨ e.endMs ≤ e.startMs) EVIDENCE_FIELDS_INVALID .invalidModel
  reject (isProbability e.confidence = false) CONFIDENCE_INVALID .invalidModel
  reject (e.transcriptIndexRevision ≠ TRANSCRIPT_INDEX_REVISION ∨
    e.extractionRevision ≠ GRAPH_CLAIM_EXTRACTION_REVISION) EVIDENCE_FIELDS_INVALID .invalidModel
  reject (e.rightsStatus ≠ .allowed ∨ e.sourceStatus ≠ .active ∨
    isSourceVersionApproved e.reviewStatus = false) SOURCE_NOT_GOVERNED .invalidModel

structure GraphClaimEvidence extends GraphEvidenceFields where
  valid : toGraphEvidenceFields.validate = .ok ()
  deriving DecidableEq

theorem GraphClaimEvidence.governed (item : GraphClaimEvidence) :
    0 ≤ item.startMs ∧ item.startMs < item.endMs ∧ isProbability item.confidence = true ∧
      item.Governed := by
  have valid := item.valid
  simp only [GraphEvidenceFields.validate, reject_bind_eq_ok, reject_eq_ok, not_or, not_not,
    Bool.not_eq_false, Int.not_lt, Int.not_le] at valid
  obtain ⟨⟨start, after⟩, probable, ⟨index, revision⟩, rights, status, review⟩ := valid
  exact ⟨start, after, probable, rights, status, review, index, revision⟩

def GraphEvidenceFields.extract (e : GraphEvidenceFields) : Except Raised GraphClaimEvidence :=
  match checked : e.validate with
  | .ok () => .ok ⟨e, checked⟩
  | .error error => .error error

section Names

variable [Normalization]

/-- `normalize_graph_identity`, which raises where nothing is left of the text. -/
def requireIdentity (text : String) : Except Raised String :=
  orRaise (normalizeGraphIdentity text) (valueError NORMALIZATION_INVALID)

def GraphEntityFields.validate (e : GraphEntityFields) : Except Raised Unit := do
  reject (¬IsGraphName e.displayName) ENTITY_NAME_INVALID .invalidModel
  let normalized ← orRaise (normalizeGraphIdentity e.normalizedKey)
    ⟨.invalidModel, ENTITY_KEY_INVALID⟩
  reject (normalized ≠ e.normalizedKey ∨ MAX_GRAPH_NAME_LENGTH < normalized.length)
    ENTITY_KEY_INVALID .invalidModel
  let named ← requireIdentity e.displayName
  reject (named ≠ e.normalizedKey) ENTITY_KEY_INVALID .invalidModel
  reject (e.aliases = [] ∨ MAX_GRAPH_ALIASES < e.aliases.length) ENTITY_ALIASES_INVALID
    .invalidModel
  reject (∃ alias_ ∈ e.aliases, ¬IsGraphName alias_) ENTITY_ALIASES_INVALID .invalidModel
  let aliasKeys ← e.aliases.mapM requireIdentity
  reject (¬aliasKeys.Nodup ∨ e.normalizedKey ∉ aliasKeys) ENTITY_ALIASES_INVALID .invalidModel

structure GraphEntity extends GraphEntityFields where
  valid : toGraphEntityFields.validate = .ok ()
  deriving DecidableEq

def GraphEntityFields.create (e : GraphEntityFields) : Except Raised GraphEntity :=
  match checked : e.validate with
  | .ok () => .ok ⟨e, checked⟩
  | .error error => .error error

/-- What the checks of an entity leave. -/
structure GraphEntityFields.Named (e : GraphEntityFields) : Prop where
  display : IsGraphName e.displayName
  key_length : e.normalizedKey.length ≤ MAX_GRAPH_NAME_LENGTH
  key : normalizeGraphIdentity e.displayName = some e.normalizedKey
  aliases : ∀ alias_ ∈ e.aliases, IsGraphName alias_
  key_mem : ∃ alias_ ∈ e.aliases, normalizeGraphIdentity alias_ = some e.normalizedKey

theorem GraphEntity.named (entity : GraphEntity) : entity.toGraphEntityFields.Named := by
  have valid := entity.valid
  unfold GraphEntityFields.validate at valid
  rw [reject_bind_eq_ok, bind_eq_ok] at valid
  obtain ⟨display, normalized, -, valid⟩ := valid
  rw [reject_bind_eq_ok, bind_eq_ok] at valid
  obtain ⟨own, named, identity, valid⟩ := valid
  rw [reject_bind_eq_ok, reject_bind_eq_ok, reject_bind_eq_ok, bind_eq_ok] at valid
  obtain ⟨same, -, spelled, keys, read, valid⟩ := valid
  rw [reject_eq_ok] at valid
  simp only [not_or, not_not, not_exists, not_and] at display own same spelled valid
  obtain ⟨alias_, member, spells⟩ := exists_of_mem_mapM read valid.2
  refine ⟨display, ?_, ?_, spelled, alias_, member, orRaise_eq_ok.mp spells⟩
  · rw [← own.1]
    omega
  · rw [← same]
    exact orRaise_eq_ok.mp identity

def GraphClaimFields.validate (c : GraphClaimFields) : Except Raised Unit := do
  reject (c.extractionRevision ≠ GRAPH_CLAIM_EXTRACTION_REVISION) CLAIM_FIELDS_INVALID
    .invalidModel
  let predicate ← orRaise (normalizeGraphPredicate c.predicate)
    ⟨.invalidModel, CLAIM_PREDICATE_INVALID⟩
  reject (predicate ≠ c.predicate ∨ MAX_GRAPH_PREDICATE_LENGTH < predicate.length)
    CLAIM_PREDICATE_INVALID .invalidModel

structure GraphClaim extends GraphClaimFields where
  valid : toGraphClaimFields.validate = .ok ()
  deriving DecidableEq

theorem GraphClaim.predicate_valid (claim : GraphClaim) :
    claim.extractionRevision = GRAPH_CLAIM_EXTRACTION_REVISION ∧
      normalizeGraphPredicate claim.predicate = some claim.predicate ∧
      claim.predicate.length ≤ MAX_GRAPH_PREDICATE_LENGTH := by
  have valid := claim.valid
  unfold GraphClaimFields.validate at valid
  rw [reject_bind_eq_ok, bind_eq_ok] at valid
  obtain ⟨revision, predicate, normalized, valid⟩ := valid
  rw [reject_eq_ok, not_or, not_not] at valid
  obtain ⟨rfl, bounded⟩ := valid
  exact ⟨not_not.mp revision, orRaise_eq_ok.mp normalized, Nat.le_of_not_lt bounded⟩

def GraphClaimFields.create (c : GraphClaimFields) : Except Raised GraphClaim :=
  match checked : c.validate with
  | .ok () => .ok ⟨c, checked⟩
  | .error error => .error error

/-- The id of an alias, from the entity and the normalized spelling. -/
def IdentifierGenerator.graphEntityAliasId (entityId : UUID) (alias_ : String) : Option UUID := do
  let normalized ← normalizeGraphIdentity alias_
  some (NAMESPACE.uuid5 ("cinegraph:graph-entity-alias:" ++ entityId.str ++ ":" ++ normalized))

end Names

end Cinegraph
