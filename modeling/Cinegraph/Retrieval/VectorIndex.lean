import Cinegraph.Common.Records
import Cinegraph.Library.Binary64
import Cinegraph.Library.Dict
import Cinegraph.Library.Numerals
import Cinegraph.Retrieval.Scope
import Cinegraph.Transcripts.IndexWriter

/-!
The vector index over the transcript collection. Whatever the collection
answers is decoded field by field and held against the retrieval scope.
-/

namespace Cinegraph

open Library

namespace RetrievalErrorMessages

def SEARCH_LIMIT_MUST_BE_POSITIVE : String := "Search limit must be at least one."
def SEARCH_LIMIT_EXCEEDS_CONFIGURED_MAXIMUM : String :=
  "Search limit exceeds the configured maximum."
def QDRANT_RESULT_PAYLOAD_MUST_BE_COMPLETE : String :=
  "Qdrant result payload must be present and complete."
def QDRANT_RESULT_IDS_MUST_BE_VALID : String := "Qdrant result IDs must be valid UUIDs."
def QDRANT_RESULT_MEMBER_SEGMENTS_MUST_BE_VALID : String :=
  "Qdrant result member segment IDs must be unique UUIDs."
def QDRANT_RESULT_SOURCE_STATUS_MUST_BE_ACTIVE : String :=
  "Qdrant result source status must be active."
def QDRANT_RESULT_REVIEW_STATUS_MUST_BE_APPROVED : String :=
  "Qdrant result review status must be approved."
def QDRANT_RESULT_GOVERNANCE_FIELDS_MUST_BE_VALID : String :=
  "Qdrant result language and rights status must be valid."
def QDRANT_RESULT_INDEX_REVISION_MUST_MATCH : String :=
  "Qdrant result index revision must match the current revision."
def QDRANT_RESULT_SERIES_MUST_MATCH_SCOPE : String :=
  "Qdrant result series must match the retrieval scope."
def QDRANT_RESULT_NUMERIC_FIELDS_MUST_BE_VALID : String :=
  "Qdrant result numeric fields must be valid integers."
def QDRANT_RESULT_TEXT_MUST_BE_VALID : String :=
  "Qdrant result text must be non-empty and trimmed."
def QDRANT_RESULT_SCORE_MUST_BE_FINITE : String :=
  "Qdrant result score must be finite numeric data."
def QDRANT_RESULT_MUST_MATCH_VISIBILITY_SCOPE : String :=
  "Qdrant result must match an episode and time bound in the retrieval scope."
def RETRIEVED_SEGMENT_TIMING_MUST_BE_VALID : String :=
  "Retrieved segment timing must contain valid millisecond integers."
def RETRIEVED_SEGMENT_TEXT_MUST_BE_VALID : String :=
  "Retrieved segment text must be non-empty and trimmed."
def RETRIEVED_SEGMENT_GOVERNANCE_MUST_BE_VALID : String :=
  "Retrieved segment language and rights status must be valid."
def RETRIEVED_SEGMENT_SCORE_MUST_BE_FINITE : String :=
  "Retrieved segment score must be finite numeric data."

end RetrievalErrorMessages

open RetrievalErrorMessages

namespace RetrievalScope

/-- The visibility of an episode. The ids of a scope are unique, so the first entry is the one. -/
def visibilityFor (scope : RetrievalScope) (episodeId : UUID) : Option EpisodeVisibilityScope :=
  scope.episodeScopes.find? fun item => item.episode.episodeId = episodeId

/-- `visibility is None or visibility.episode != episode or end_ms > visibility.safe_until_ms` -/
def hides (scope : RetrievalScope) (episode : EpisodeRef) (endMs : Int) : Bool :=
  match scope.visibilityFor episode.episodeId with
  | none => true
  | some visible =>
      visible.episode ≠ episode ||
        match visible.safeUntilMs with
        | none => false
        | some safeUntilMs => safeUntilMs < endMs

/-- Evidence of an episode of the scope that ends within what may be seen of it. -/
def Admits (scope : RetrievalScope) (episode : EpisodeRef) (endMs : Int) : Prop :=
  ∃ visible ∈ scope.episodeScopes, visible.episode = episode ∧
    ∀ safeUntilMs ∈ visible.safeUntilMs, endMs ≤ safeUntilMs

theorem admits_of_not_hides {scope : RetrievalScope} {episode : EpisodeRef} {endMs : Int}
    (seen : scope.hides episode endMs = false) : scope.Admits episode endMs := by
  unfold hides at seen
  split at seen
  · cases seen
  · rename_i visible found
    rw [Bool.or_eq_false_iff, decide_eq_false_iff_not, not_not] at seen
    refine ⟨visible, List.mem_of_find?_eq_some found, seen.1, ?_⟩
    intro safeUntilMs given
    rw [given] at seen
    exact Int.not_lt.mp (of_decide_eq_false seen.2)

end RetrievalScope

/-- The arguments of `RetrievedSegment`. -/
structure RetrievedSegmentFields where
  segmentId : UUID
  sourceVersionId : UUID
  episode : EpisodeRef
  startMs : Int
  endMs : Int
  text : String
  language : Language
  rightsStatus : RightsStatus
  score : FloatValue
  memberSegmentIds : List UUID
  indexRevision : String
  ordinal : Int
  deriving DecidableEq

namespace RetrievedSegmentFields

def validate (s : RetrievedSegmentFields) : Except Raised Unit := do
  reject (s.startMs < 0 ∨ s.endMs ≤ s.startMs) RETRIEVED_SEGMENT_TIMING_MUST_BE_VALID .invalidModel
  reject (¬Trimmed s.text) RETRIEVED_SEGMENT_TEXT_MUST_BE_VALID .invalidModel
  reject (s.score.isFinite = false) RETRIEVED_SEGMENT_SCORE_MUST_BE_FINITE .invalidModel
  reject (s.rightsStatus ≠ .allowed) RETRIEVED_SEGMENT_GOVERNANCE_MUST_BE_VALID .invalidModel
  reject (s.memberSegmentIds = [] ∨ ¬s.memberSegmentIds.Nodup)
    QDRANT_RESULT_MEMBER_SEGMENTS_MUST_BE_VALID .invalidModel
  reject (s.ordinal < 0 ∨ s.indexRevision ≠ TRANSCRIPT_INDEX_REVISION)
    QDRANT_RESULT_INDEX_REVISION_MUST_MATCH .invalidModel

end RetrievedSegmentFields

structure RetrievedSegment extends RetrievedSegmentFields where
  valid : toRetrievedSegmentFields.validate = .ok ()
  deriving DecidableEq

def RetrievedSegmentFields.create (s : RetrievedSegmentFields) : Except Raised RetrievedSegment :=
  match checked : s.validate with
  | .ok () => .ok ⟨s, checked⟩
  | .error e => .error e

theorem RetrievedSegmentFields.create_ok {s : RetrievedSegmentFields} {segment : RetrievedSegment}
    (created : s.create = .ok segment) : segment.toRetrievedSegmentFields = s := by
  unfold create at created
  split at created
  · cases created
    rfl
  · cases created

structure HybridRetrievalConfiguration where
  candidateOverfetchMultiplier : Int := 3
  candidateOverfetchCap : Int := 100
  maximumMemberOverlapRatio : FloatValue := Binary64.round (8 / 10)
  maxRequestedResultLimit : Int := 100
  limits : 1 ≤ candidateOverfetchMultiplier ∧ 1 ≤ candidateOverfetchCap ∧
    1 ≤ maxRequestedResultLimit ∧ maxRequestedResultLimit ≤ candidateOverfetchCap
  ratio : isProbability maximumMemberOverlapRatio = true

def DEFAULT_HYBRID_RETRIEVAL_CONFIGURATION : HybridRetrievalConfiguration where
  limits := by decide
  ratio := by decide +kernel

/-- A point as the client hands it over: anything at all may stand in its fields. -/
structure QdrantPoint where
  id : Json
  score : Option Json
  payload : Option JsonPayload

/-- The vector of a query; the collection alone looks into it. -/
structure QueryVector where
  vector : DocumentVector

/-- What the index asks of the client. -/
structure QdrantQuery where
  query : QueryVector
  scope : RetrievalScope
  limit : Int

structure QdrantQueryClient where
  queryPoints : QdrantQuery → Except Raised (List QdrantPoint)
  retrieve : List UUID → Except Raised (List QdrantPoint)

namespace QdrantVectorIndex

/-- `UUID(str(value))`; no number with a point, no literal and no container reads as one. -/
def uuidOf : Json → Option UUID
  | .str text => Text.readUuid text
  | .int n => Text.readUuid (String.ofList (Json.dumpInt n))
  | _ => none

def REQUIRED_PAYLOAD_FIELDS : List String :=
  ["source_version_id", "series_id", "season_id", "episode_id", "season_number", "episode_number",
    "start_ms", "end_ms", "text", "language", "rights_status", "source_status", "review_status",
    "index_revision", "member_segment_ids", "chunk_ordinal"]

/-- The score of a point as a float. -/
def scoreOf : Option Json → Except Raised FloatValue
  | some (.float value) =>
      if value.isFinite then .ok value
      else .error ⟨.invalidModel, QDRANT_RESULT_SCORE_MUST_BE_FINITE⟩
  | some (.int n) =>
      match Binary64.round n with
      | .finite q => .ok (.finite q)
      | _ => .error ⟨.overflowError, "int too large to convert to float"⟩
  | _ => .error ⟨.invalidModel, QDRANT_RESULT_SCORE_MUST_BE_FINITE⟩

/-- `value not in {...}` of approved review statuses; a list or an object has no hash. -/
def checkReviewStatus : Json → Except Raised Unit
  | .arr _ | .obj _ => .error ⟨.typeError, "unhashable type"⟩
  | value =>
      reject (value ∉ [.str "automated_reviewed", .str "hybrid_reviewed", .str "reviewed"])
        QDRANT_RESULT_REVIEW_STATUS_MUST_BE_APPROVED .invalidModel

/-- An integer field that is not a truth value. -/
def intOf : Json → Except Raised Int
  | .int n => .ok n
  | _ => .error ⟨.invalidModel, QDRANT_RESULT_NUMERIC_FIELDS_MUST_BE_VALID⟩

/-- `raw_member_ids` as identifiers. -/
def memberIdsOf : Json → Option (List UUID)
  | .arr items => items.mapM uuidOf
  | _ => none

/-- `_map_point` up to the visibility of the episode. -/
def decodePoint (scope : RetrievalScope) (missingScore : Option Json) (point : QdrantPoint) :
    Except Raised RetrievedSegmentFields := do
  let incomplete : Raised := ⟨.invalidModel, QDRANT_RESULT_PAYLOAD_MUST_BE_COMPLETE⟩
  let payload ← orRaise point.payload incomplete
  reject (∃ field ∈ REQUIRED_PAYLOAD_FIELDS, payload.lookup field = none)
    QDRANT_RESULT_PAYLOAD_MUST_BE_COMPLETE .invalidModel
  let idOf (value : Json) : Except Raised UUID :=
    orRaise (uuidOf value) ⟨.invalidModel, QDRANT_RESULT_IDS_MUST_BE_VALID⟩
  let chunkId ← idOf point.id
  let sourceVersionId ← idOf (← valueAt payload "source_version_id")
  let seriesId ← idOf (← valueAt payload "series_id")
  let seasonId ← idOf (← valueAt payload "season_id")
  let episodeId ← idOf (← valueAt payload "episode_id")
  let memberIds ← orRaise (memberIdsOf (← valueAt payload "member_segment_ids"))
    ⟨.invalidModel, QDRANT_RESULT_MEMBER_SEGMENTS_MUST_BE_VALID⟩
  reject (memberIds = [] ∨ ¬memberIds.Nodup) QDRANT_RESULT_MEMBER_SEGMENTS_MUST_BE_VALID
    .invalidModel
  reject ((← valueAt payload "source_status") ≠ .str "active")
    QDRANT_RESULT_SOURCE_STATUS_MUST_BE_ACTIVE .invalidModel
  checkReviewStatus (← valueAt payload "review_status")
  reject ((← valueAt payload "rights_status") ≠ .str "allowed")
    QDRANT_RESULT_GOVERNANCE_FIELDS_MUST_BE_VALID .invalidModel
  reject ((← valueAt payload "index_revision") ≠ .str TRANSCRIPT_INDEX_REVISION)
    QDRANT_RESULT_INDEX_REVISION_MUST_MATCH .invalidModel
  reject (seriesId ≠ scope.seriesId) QDRANT_RESULT_SERIES_MUST_MATCH_SCOPE .invalidModel
  reject ((← valueAt payload "language") ≠ .str "en")
    QDRANT_RESULT_GOVERNANCE_FIELDS_MUST_BE_VALID .invalidModel
  let seasonNumber ← intOf (← valueAt payload "season_number")
  let episodeNumber ← intOf (← valueAt payload "episode_number")
  let startMs ← intOf (← valueAt payload "start_ms")
  let endMs ← intOf (← valueAt payload "end_ms")
  let ordinal ← intOf (← valueAt payload "chunk_ordinal")
  reject (seasonNumber < 1 ∨ episodeNumber < 1 ∨ ordinal < 0 ∨ startMs < 0 ∨ endMs ≤ startMs)
    QDRANT_RESULT_NUMERIC_FIELDS_MUST_BE_VALID .invalidModel
  let text ← match ← valueAt payload "text" with
    | .str text => .ok text
    | _ => .error ⟨.invalidModel, QDRANT_RESULT_TEXT_MUST_BE_VALID⟩
  reject (¬Trimmed text) QDRANT_RESULT_TEXT_MUST_BE_VALID .invalidModel
  let score ← scoreOf (point.score.or missingScore)
  let position ← EpisodePosition.make seasonNumber episodeNumber
  return {
    segmentId := chunkId, sourceVersionId, episode := ⟨seriesId, seasonId, episodeId, position⟩
    startMs, endMs, text, language := .english, rightsStatus := .allowed, score
    memberSegmentIds := memberIds, indexRevision := TRANSCRIPT_INDEX_REVISION, ordinal }

def mapPoint (scope : RetrievalScope) (missingScore : Option Json) (point : QdrantPoint) :
    Except Raised RetrievedSegment := do
  let fields ← decodePoint scope missingScore point
  reject (scope.hides fields.episode fields.endMs = true)
    QDRANT_RESULT_MUST_MATCH_VISIBILITY_SCOPE .invalidModel
  fields.create

/-- Whatever the client answers, a decoded point lies within the scope. -/
theorem mapPoint_admits {scope : RetrievalScope} {missingScore : Option Json} {point : QdrantPoint}
    {segment : RetrievedSegment} (decoded : mapPoint scope missingScore point = .ok segment) :
    scope.Admits segment.episode segment.endMs := by
  unfold mapPoint at decoded
  rw [bind_eq_ok] at decoded
  obtain ⟨fields, -, decoded⟩ := decoded
  rw [reject_bind_eq_ok, Bool.not_eq_true] at decoded
  have same := RetrievedSegmentFields.create_ok decoded.2
  rw [same]
  exact RetrievalScope.admits_of_not_hides decoded.1

/-- `len(first & second) / len(first | second)`; the ids of a segment are unique and some. -/
def overlap (left right : RetrievedSegment) : FloatValue :=
  let shared := (left.memberSegmentIds ∩ right.memberSegmentIds).length
  Binary64.divide shared (left.memberSegmentIds.length + right.memberSegmentIds.length - shared)

/-- The candidate repeats a segment that was selected before. -/
def repeats (configuration : HybridRetrievalConfiguration)
    (selected : List RetrievedSegment) (candidate : RetrievedSegment) : Bool :=
  selected.any fun item =>
    candidate.sourceVersionId = item.sourceVersionId &&
      candidate.episode.episodeId = item.episode.episodeId &&
      configuration.maximumMemberOverlapRatio.toRat < (overlap candidate item).toRat

/-- The loop over the points; they are decoded one by one, so none behind the last one taken is. -/
def select (configuration : HybridRetrievalConfiguration) (scope : RetrievalScope) (limit : Int) :
    List RetrievedSegment → List QdrantPoint → Except Raised (List RetrievedSegment)
  | selected, [] => .ok selected
  | selected, point :: rest => do
      let candidate ← mapPoint scope none point
      if repeats configuration selected candidate then
        select configuration scope limit selected rest
      else if limit ≤ (selected ++ [candidate]).length then return selected ++ [candidate]
      else select configuration scope limit (selected ++ [candidate]) rest

def searchHybrid (client : QdrantQueryClient) (configuration : HybridRetrievalConfiguration)
    (query : QueryVector) (scope : RetrievalScope) (limit : Int) :
    Except Raised (List RetrievedSegment) := do
  reject (limit < 1) SEARCH_LIMIT_MUST_BE_POSITIVE
  reject (configuration.maxRequestedResultLimit < limit) SEARCH_LIMIT_EXCEEDS_CONFIGURED_MAXIMUM
  if scope.episodeScopes = [] then return []
  let candidateLimit := min configuration.candidateOverfetchCap
    (max limit (limit * configuration.candidateOverfetchMultiplier))
  let points ← client.queryPoints ⟨query, scope, candidateLimit⟩
  select configuration scope limit [] points

/-- The records under their ids; a later record replaces an earlier one. -/
def recordsById (records : List QdrantPoint) : Except Raised (Dict UUID QdrantPoint) := do
  let items ← (records.filter fun item => item.id ≠ .null).mapM fun item => do
    let id ← orRaise (uuidOf item.id) (valueError "badly formed hexadecimal UUID string")
    return (id, item)
  return Dict.ofList items

def retrieveByIds (client : QdrantQueryClient) (segmentIds : List UUID) (scope : RetrievalScope) :
    Except Raised (List RetrievedSegment) := do
  reject (segmentIds = [] ∨ ¬segmentIds.Nodup) SEARCH_LIMIT_MUST_BE_POSITIVE
  let records ← client.retrieve segmentIds
  let byId ← recordsById records
  (segmentIds.filterMap byId.get?).mapM (mapPoint scope (some (.float (.finite 0))))

theorem select_admits {configuration : HybridRetrievalConfiguration} {scope : RetrievalScope}
    {limit : Int} {selected found : List RetrievedSegment} {points : List QdrantPoint}
    (before : ∀ item ∈ selected, scope.Admits item.episode item.endMs)
    (run : select configuration scope limit selected points = .ok found) :
    ∀ item ∈ found, scope.Admits item.episode item.endMs := by
  induction points generalizing selected with
  | nil =>
      cases run
      exact before
  | cons point rest ih =>
      rw [select, bind_eq_ok] at run
      obtain ⟨candidate, decoded, run⟩ := run
      have more : ∀ item ∈ selected ++ [candidate], scope.Admits item.episode item.endMs := by
        intro item member
        rcases List.mem_append.mp member with old | new
        · exact before item old
        · rw [List.mem_singleton.mp new]
          exact mapPoint_admits decoded
      split at run
      · exact ih before run
      · split at run
        · cases run
          exact more
        · exact ih more run

/-- A search of the index returns nothing outside its scope. -/
theorem searchHybrid_admits {client : QdrantQueryClient}
    {configuration : HybridRetrievalConfiguration} {query : QueryVector} {scope : RetrievalScope}
    {limit : Int} {found : List RetrievedSegment}
    (searched : searchHybrid client configuration query scope limit = .ok found) :
    ∀ item ∈ found, scope.Admits item.episode item.endMs := by
  unfold searchHybrid at searched
  rw [reject_bind_eq_ok, reject_bind_eq_ok] at searched
  obtain ⟨-, -, searched⟩ := searched
  split at searched
  · cases searched
    exact fun _ member => absurd member List.not_mem_nil
  · rw [bind_eq_ok] at searched
    obtain ⟨points, -, searched⟩ := searched
    exact select_admits (fun _ member => absurd member List.not_mem_nil) searched

/-- Nor does a lookup by ids. -/
theorem retrieveByIds_admits {client : QdrantQueryClient} {segmentIds : List UUID}
    {scope : RetrievalScope} {found : List RetrievedSegment}
    (retrieved : retrieveByIds client segmentIds scope = .ok found) :
    ∀ item ∈ found, scope.Admits item.episode item.endMs := by
  unfold retrieveByIds at retrieved
  rw [reject_bind_eq_ok] at retrieved
  obtain ⟨-, retrieved⟩ := retrieved
  rw [bind_eq_ok] at retrieved
  obtain ⟨records, -, retrieved⟩ := retrieved
  rw [bind_eq_ok] at retrieved
  obtain ⟨byId, -, retrieved⟩ := retrieved
  intro item member
  obtain ⟨point, -, decoded⟩ := exists_of_mem_mapM retrieved member
  exact mapPoint_admits decoded

end QdrantVectorIndex

end Cinegraph
