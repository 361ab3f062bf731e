import Cinegraph.Transcripts.Chunking

/-! Indexing of the segments of one source version: chunk, encode, replace. -/

namespace Cinegraph

open Library

namespace TranscriptErrorMessages

def SOURCE_VERSION_MUST_BE_ACTIVE_AND_REVIEWED : String :=
  "Transcript source version must be active and approved."
def TRANSCRIPT_SEGMENT_SOURCE_VERSION_MUST_MATCH : String :=
  "Transcript segment source version must match the command source version."
def TRANSCRIPT_SEGMENT_IDS_MUST_BE_UNIQUE : String := "Transcript segment IDs must be unique."
def TRANSCRIPT_SEGMENT_RIGHTS_STATUS_MUST_MATCH : String :=
  "Transcript segment rights status must be allowed and match the source version."
def TRANSCRIPT_SOURCE_RIGHTS_STATUS_MUST_BE_ALLOWED : String :=
  "Transcript source version rights status must be allowed."
def TRANSCRIPT_INDEX_VECTOR_CARDINALITY_MUST_MATCH : String :=
  "Transcript index vector cardinality must match chunk cardinality."

end TranscriptErrorMessages

open TranscriptErrorMessages

/-- What the client of the collection answers to one request. -/
inductive RequestAnswer where
  | acknowledged
  | failedBefore (error : Raised)
  | failedAfter (error : Raised)
  deriving DecidableEq

namespace QdrantCollection

/-- Send requests in order until one fails; answers that are left out are acknowledgements. -/
def send : List QdrantRequest → List RequestAnswer → QdrantCollection → Except Raised Unit × QdrantCollection
  | [], _, collection => (.ok (), collection)
  | request :: rest, answers, collection =>
      match answers.headD .acknowledged with
      | .acknowledged => send rest answers.tail (collection.serve request)
      | .failedBefore error => (.error error, collection)
      | .failedAfter error => (.error error, collection.serve request)

theorem send_acknowledged {requests : List QdrantRequest} {answers : List RequestAnswer}
    (acknowledged : ∀ answer ∈ answers, answer = .acknowledged) (collection : QdrantCollection) :
    send requests answers collection = (.ok (), requests.foldl serve collection) := by
  induction requests generalizing answers collection with
  | nil => rfl
  | cons request rest ih =>
      have now : answers.headD .acknowledged = .acknowledged := by
        cases answers with
        | nil => rfl
        | cons answer later => exact acknowledged answer List.mem_cons_self
      rw [send, now, List.foldl_cons]
      exact ih (fun answer member => acknowledged answer (List.mem_of_mem_tail member)) _

end QdrantCollection

namespace IndexTranscriptSegmentsService

def checkSegment (source : SourceVersion) (seen : List UUID) (segment : TranscriptSegment) :
    Except Raised (List UUID) := do
  reject (segment.segmentId ∈ seen) TRANSCRIPT_SEGMENT_IDS_MUST_BE_UNIQUE .invalidModel
  reject (segment.sourceVersionId ≠ source.sourceVersionId)
    TRANSCRIPT_SEGMENT_SOURCE_VERSION_MUST_MATCH .invalidModel
  reject (segment.rightsStatus ≠ .allowed ∨ segment.rightsStatus ≠ source.rightsStatus)
    TRANSCRIPT_SEGMENT_RIGHTS_STATUS_MUST_MATCH .invalidModel
  return segment.segmentId :: seen

def payload (source : SourceVersion) (chunk : TranscriptRetrievalChunk) :
    TranscriptIndexPayload where
  sourceVersionId := chunk.sourceVersionId
  seriesId := chunk.episode.seriesId
  seasonId := chunk.episode.seasonId
  episodeId := chunk.episode.episodeId
  seasonNumber := chunk.episode.position.seasonNumber
  episodeNumber := chunk.episode.position.episodeNumber
  startMs := chunk.startMs
  endMs := chunk.endMs
  text := chunk.text
  language := chunk.language
  rightsStatus := chunk.rightsStatus
  sourceStatus := source.status
  reviewStatus := source.reviewStatus
  memberSegmentIds := chunk.memberSegmentIds
  chunkOrdinal := chunk.ordinal
  indexRevision := chunk.indexRevision

def point (source : SourceVersion) (chunk : TranscriptRetrievalChunk) (vector : DocumentVector) :
    TranscriptIndexPoint :=
  ⟨chunk.chunkId, vector, payload source chunk⟩

/-- `execute` up to the requests that the writer sends, with their number of points.
`encodeDocuments` is the encoder. -/
def execute (replacementMode : QdrantTranscriptReplacementMode) (denseVectorSize : Nat)
    (configuration : TranscriptChunkingConfiguration)
    (encodeDocuments : List String → Except Raised (List DocumentVector)) (source : SourceVersion)
    (segments : List TranscriptSegment) : Except Raised (List QdrantRequest × Nat) := do
  reject (source.rightsStatus ≠ .allowed) TRANSCRIPT_SOURCE_RIGHTS_STATUS_MUST_BE_ALLOWED
    .invalidModel
  reject (source.status ≠ .active ∨ isSourceVersionApproved source.reviewStatus = false)
    SOURCE_VERSION_MUST_BE_ACTIVE_AND_REVIEWED .invalidModel
  let _ ← segments.foldlM (checkSegment source) []
  let chunks ← TranscriptChunkingService.chunk configuration segments
  let replace := QdrantTranscriptIndexWriter.replaceSourceVersion replacementMode denseVectorSize
    source.sourceVersionId source.parentSourceVersionId
  if chunks = [] then
    let requests ← replace []
    return (requests, 0)
  else
    let vectors ← encodeDocuments (chunks.map fun chunk => chunk.text)
    reject (vectors.length ≠ chunks.length) TRANSCRIPT_INDEX_VECTOR_CARDINALITY_MUST_MATCH
      .invalidModel
    let points := (chunks.zip vectors).map fun (chunk, vector) => point source chunk vector
    let requests ← replace points
    return (requests, points.length)

/-- An accepted call replaces the version by one point for each chunk. -/
theorem execute_ok {mode : QdrantTranscriptReplacementMode} {denseVectorSize : Nat}
    {configuration : TranscriptChunkingConfiguration}
    {encodeDocuments : List String → Except Raised (List DocumentVector)} {source : SourceVersion}
    {segments : List TranscriptSegment} {requests : List QdrantRequest} {count : Nat}
    (executed : execute mode denseVectorSize configuration encodeDocuments source segments =
      .ok (requests, count)) :
    ∃ chunks points, TranscriptChunkingService.chunk configuration segments = .ok chunks ∧
      QdrantTranscriptIndexWriter.replaceSourceVersion mode denseVectorSize source.sourceVersionId
        source.parentSourceVersionId points = .ok requests ∧
      (∀ chunk ∈ chunks, ∃ vector, point source chunk vector ∈ points) ∧
      ∀ p ∈ points, ∃ chunk ∈ chunks, ∃ vector, p = point source chunk vector := by
  unfold execute at executed
  rw [reject_bind_eq_ok, reject_bind_eq_ok] at executed
  obtain ⟨-, -, executed⟩ := executed
  obtain ⟨-, -, executed⟩ := (bind_eq_ok _).mp executed
  obtain ⟨chunks, cut, executed⟩ := (bind_eq_ok _).mp executed
  dsimp only at executed
  split at executed
  · rename_i empty
    obtain ⟨sent, accepted, executed⟩ := (bind_eq_ok _).mp executed
    cases executed
    refine ⟨chunks, [], cut, accepted, ?_, fun _ member => absurd member List.not_mem_nil⟩
    rw [empty]
    exact fun _ member => absurd member List.not_mem_nil
  · obtain ⟨vectors, -, executed⟩ := (bind_eq_ok _).mp executed
    rw [reject_bind_eq_ok] at executed
    obtain ⟨cardinality, executed⟩ := executed
    obtain ⟨sent, accepted, executed⟩ := (bind_eq_ok _).mp executed
    cases executed
    have lengths : vectors.length = chunks.length := not_not.mp cardinality
    refine ⟨chunks, _, cut, accepted, ?_, ?_⟩
    · intro chunk member
      obtain ⟨i, bound, rfl⟩ := List.mem_iff_getElem.mp member
      have other : i < vectors.length := by omega
      refine ⟨vectors[i], List.mem_map.mpr ⟨(chunks[i], vectors[i]), ?_, rfl⟩⟩
      rw [List.mem_iff_getElem]
      exact ⟨i, by rw [List.length_zip]; omega, List.getElem_zip⟩
    · intro p member
      obtain ⟨⟨chunk, vector⟩, inside, rfl⟩ := List.mem_map.mp member
      exact ⟨chunk, (List.of_mem_zip inside).1, vector, rfl⟩

end IndexTranscriptSegmentsService

end Cinegraph
