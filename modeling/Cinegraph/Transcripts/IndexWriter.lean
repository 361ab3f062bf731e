import Cinegraph.Domain.Source
import Mathlib.Logic.Function.Basic

/-!
The writer of the transcript index. Replacing a source version is a sequence of
requests to the collection: the new points first, then the removal of old ones.
-/

namespace Cinegraph

open Library

namespace QdrantErrorMessages

def SOURCE_VERSION_REPLACEMENT_IDS_MUST_DIFFER : String :=
  "New and retired source versions must differ."
def SOURCE_VERSION_POINT_MUST_MATCH_NEW : String :=
  "Every replacement point must belong to the new source version."
def SOURCE_VERSION_POINTS_MUST_SHARE_EPISODE_AND_LANGUAGE : String :=
  "Episode-language replacement points must share one episode and language."
def SOURCE_VERSION_POINTS_MUST_BE_UNIQUE : String := "Replacement chunk IDs must be unique."
def SOURCE_VERSION_POINT_REVISION_MUST_MATCH : String :=
  "Replacement point index revision must match the current revision."
def SOURCE_VERSION_POINT_MEMBERS_MUST_BE_VALID : String :=
  "Replacement point member segment IDs must be non-empty and unique."
def SOURCE_VERSION_POINT_DENSE_DIMENSION_MUST_MATCH : String :=
  "Replacement point dense dimension must match the Qdrant collection schema."

end QdrantErrorMessages

open QdrantErrorMessages

def TRANSCRIPT_INDEX_REVISION : String := "transcript-chunk-v1"

structure DocumentVector where
  dense : List FloatValue
  sparse : List (Nat × FloatValue)
  deriving DecidableEq

structure TranscriptIndexPayload where
  sourceVersionId : UUID
  seriesId : UUID
  seasonId : UUID
  episodeId : UUID
  seasonNumber : Int
  episodeNumber : Int
  startMs : Int
  endMs : Int
  text : String
  language : Language
  rightsStatus : RightsStatus
  sourceStatus : SourceVersionStatus
  reviewStatus : SourceReviewStatus
  memberSegmentIds : List UUID
  chunkOrdinal : Int
  indexRevision : String
  deriving DecidableEq

structure TranscriptIndexPoint where
  chunkId : UUID
  vector : DocumentVector
  payload : TranscriptIndexPayload
  deriving DecidableEq

inductive QdrantTranscriptReplacementMode where
  | retiredSourceVersion
  | episodeLanguage
  deriving DecidableEq, Repr

/-- What the writer asks of the collection; each request is atomic and acknowledged. -/
inductive QdrantRequest where
  | upsert (points : List TranscriptIndexPoint)
  | deleteRetired (retiredSourceVersionId : UUID)
  | deleteEpisodeLanguage (episodeId : UUID) (language : Language) (newSourceVersionId : UUID)
  deriving DecidableEq

namespace QdrantTranscriptIndexWriter

def replaceSourceVersion (replacementMode : QdrantTranscriptReplacementMode)
    (denseVectorSize : Nat) (newSourceVersionId : UUID) (retiredSourceVersionId : Option UUID)
    (points : List TranscriptIndexPoint) : Except Raised (List QdrantRequest) := do
  reject (retiredSourceVersionId = some newSourceVersionId)
    SOURCE_VERSION_REPLACEMENT_IDS_MUST_DIFFER .invalidModel
  reject (¬(points.map TranscriptIndexPoint.chunkId).Nodup) SOURCE_VERSION_POINTS_MUST_BE_UNIQUE
    .invalidModel
  reject (∃ point ∈ points, point.payload.sourceVersionId ≠ newSourceVersionId)
    SOURCE_VERSION_POINT_MUST_MATCH_NEW .invalidModel
  reject (∃ point ∈ points, point.payload.indexRevision ≠ TRANSCRIPT_INDEX_REVISION)
    SOURCE_VERSION_POINT_REVISION_MUST_MATCH .invalidModel
  reject (∃ point ∈ points, point.vector.dense.length ≠ denseVectorSize)
    SOURCE_VERSION_POINT_DENSE_DIMENSION_MUST_MATCH .invalidModel
  reject (∃ point ∈ points, point.payload.memberSegmentIds = [] ∨
    ¬point.payload.memberSegmentIds.Nodup) SOURCE_VERSION_POINT_MEMBERS_MUST_BE_VALID .invalidModel
  match replacementMode, points with
  | .episodeLanguage, first :: rest => do
      let episodeIds := ((first :: rest).map fun point => point.payload.episodeId).toFinset
      let languages := ((first :: rest).map fun point => point.payload.language).toFinset
      reject (episodeIds.card ≠ 1 ∨ languages.card ≠ 1)
        SOURCE_VERSION_POINTS_MUST_SHARE_EPISODE_AND_LANGUAGE .invalidModel
      return [.upsert (first :: rest),
        .deleteEpisodeLanguage first.payload.episodeId first.payload.language newSourceVersionId]
  | _, points =>
      return (if points = [] then [] else [.upsert points]) ++
        (retiredSourceVersionId.map QdrantRequest.deleteRetired).toList

/-- A call in episode-language mode puts its points in, then removes the other versions. -/
theorem replaceSourceVersion_episodeLanguage {denseVectorSize : Nat} {newId : UUID}
    {retiredId : Option UUID} {first : TranscriptIndexPoint} {rest : List TranscriptIndexPoint}
    {requests : List QdrantRequest}
    (accepted : replaceSourceVersion .episodeLanguage denseVectorSize newId retiredId
      (first :: rest) = .ok requests) :
    ((first :: rest).map TranscriptIndexPoint.chunkId).Nodup ∧
      (∀ point ∈ first :: rest, point.payload.sourceVersionId = newId ∧
        point.payload.episodeId = first.payload.episodeId ∧
        point.payload.language = first.payload.language) ∧
      requests = [.upsert (first :: rest),
        .deleteEpisodeLanguage first.payload.episodeId first.payload.language newId] := by
  unfold replaceSourceVersion at accepted
  simp only [reject_bind_eq_ok] at accepted
  obtain ⟨-, unique, matching, -, -, -, shared, result⟩ := accepted
  cases result
  refine ⟨not_not.mp unique, ?_, rfl⟩
  intro point member
  have one_episode : ((first :: rest).map fun p => p.payload.episodeId).toFinset.card = 1 := by
    by_contra several
    exact shared (.inl several)
  have one_language : ((first :: rest).map fun p => p.payload.language).toFinset.card = 1 := by
    by_contra several
    exact shared (.inr several)
  refine ⟨?_, ?_, ?_⟩
  · by_contra foreign
    exact matching ⟨point, member, foreign⟩
  · apply Finset.card_le_one.mp one_episode.le
    · exact List.mem_toFinset.mpr (List.mem_map_of_mem member)
    · exact List.mem_toFinset.mpr (List.mem_map_of_mem List.mem_cons_self)
  · apply Finset.card_le_one.mp one_language.le
    · exact List.mem_toFinset.mpr (List.mem_map_of_mem member)
    · exact List.mem_toFinset.mpr (List.mem_map_of_mem List.mem_cons_self)

/-- In either mode the points come first; what follows removes other versions of their episode, or
the retired version. -/
theorem replaceSourceVersion_ok {mode : QdrantTranscriptReplacementMode} {denseVectorSize : Nat}
    {newId : UUID} {retiredId : Option UUID} {points : List TranscriptIndexPoint}
    {requests : List QdrantRequest}
    (accepted : replaceSourceVersion mode denseVectorSize newId retiredId points = .ok requests) :
    retiredId ≠ some newId ∧ (points.map TranscriptIndexPoint.chunkId).Nodup ∧
      (∀ point ∈ points, point.payload.sourceVersionId = newId) ∧
      ∃ deletions, requests = (if points = [] then [] else [.upsert points]) ++ deletions ∧
        ∀ request ∈ deletions,
          (∃ point ∈ points, request = .deleteEpisodeLanguage point.payload.episodeId
            point.payload.language newId) ∨
          ∃ retired, retiredId = some retired ∧ request = .deleteRetired retired := by
  unfold replaceSourceVersion at accepted
  simp only [reject_bind_eq_ok] at accepted
  obtain ⟨differ, unique, matching, -, -, -, result⟩ := accepted
  have own : ∀ point ∈ points, point.payload.sourceVersionId = newId := by
    intro point member
    by_contra foreign
    exact matching ⟨point, member, foreign⟩
  refine ⟨differ, not_not.mp unique, own, ?_⟩
  split at result
  · rename_i first rest
    rw [reject_bind_eq_ok] at result
    cases result.2
    refine ⟨[_], rfl, ?_⟩
    intro request member
    exact Or.inl ⟨first, List.mem_cons_self, List.mem_singleton.mp member⟩
  · cases result
    refine ⟨_, rfl, ?_⟩
    intro request member
    obtain ⟨retired, given, same⟩ := Option.map_eq_some_iff.mp (Option.mem_toList.mp member)
    exact Or.inr ⟨retired, given, same.symm⟩

end QdrantTranscriptIndexWriter

/-- The points of the collection under their ids. -/
abbrev QdrantCollection := UUID → Option TranscriptIndexPoint

namespace QdrantCollection

def upsert (points : List TranscriptIndexPoint) (collection : QdrantCollection) :
    QdrantCollection :=
  points.foldl (fun c point => Function.update c point.chunkId (some point)) collection

def delete (matching : TranscriptIndexPoint → Bool) (collection : QdrantCollection) :
    QdrantCollection :=
  fun id => (collection id).filter fun point => !matching point

def serve (collection : QdrantCollection) : QdrantRequest → QdrantCollection
  | .upsert points => collection.upsert points
  | .deleteRetired retiredSourceVersionId =>
      collection.delete fun point => point.payload.sourceVersionId = retiredSourceVersionId
  | .deleteEpisodeLanguage episodeId language newSourceVersionId =>
      collection.delete fun point => point.payload.episodeId = episodeId ∧
        point.payload.language = language ∧ point.payload.sourceVersionId ≠ newSourceVersionId

theorem upsert_of_not_mem {points : List TranscriptIndexPoint} (collection : QdrantCollection)
    {id : UUID} (absent : id ∉ points.map TranscriptIndexPoint.chunkId) :
    collection.upsert points id = collection id := by
  induction points generalizing collection with
  | nil => rfl
  | cons point rest ih =>
      rw [List.map_cons, List.mem_cons, not_or] at absent
      have later := ih (Function.update collection point.chunkId (some point)) absent.2
      rw [upsert, List.foldl_cons]
      exact later.trans (Function.update_of_ne absent.1 _ _)

theorem upsert_of_mem {points : List TranscriptIndexPoint} (collection : QdrantCollection)
    (unique : (points.map TranscriptIndexPoint.chunkId).Nodup) {point : TranscriptIndexPoint}
    (member : point ∈ points) : collection.upsert points point.chunkId = some point := by
  induction points generalizing collection with
  | nil => cases member
  | cons first rest ih =>
      rw [List.map_cons, List.nodup_cons] at unique
      rw [upsert, List.foldl_cons]
      rcases List.mem_cons.mp member with rfl | later
      · have kept := upsert_of_not_mem (Function.update collection point.chunkId (some point))
          unique.1
        exact kept.trans (Function.update_self _ _ _)
      · exact ih (Function.update collection first.chunkId (some first)) unique.2 later

theorem delete_eq_some {matching : TranscriptIndexPoint → Bool} {collection : QdrantCollection}
    {id : UUID} {point : TranscriptIndexPoint} :
    collection.delete matching id = some point ↔
      collection id = some point ∧ matching point = false := by
  unfold delete
  rw [Option.filter_eq_some_iff, Bool.not_eq_true']

/-- A request that leaves a stored point where it is. -/
def Spares (point : TranscriptIndexPoint) : QdrantRequest → Prop
  | .upsert points => point.chunkId ∉ points.map TranscriptIndexPoint.chunkId
  | .deleteRetired retiredSourceVersionId => point.payload.sourceVersionId ≠ retiredSourceVersionId
  | .deleteEpisodeLanguage episodeId language newSourceVersionId =>
      point.payload.episodeId = episodeId → point.payload.language = language →
        point.payload.sourceVersionId = newSourceVersionId

theorem serve_of_spares {collection : QdrantCollection} {request : QdrantRequest}
    {point : TranscriptIndexPoint} (spares : Spares point request)
    (here : collection point.chunkId = some point) :
    collection.serve request point.chunkId = some point := by
  cases request with
  | upsert points => exact (upsert_of_not_mem collection spares).trans here
  | deleteRetired retired =>
      exact delete_eq_some.mpr ⟨here, decide_eq_false spares⟩
  | deleteEpisodeLanguage episodeId language newId =>
      refine delete_eq_some.mpr ⟨here, decide_eq_false ?_⟩
      rintro ⟨episode, lang, other⟩
      exact other (spares episode lang)

theorem serve_all_of_spares {collection : QdrantCollection} {requests : List QdrantRequest}
    {point : TranscriptIndexPoint} (spares : ∀ request ∈ requests, Spares point request)
    (here : collection point.chunkId = some point) :
    requests.foldl serve collection point.chunkId = some point := by
  induction requests generalizing collection with
  | nil => exact here
  | cons request rest ih =>
      exact ih (fun other member => spares other (List.mem_cons_of_mem _ member))
        (serve_of_spares (spares request List.mem_cons_self) here)

end QdrantCollection

end Cinegraph
