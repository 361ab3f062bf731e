import Cinegraph.Retrieval.VectorIndex

/-!
Search over the visible segments of a series, and answers that cite what the
search returned. The index and the model that drafts the answer are outside
components, so nothing is assumed of what they say.
-/

namespace Cinegraph

open Library

namespace RetrievalErrorMessages

def SEARCH_QUERY_MUST_BE_TRIMMED_NONEMPTY : String := "Search query must be non-empty and trimmed."
def CANDIDATE_EPISODE_IDS_MUST_BE_UNIQUE : String := "Candidate episode IDs must be unique."
def VECTOR_INDEX_RESULT_COUNT_MUST_NOT_EXCEED_LIMIT : String :=
  "Vector index result count must not exceed the requested limit."
def VECTOR_INDEX_RESULT_IDS_MUST_BE_UNIQUE : String :=
  "Vector index result segment IDs must be unique."
def VECTOR_INDEX_RESULT_MUST_MATCH_SCOPE : String :=
  "Vector index result must match an episode and time bound in the retrieval scope."

end RetrievalErrorMessages

namespace GroundedAnswerErrorMessages

def MODEL_DRAFT_CANNOT_CITE_UNKNOWN_SEGMENT : String :=
  "Grounded answer draft cannot cite a transcript segment that was not provided as evidence."
def MODEL_DRAFT_CANNOT_CITE_DUPLICATE_SEGMENT : String :=
  "Grounded answer draft cannot cite the same transcript segment more than once."

end GroundedAnswerErrorMessages

open RetrievalErrorMessages GroundedAnswerErrorMessages

structure SearchVisibleHybridSegmentsQuery where
  query : String
  seriesId : UUID
  candidateEpisodes : List EpisodeRef
  profileWatchState : Option ProfileWatchState
  corpusAccessScope : CorpusAccessScope
  limit : Int := 10

structure SearchVisibleHybridSegmentsResult where
  matches_ : List RetrievedSegment
  visibleEpisodeCount : Nat
  deriving DecidableEq

/-- The encoder of queries and the index; either may answer anything or raise. -/
structure SearchVisibleHybridSegmentsService where
  encodeQuery : String → Except Raised QueryVector
  searchHybrid : QueryVector → RetrievalScope → Int → Except Raised (List RetrievedSegment)

namespace SearchVisibleHybridSegmentsService

/-- The scope of a query. -/
def scopeOf (query : SearchVisibleHybridSegmentsQuery) : Except Raised RetrievalScope :=
  RetrievalScopeCompiler.compile query.seriesId query.candidateEpisodes query.profileWatchState
    query.corpusAccessScope

def validateQuery (query : SearchVisibleHybridSegmentsQuery) : Except Raised Unit := do
  reject (¬Trimmed query.query) SEARCH_QUERY_MUST_BE_TRIMMED_NONEMPTY
  reject (query.limit < 1) SEARCH_LIMIT_MUST_BE_POSITIVE
  reject (¬(query.candidateEpisodes.map EpisodeRef.episodeId).Nodup)
    CANDIDATE_EPISODE_IDS_MUST_BE_UNIQUE

def validateResults (found : List RetrievedSegment) (scope : RetrievalScope) (limit : Int) :
    Except Raised Unit := do
  reject (limit < found.length) VECTOR_INDEX_RESULT_COUNT_MUST_NOT_EXCEED_LIMIT .invalidModel
  reject (¬(found.map fun item => item.segmentId).Nodup) VECTOR_INDEX_RESULT_IDS_MUST_BE_UNIQUE
    .invalidModel
  reject (∃ item ∈ found, scope.hides item.episode item.endMs = true)
    VECTOR_INDEX_RESULT_MUST_MATCH_SCOPE .invalidModel

theorem validateQuery_limit {query : SearchVisibleHybridSegmentsQuery}
    (valid : validateQuery query = .ok ()) : 1 ≤ query.limit := by
  simp only [validateQuery, reject_bind_eq_ok] at valid
  exact Int.not_lt.mp valid.2.1

theorem validateResults_ok {found : List RetrievedSegment} {scope : RetrievalScope} {limit : Int}
    (valid : validateResults found scope limit = .ok ()) :
    (found.map fun item => item.segmentId).Nodup ∧ (found.length : Int) ≤ limit ∧
      ∀ item ∈ found, scope.Admits item.episode item.endMs := by
  simp only [validateResults, reject_bind_eq_ok, reject_eq_ok] at valid
  obtain ⟨few, unique, seen⟩ := valid
  refine ⟨not_not.mp unique, Int.not_lt.mp few, ?_⟩
  intro item member
  apply RetrievalScope.admits_of_not_hides
  rw [Bool.eq_false_iff]
  exact fun hidden => seen ⟨item, member, hidden⟩

def execute (service : SearchVisibleHybridSegmentsService)
    (query : SearchVisibleHybridSegmentsQuery) :
    Except Raised SearchVisibleHybridSegmentsResult := do
  validateQuery query
  let scope ← scopeOf query
  if scope.episodeScopes = [] then return ⟨[], 0⟩
  let queryVector ← service.encodeQuery query.query
  let found ← service.searchHybrid queryVector scope query.limit
  validateResults found scope query.limit
  return ⟨found, scope.episodeScopes.length⟩

/-- What the search returns was within the scope, and each segment once. -/
theorem execute_ok {service : SearchVisibleHybridSegmentsService}
    {query : SearchVisibleHybridSegmentsQuery} {result : SearchVisibleHybridSegmentsResult}
    (searched : service.execute query = .ok result) :
    ∃ scope, scopeOf query = .ok scope ∧
      (result.matches_.map fun item => item.segmentId).Nodup ∧
      (result.matches_.length : Int) ≤ query.limit ∧
      ∀ item ∈ result.matches_, scope.Admits item.episode item.endMs := by
  unfold execute at searched
  rw [unit_bind_eq_ok, bind_eq_ok] at searched
  obtain ⟨valid, scope, compiled, searched⟩ := searched
  refine ⟨scope, compiled, ?_⟩
  split at searched
  · cases searched
    have limit_pos := validateQuery_limit valid
    exact ⟨List.nodup_nil, by simpa using (by omega : 0 ≤ query.limit),
      fun _ member => absurd member List.not_mem_nil⟩
  · rw [bind_eq_ok] at searched
    obtain ⟨queryVector, -, searched⟩ := searched
    rw [bind_eq_ok] at searched
    obtain ⟨found, -, searched⟩ := searched
    rw [unit_bind_eq_ok] at searched
    obtain ⟨checked, searched⟩ := searched
    cases searched
    exact validateResults_ok checked

end SearchVisibleHybridSegmentsService

structure HybridGroundedAnswerQuery where
  question : String
  seriesId : UUID
  candidateEpisodes : List EpisodeRef
  profileWatchState : Option ProfileWatchState
  corpusAccessScope : CorpusAccessScope
  limit : Int := 8

structure HybridGroundedAnswerResult where
  answer : Option String
  citations : List RetrievedSegment
  isSafeRefusal : Bool
  deriving DecidableEq

structure ModelEvidence where
  segmentId : UUID
  episode : EpisodeRef
  startMs : Int
  endMs : Int
  text : String

structure ModelRequest where
  question : String
  evidence : List ModelEvidence

structure ModelDraft where
  answer : Option String
  citedSegmentIds : List UUID
  deriving DecidableEq

/-- The search and the model; the number says how many drafts a run has asked for before. -/
structure HybridGroundedAnswerService where
  searchService : SearchVisibleHybridSegmentsService
  generateAnswer : Nat → ModelRequest → Except Raised ModelDraft

namespace HybridGroundedAnswerService

def searchQuery (query : HybridGroundedAnswerQuery) : SearchVisibleHybridSegmentsQuery where
  query := query.question
  seriesId := query.seriesId
  candidateEpisodes := query.candidateEpisodes
  profileWatchState := query.profileWatchState
  corpusAccessScope := query.corpusAccessScope
  limit := query.limit

def retrieveVisibleSegments (service : HybridGroundedAnswerService)
    (query : HybridGroundedAnswerQuery) : Except Raised (List RetrievedSegment) := do
  let result ← service.searchService.execute (searchQuery query)
  return result.matches_

def draftAnswer (service : HybridGroundedAnswerService) (question : String)
    (visibleSegments : List RetrievedSegment) (drafts : Nat) : Except Raised ModelDraft :=
  service.generateAnswer drafts ⟨question, visibleSegments.map fun segment =>
    ⟨segment.segmentId, segment.episode, segment.startMs, segment.endMs, segment.text⟩⟩

/-- The loop over the cited ids; a segment that occurs twice stands under its last occurrence. -/
def citations (evidenceById : Dict UUID RetrievedSegment) :
    List UUID → List UUID → Except Raised (List RetrievedSegment)
  | _, [] => .ok []
  | seenIds, segmentId :: rest => do
      let segment ← orRaise (evidenceById.get? segmentId)
        (valueError MODEL_DRAFT_CANNOT_CITE_UNKNOWN_SEGMENT)
      reject (segmentId ∈ seenIds) MODEL_DRAFT_CANNOT_CITE_DUPLICATE_SEGMENT
      let others ← citations evidenceById (segmentId :: seenIds) rest
      return segment :: others

def validateDraft (visibleSegments : List RetrievedSegment) (draft : ModelDraft) :
    Except Raised HybridGroundedAnswerResult := do
  let evidenceById := Dict.ofList (visibleSegments.map fun segment => (segment.segmentId, segment))
  let cited ← citations evidenceById [] draft.citedSegmentIds
  match draft.answer with
  | none => reject (draft.citedSegmentIds ≠ []) "A refusal cannot cite transcript evidence."
  | some answer =>
      reject (¬Trimmed answer ∨ draft.citedSegmentIds = [])
        "A grounded answer must be trimmed and cite evidence."
  return ⟨draft.answer, cited, draft.answer.isNone⟩

theorem citations_ok {visibleSegments : List RetrievedSegment} {seenIds segmentIds : List UUID}
    {cited : List RetrievedSegment}
    (checked : citations (Dict.ofList (visibleSegments.map fun segment =>
      (segment.segmentId, segment))) seenIds segmentIds = .ok cited) :
    (cited.map fun item => item.segmentId) = segmentIds ∧ (∀ item ∈ cited, item ∈ visibleSegments) ∧
      segmentIds.Nodup ∧ ∀ id ∈ segmentIds, id ∉ seenIds := by
  induction segmentIds generalizing seenIds cited with
  | nil =>
      cases checked
      exact ⟨rfl, fun _ member => absurd member List.not_mem_nil, List.nodup_nil,
        fun _ member => absurd member List.not_mem_nil⟩
  | cons segmentId rest ih =>
      rw [citations, bind_eq_ok] at checked
      obtain ⟨segment, found, checked⟩ := checked
      rw [reject_bind_eq_ok, bind_eq_ok] at checked
      obtain ⟨unseen, others, tail, checked⟩ := checked
      cases checked
      obtain ⟨ids, visible, unique, apart⟩ := ih tail
      obtain ⟨item, member, same⟩ := List.mem_map.mp
        (Dict.mem_of_get?_ofList (orRaise_eq_ok.mp found))
      cases same
      refine ⟨congrArg _ ids, ?_, ?_, ?_⟩
      · exact List.forall_mem_cons.mpr ⟨member, visible⟩
      · refine List.nodup_cons.mpr ⟨?_, unique⟩
        exact fun again => apart _ again List.mem_cons_self
      · refine List.forall_mem_cons.mpr ⟨unseen, ?_⟩
        exact fun id later before => apart id later (List.mem_cons_of_mem _ before)

/-- An accepted draft cites segments that it was given, each once, and cites one when it answers. -/
theorem validateDraft_ok {visibleSegments : List RetrievedSegment} {draft : ModelDraft}
    {result : HybridGroundedAnswerResult}
    (accepted : validateDraft visibleSegments draft = .ok result) :
    (∀ item ∈ result.citations, item ∈ visibleSegments) ∧
      (result.citations.map fun item => item.segmentId).Nodup ∧
      (result.citations = [] ↔ result.answer = none) := by
  unfold validateDraft at accepted
  rw [bind_eq_ok] at accepted
  obtain ⟨cited, checked, accepted⟩ := accepted
  obtain ⟨ids, visible, unique, -⟩ := citations_ok checked
  rw [← ids] at unique
  have none_cited : cited = [] ↔ draft.citedSegmentIds = [] := by
    rw [← ids, List.map_eq_nil_iff]
  cases given : draft.answer with
  | none =>
      rw [given, reject_bind_eq_ok, not_not] at accepted
      cases accepted.2
      exact ⟨visible, unique, iff_of_true (none_cited.mpr accepted.1) rfl⟩
  | some answer =>
      rw [given, reject_bind_eq_ok, not_or] at accepted
      cases accepted.2
      refine ⟨visible, unique, iff_of_false ?_ (Option.some_ne_none answer)⟩
      exact fun uncited => accepted.1.2 (none_cited.mp uncited)

end HybridGroundedAnswerService

namespace HybridGroundedAnswerGraphWorkflow

open HybridGroundedAnswerService

def safeRefusal : HybridGroundedAnswerResult := ⟨none, [], true⟩

/-- Draft and verify; a refused draft is drawn again while attempts are left. -/
def draftAndVerify (service : HybridGroundedAnswerService) (question : String)
    (visibleSegments : List RetrievedSegment) (retryCount : Nat) :
    (attemptsLeft : Nat) → Except Raised HybridGroundedAnswerResult
  | 0 => do
      let draft ← draftAnswer service question visibleSegments retryCount
      match validateDraft visibleSegments draft with
      | .ok result => return result
      | .error e => if e.kind = .valueError then return safeRefusal else throw e
  | attemptsLeft + 1 => do
      let draft ← draftAnswer service question visibleSegments retryCount
      match validateDraft visibleSegments draft with
      | .ok result => return result
      | .error e =>
          if e.kind = .valueError then
            draftAndVerify service question visibleSegments (retryCount + 1) attemptsLeft
          else throw e

def execute (service : HybridGroundedAnswerService) (maxRegenerationAttempts : Nat)
    (query : HybridGroundedAnswerQuery) : Except Raised HybridGroundedAnswerResult := do
  let visibleSegments ← retrieveVisibleSegments service query
  if visibleSegments = [] then return safeRefusal
  draftAndVerify service query.question visibleSegments 0 maxRegenerationAttempts

/-- A run ends with a draft that passed, or with the refusal that cites nothing. -/
theorem draftAndVerify_ok {service : HybridGroundedAnswerService} {question : String}
    {visibleSegments : List RetrievedSegment} {retryCount attemptsLeft : Nat}
    {result : HybridGroundedAnswerResult}
    (run : draftAndVerify service question visibleSegments retryCount attemptsLeft = .ok result) :
    result = safeRefusal ∨ ∃ draft, validateDraft visibleSegments draft = .ok result := by
  induction attemptsLeft generalizing retryCount with
  | zero =>
      rw [draftAndVerify, bind_eq_ok] at run
      obtain ⟨draft, -, run⟩ := run
      split at run
      · rename_i accepted
        cases run
        exact Or.inr ⟨draft, accepted⟩
      · split at run
        · cases run
          exact Or.inl rfl
        · cases run
  | succ attemptsLeft ih =>
      rw [draftAndVerify, bind_eq_ok] at run
      obtain ⟨draft, -, run⟩ := run
      split at run
      · rename_i accepted
        cases run
        exact Or.inr ⟨draft, accepted⟩
      · split at run
        · exact ih run
        · cases run

/-- An answer of the workflow cites segments of the one search that the run made. -/
theorem execute_ok {service : HybridGroundedAnswerService} {maxRegenerationAttempts : Nat}
    {query : HybridGroundedAnswerQuery} {result : HybridGroundedAnswerResult}
    (answered : execute service maxRegenerationAttempts query = .ok result) :
    ∃ visibleSegments, retrieveVisibleSegments service query = .ok visibleSegments ∧
      (result = safeRefusal ∨ ∃ draft, validateDraft visibleSegments draft = .ok result) := by
  unfold execute at answered
  rw [bind_eq_ok] at answered
  obtain ⟨visibleSegments, retrieved, answered⟩ := answered
  refine ⟨visibleSegments, retrieved, ?_⟩
  split at answered
  · cases answered
    exact Or.inl rfl
  · exact draftAndVerify_ok answered

end HybridGroundedAnswerGraphWorkflow

end Cinegraph
