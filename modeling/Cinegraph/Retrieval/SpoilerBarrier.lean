import Cinegraph.Graph.QueryService
import Cinegraph.Retrieval.BoundedWindow
import Cinegraph.Retrieval.HybridSearch

/-!
The spoiler barrier: nothing that the retrieval services return lies outside the
scope compiled for the request, whatever the index, the graph reader and the
model that drafts answers say.
-/

namespace Cinegraph

open Library

namespace SpoilerBarrier

/-- The visible segments of a question, held against the scope of the question. -/
theorem retrieved_admitted {service : HybridGroundedAnswerService}
    {query : HybridGroundedAnswerQuery} {visibleSegments : List RetrievedSegment}
    (retrieved : service.retrieveVisibleSegments query = .ok visibleSegments) :
    ∃ scope, SearchVisibleHybridSegmentsService.scopeOf (HybridGroundedAnswerService.searchQuery
        query) = .ok scope ∧
      ∀ item ∈ visibleSegments, scope.Admits item.episode item.endMs := by
  unfold HybridGroundedAnswerService.retrieveVisibleSegments at retrieved
  rw [bind_eq_ok] at retrieved
  obtain ⟨found, searched, retrieved⟩ := retrieved
  cases retrieved
  obtain ⟨scope, compiled, -, -, seen⟩ := SearchVisibleHybridSegmentsService.execute_ok searched
  exact ⟨scope, compiled, seen⟩

/-- For every search, question to the graph and grounded answer, and any components outside: what
comes back lies within the compiled scope, and an answer cites what its own search returned. -/
theorem spoiler_barrier [Normalization] :
    (∀ (service : SearchVisibleHybridSegmentsService) (query : SearchVisibleHybridSegmentsQuery)
        (result : SearchVisibleHybridSegmentsResult), service.execute query = .ok result →
      ∃ scope, SearchVisibleHybridSegmentsService.scopeOf query = .ok scope ∧
        ∀ item ∈ result.matches_, scope.Admits item.episode item.endMs) ∧
    (∀ (client : QdrantQueryClient) (configuration : HybridRetrievalConfiguration)
        (scope : RetrievalScope) (found : List RetrievedSegment),
      (∃ query limit, QdrantVectorIndex.searchHybrid client configuration query scope limit =
        .ok found) ∨
      (∃ segmentIds, QdrantVectorIndex.retrieveByIds client segmentIds scope = .ok found) →
      ∀ item ∈ found, scope.Admits item.episode item.endMs) ∧
    (∀ (cfg : GraphRagConfiguration)
        (read : GraphRagReadRequest → Except Raised (List GraphRagReadClaim))
        (query : GraphRagQuery) (result : GraphRagQueryService.GraphRagResult),
      GraphRagQueryService.execute cfg read query = .ok result →
      ∃ scope, GraphRagQueryService.scopeOf query = .ok scope ∧ ∀ claim ∈ result.claims,
        claim.seriesId = query.seriesId ∧ claim.evidence ≠ [] ∧
          ∀ item ∈ claim.evidence, scope.Admits item.episode item.endMs) ∧
    (∀ (service : HybridGroundedAnswerService) (query : HybridGroundedAnswerQuery)
        (visibleSegments : List RetrievedSegment),
      service.retrieveVisibleSegments query = .ok visibleSegments →
      ∃ scope, SearchVisibleHybridSegmentsService.scopeOf
          (HybridGroundedAnswerService.searchQuery query) = .ok scope ∧
        ∀ (draft : ModelDraft) (result : HybridGroundedAnswerResult),
          HybridGroundedAnswerService.validateDraft visibleSegments draft = .ok result →
          (result.citations = [] ↔ result.answer = none) ∧ ∀ item ∈ result.citations,
            item ∈ visibleSegments ∧ scope.Admits item.episode item.endMs) ∧
    (∀ (service : HybridGroundedAnswerService) (attempts : Nat)
        (query : HybridGroundedAnswerQuery) (result : HybridGroundedAnswerResult),
      HybridGroundedAnswerGraphWorkflow.execute service attempts query = .ok result →
      ∃ scope visibleSegments, SearchVisibleHybridSegmentsService.scopeOf
          (HybridGroundedAnswerService.searchQuery query) = .ok scope ∧
        service.retrieveVisibleSegments query = .ok visibleSegments ∧
        (result.citations = [] ↔ result.answer = none) ∧ ∀ item ∈ result.citations,
          item ∈ visibleSegments ∧ scope.Admits item.episode item.endMs) := by
  refine ⟨?_, ?_, ?_, ?_, ?_⟩
  · intro service query result searched
    obtain ⟨scope, compiled, -, -, seen⟩ := SearchVisibleHybridSegmentsService.execute_ok searched
    exact ⟨scope, compiled, seen⟩
  · rintro client configuration scope found (⟨query, limit, searched⟩ | ⟨segmentIds, retrieved⟩)
    · exact QdrantVectorIndex.searchHybrid_admits searched
    · exact QdrantVectorIndex.retrieveByIds_admits retrieved
  · intro cfg read query result answered
    exact GraphRagQueryService.execute_shown answered
  · intro service query visibleSegments retrieved
    obtain ⟨scope, compiled, seen⟩ := retrieved_admitted retrieved
    refine ⟨scope, compiled, ?_⟩
    intro draft result accepted
    obtain ⟨cited, -, some_cited⟩ := HybridGroundedAnswerService.validateDraft_ok accepted
    exact ⟨some_cited, fun item member => ⟨cited item member, seen item (cited item member)⟩⟩
  · intro service attempts query result answered
    obtain ⟨visibleSegments, retrieved, ended⟩ :=
      HybridGroundedAnswerGraphWorkflow.execute_ok answered
    obtain ⟨scope, compiled, seen⟩ := retrieved_admitted retrieved
    refine ⟨scope, visibleSegments, compiled, retrieved, ?_⟩
    rcases ended with rfl | ⟨draft, accepted⟩
    · exact ⟨iff_of_true rfl rfl, fun _ member => absurd member List.not_mem_nil⟩
    · obtain ⟨cited, -, some_cited⟩ := HybridGroundedAnswerService.validateDraft_ok accepted
      exact ⟨some_cited, fun item member => ⟨cited item member, seen item (cited item member)⟩⟩

section Sample

open BoundedWindow (finale)

open CatalogueSamples

/-- The pilot was seen up to its first minute. -/
def firstMinute : ProfileWatchState where
  profileId := ⟨7⟩
  profileName := "viewer"
  seriesWatchStates := [⟨⟨1⟩, [⟨pilot, false, some 60000, by decide, by decide⟩], ∅, none,
    by decide, by decide, by decide, by decide⟩]
  spoilerMode := .sequential
  version := 0
  name_trimmed := viewer_trimmed
  series_unique := by decide
  version_nonneg := ProfileWatchState.first_version

def opening : RetrievedSegment where
  segmentId := ⟨20⟩
  sourceVersionId := ⟨30⟩
  episode := pilot
  startMs := 1000
  endMs := 60000
  text := "Welcome aboard."
  language := .english
  rightsStatus := .allowed
  score := .finite 1
  memberSegmentIds := [⟨40⟩]
  indexRevision := TRANSCRIPT_INDEX_REVISION
  ordinal := 0
  valid := by decide

def question : HybridGroundedAnswerQuery where
  question := "Who boards?"
  seriesId := ⟨1⟩
  candidateEpisodes := [pilot, finale]
  profileWatchState := some firstMinute
  corpusAccessScope := wholeCorpus

/-- The first draft cites a segment that nobody returned. -/
def forgetful : HybridGroundedAnswerService where
  searchService := ⟨fun _ => .ok ⟨⟨[], []⟩⟩, fun _ _ _ => .ok [opening]⟩
  generateAnswer drafts _ :=
    if drafts = 0 then .ok ⟨some "Everyone.", [⟨21⟩]⟩ else .ok ⟨some "The crew.", [⟨20⟩]⟩

theorem spoiler_barrier_sample :
    (∃ scope, SearchVisibleHybridSegmentsService.scopeOf (HybridGroundedAnswerService.searchQuery
        question) = .ok scope ∧ ∀ item ∈ [opening], scope.Admits item.episode item.endMs) ∧
    ∃ scope visibleSegments, SearchVisibleHybridSegmentsService.scopeOf
        (HybridGroundedAnswerService.searchQuery question) = .ok scope ∧
      forgetful.retrieveVisibleSegments question = .ok visibleSegments ∧
      ([opening] = [] ↔ some "The crew." = none) ∧ ∀ item ∈ [opening],
        item ∈ visibleSegments ∧ scope.Admits item.episode item.endMs := by
  have : Normalization := Normalization.ascii
  have searched : forgetful.searchService.execute (HybridGroundedAnswerService.searchQuery question)
      = .ok ⟨[opening], 1⟩ := by rfl
  have answered : HybridGroundedAnswerGraphWorkflow.execute forgetful 1 question =
      .ok ⟨some "The crew.", [opening], false⟩ := by rfl
  exact ⟨spoiler_barrier.1 _ _ _ searched, spoiler_barrier.2.2.2.2 _ _ _ _ answered⟩

end Sample

end SpoilerBarrier

end Cinegraph
