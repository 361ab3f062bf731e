import Cinegraph.Graph.ReadModels
import Cinegraph.Library.Dict
import Cinegraph.Library.Merging
import Mathlib.Algebra.Order.Ring.Unbundled.Rat

/-!
Questions to the claim graph: the request is checked, the scope compiled, and
what the reader answers is held against both before it is ranked.
-/

namespace Cinegraph

open Library

open GraphRagErrorMessages

structure GraphRagConfiguration where
  maxSeeds : Nat := MAX_GRAPH_RAG_SEEDS
  maxPredicates : Nat := MAX_GRAPH_RAG_PREDICATES
  maxHops : Nat := MAX_GRAPH_RAG_HOPS
  maxClaims : Nat := MAX_GRAPH_RAG_CLAIMS
  maxEvidencePerClaim : Nat := MAX_GRAPH_RAG_EVIDENCE_PER_CLAIM
  maxFrontier : Nat := MAX_GRAPH_RAG_FRONTIER
  maxCandidateEpisodes : Nat := MAX_GRAPH_RAG_CANDIDATE_EPISODES
  positive : 1 ≤ maxSeeds ∧ 1 ≤ maxPredicates ∧ 1 ≤ maxHops ∧ 1 ≤ maxClaims ∧
    1 ≤ maxEvidencePerClaim ∧ 1 ≤ maxFrontier ∧ 1 ≤ maxCandidateEpisodes
  bounded : maxSeeds ≤ MAX_GRAPH_RAG_SEEDS ∧ maxPredicates ≤ MAX_GRAPH_RAG_PREDICATES ∧
    maxHops ≤ MAX_GRAPH_RAG_HOPS ∧ maxClaims ≤ MAX_GRAPH_RAG_CLAIMS ∧
    maxEvidencePerClaim ≤ MAX_GRAPH_RAG_EVIDENCE_PER_CLAIM ∧
    maxFrontier ≤ MAX_GRAPH_RAG_FRONTIER ∧ maxSeeds ≤ maxFrontier ∧
    maxCandidateEpisodes ≤ MAX_GRAPH_RAG_CANDIDATE_EPISODES

def DEFAULT_GRAPH_RAG_CONFIGURATION : GraphRagConfiguration where
  positive := by decide
  bounded := by decide

structure GraphRagQuery where
  seriesId : UUID
  seedTerms : List String
  candidateEpisodes : List EpisodeRef
  corpusAccessScope : CorpusAccessScope
  profileWatchState : Option ProfileWatchState := none
  predicates : List String := []
  hops : Int := 2
  claimLimit : Int := 25
  evidencePerClaim : Int := 5
  seeds_nonempty : seedTerms ≠ []
  limits_pos : 1 ≤ hops ∧ 1 ≤ claimLimit ∧ 1 ≤ evidencePerClaim

/-- What the service asks of the reader. -/
structure GraphRagReadRequest where
  scope : RetrievalScope
  seedTerms : List String
  predicates : List String
  hops : Int
  claimLimit : Int
  evidencePerClaim : Int
  maxFrontier : Int

namespace GraphRagQueryService

variable [Normalization]

structure GraphRagResult where
  claims : List GraphRagReadClaim
  bounded : claims.length ≤ MAX_GRAPH_RAG_CLAIMS
  unique : (claims.map fun claim => claim.claimId).Nodup

def GraphRagResult.make (claims : List GraphRagReadClaim) : Except Raised GraphRagResult :=
  if valid : claims.length ≤ MAX_GRAPH_RAG_CLAIMS ∧ (claims.map fun claim => claim.claimId).Nodup
  then .ok ⟨claims, valid.1, valid.2⟩
  else .error ⟨.invalidModel, RESULT_INVALID⟩

/-- `tuple(normalize(item) for item in items)`, or the given complaint. -/
def normalizeAll (normalize : String → Option String) (items : List String) (message : String) :
    Except Raised (List String) :=
  orRaise (items.mapM normalize) (valueError message)

def validateQuery (cfg : GraphRagConfiguration) (query : GraphRagQuery) : Except Raised Unit := do
  reject (cfg.maxSeeds < query.seedTerms.length ∨ ∃ item ∈ query.seedTerms,
    Text.strip item = "" ∨ MAX_GRAPH_NAME_LENGTH < item.length) QUERY_SEEDS_INVALID
  let normalized ← normalizeAll normalizeGraphIdentity query.seedTerms QUERY_SEEDS_INVALID
  reject (¬normalized.Nodup) QUERY_SEEDS_INVALID
  reject (cfg.maxPredicates < query.predicates.length) QUERY_PREDICATES_INVALID
  let predicates ← normalizeAll normalizeGraphPredicate query.predicates QUERY_PREDICATES_INVALID
  reject (∃ item ∈ predicates, MAX_GRAPH_PREDICATE_LENGTH < item.length) QUERY_PREDICATES_INVALID
  reject (¬predicates.Nodup) QUERY_PREDICATES_INVALID
  reject (cfg.maxCandidateEpisodes < query.candidateEpisodes.length) QUERY_EPISODES_INVALID
  reject (¬(query.candidateEpisodes.map EpisodeRef.episodeId).Nodup ∨
    ∃ item ∈ query.candidateEpisodes, item.seriesId ≠ query.seriesId) QUERY_EPISODES_INVALID
  reject (cfg.maxHops < query.hops ∨ cfg.maxClaims < query.claimLimit ∨
    cfg.maxEvidencePerClaim < query.evidencePerClaim) QUERY_LIMIT_INVALID

/-- Evidence is ranked by `(-confidence, end_ms, evidence_id.hex)`. -/
def evidenceRank (item : GraphEvidenceFields) : ℚ ×ₗ Int ×ₗ UUID :=
  toLex (-item.confidence.toRat, toLex (item.endMs, item.evidenceId))

/-- The entities of the answer that one of the seeds names. -/
def seedEntityIds (claims : List GraphRagReadClaim) (seeds : List String) : List UUID :=
  (claims.flatMap fun claim => [claim.subject, claim.object]).filterMap fun entity =>
    if ∃ alias_ ∈ entity.aliases, ∃ seed ∈ seeds, normalizeGraphIdentity alias_ = some seed then
      some entity.entityId
    else none

/-- The checks of one piece of evidence, with the ids seen so far. -/
def checkEvidence (scope : RetrievalScope) (claim : GraphRagReadClaim) (evidenceIds : List UUID)
    (evidence : GraphRagReadEvidence) : Except Raised (List UUID) := do
  reject (evidence.evidenceId ∈ evidenceIds ∨ evidence.claimId ≠ claim.claimId)
    RESULT_RELATIONSHIP_INVALID .invalidModel
  reject (scope.hides evidence.episode evidence.endMs = true) RESULT_SCOPE_INVALID .invalidModel
  reject (¬evidence.Governed) RESULT_SCOPE_INVALID .invalidModel
  reject (evidence.evidenceId ≠ IdentifierGenerator.graphEvidenceId evidence.claimId
    evidence.sourceVersionId evidence.transcriptChunkId) RESULT_RELATIONSHIP_INVALID .invalidModel
  return evidence.evidenceId :: evidenceIds

/-- The claim ids seen so far and the distance of every entity met. -/
structure Progress where
  claimIds : List UUID
  entityDistance : Dict UUID Int

def Progress.distance (progress : Progress) (query : GraphRagQuery) (entityId : UUID) : Int :=
  (progress.entityDistance.get? entityId).getD (query.hops + 1)

/-- One turn of the loop over the claims. -/
def checkClaim (query : GraphRagQuery) (scope : RetrievalScope) (progress : Progress)
    (item : GraphRagReadClaim) : Except Raised Progress := do
  reject (item.claimId ∈ progress.claimIds ∨ item.seriesId ≠ query.seriesId ∨
    item.hopDistance < 1 ∨ query.hops < item.hopDistance ∨
    query.evidencePerClaim < item.evidence.length) RESULT_RELATIONSHIP_INVALID .invalidModel
  reject (∃ entity ∈ [item.subject, item.object], entity.seriesId ≠ query.seriesId ∨
    IdentifierGenerator.graphEntityId entity.seriesId entity.kind entity.normalizedKey ≠
      some entity.entityId) RESULT_RELATIONSHIP_INVALID .invalidModel
  reject (IdentifierGenerator.graphClaimId GRAPH_CLAIM_EXTRACTION_REVISION item.seriesId
    item.subject.entityId item.predicate item.object.entityId item.polarity ≠ some item.claimId ∨
    item.evidence = []) RESULT_RELATIONSHIP_INVALID .invalidModel
  reject (item.evidence ≠
    sortedBy (fun row => evidenceRank row.toGraphEvidenceFields) item.evidence) RESULT_RELATIONSHIP_INVALID
    .invalidModel
  let _ ← item.evidence.foldlM (checkEvidence scope item) []
  let endpointDistance := min (progress.distance query item.subject.entityId)
    (progress.distance query item.object.entityId)
  reject (endpointDistance + 1 ≠ item.hopDistance) RESULT_RELATIONSHIP_INVALID .invalidModel
  let nearer (distances : Dict UUID Int) (entityId : UUID) : Dict UUID Int :=
    distances.set entityId (min ((distances.get? entityId).getD (query.hops + 1)) item.hopDistance)
  return ⟨item.claimId :: progress.claimIds,
    nearer (nearer progress.entityDistance item.subject.entityId) item.object.entityId⟩

/-- Claims are walked by `(hop_distance, claim_id.hex)`. -/
def claimDistance (claim : GraphRagReadClaim) : Int ×ₗ UUID :=
  toLex (claim.hopDistance, claim.claimId)

def validateResults (cfg : GraphRagConfiguration) (claims : List GraphRagReadClaim)
    (query : GraphRagQuery) (scope : RetrievalScope) (seeds : List String) :
    Except Raised (List GraphRagReadClaim) := do
  reject (cfg.maxClaims < claims.length) RESULT_LIMIT_INVALID .invalidModel
  let sorted := sortedBy claimDistance claims
  let seedDistance := Dict.ofList ((seedEntityIds sorted seeds).map fun entityId => (entityId, 0))
  let _ ← sorted.foldlM (checkClaim query scope) ⟨[], seedDistance⟩
  return sorted

/-- The score of a claim: its best confidence and the number of episodes behind it. -/
def score (claim : GraphRagReadClaim) : FloatValue :=
  let support := (claim.evidence.map fun item => item.confidence.toRat).foldl max 0
  let episodes := (claim.evidence.map fun item => item.episode.episodeId).dedup.length
  let episodeSupport := min 1 (Binary64.nearest (episodes / 3))
  .finite (Binary64.nearest (Binary64.nearest (Binary64.nearest (7 / 10) * support) +
    Binary64.nearest (Binary64.nearest (3 / 10) * episodeSupport)))

/-- Claims are answered by `(hop_distance, -score, claim_id.hex)`. -/
def claimRank (claim : GraphRagReadClaim) : Int ×ₗ ℚ ×ₗ UUID :=
  toLex (claim.hopDistance, toLex (-claim.score.toRat, claim.claimId))

/-- The scope of a query. -/
def scopeOf (query : GraphRagQuery) : Except Raised RetrievalScope :=
  RetrievalScopeCompiler.compile query.seriesId query.candidateEpisodes query.profileWatchState
    query.corpusAccessScope

def execute (cfg : GraphRagConfiguration)
    (read : GraphRagReadRequest → Except Raised (List GraphRagReadClaim)) (query : GraphRagQuery) :
    Except Raised GraphRagResult := do
  validateQuery cfg query
  let seeds ← normalizeAll normalizeGraphIdentity query.seedTerms QUERY_INVALID
  let predicates ← normalizeAll normalizeGraphPredicate query.predicates QUERY_INVALID
  let scope ← scopeOf query
  if scope.episodeScopes = [] then GraphRagResult.make []
  else
    let claims ← read ⟨scope, seeds, predicates, query.hops, cfg.maxClaims, query.evidencePerClaim,
      cfg.maxFrontier⟩
    let validated ← validateResults cfg claims query scope seeds
    let scored ← validated.mapM fun item =>
      GraphRagReadClaimFields.create { item.toGraphRagReadClaimFields with score := score item }
    GraphRagResult.make ((sortedBy claimRank scored).take query.claimLimit.toNat)

theorem checkEvidence_admits {scope : RetrievalScope} {claim : GraphRagReadClaim}
    {seen after : List UUID} {evidence : GraphRagReadEvidence}
    (checked : checkEvidence scope claim seen evidence = .ok after) :
    scope.Admits evidence.episode evidence.endMs := by
  unfold checkEvidence at checked
  rw [reject_bind_eq_ok, reject_bind_eq_ok, Bool.not_eq_true] at checked
  exact RetrievalScope.admits_of_not_hides checked.2.1

/-- A claim that may be shown: of the series, with evidence, all of it within the scope. -/
def Shown (query : GraphRagQuery) (scope : RetrievalScope) (claim : GraphRagReadClaim) : Prop :=
  claim.seriesId = query.seriesId ∧ claim.evidence ≠ [] ∧
    ∀ item ∈ claim.evidence, scope.Admits item.episode item.endMs

theorem checkClaim_shown {query : GraphRagQuery} {scope : RetrievalScope} {progress after : Progress}
    {item : GraphRagReadClaim} (checked : checkClaim query scope progress item = .ok after) :
    Shown query scope item := by
  unfold checkClaim at checked
  rw [reject_bind_eq_ok, reject_bind_eq_ok, reject_bind_eq_ok, reject_bind_eq_ok] at checked
  obtain ⟨shape, -, ids, -, checked⟩ := checked
  rw [bind_eq_ok] at checked
  obtain ⟨seen, each, -⟩ := checked
  simp only [not_or, not_not] at shape ids
  refine ⟨shape.2.1, ids.2, ?_⟩
  intro evidence member
  obtain ⟨before, next, one⟩ := exists_turn each member
  exact checkEvidence_admits one

theorem validateResults_shown {cfg : GraphRagConfiguration} {claims validated : List GraphRagReadClaim}
    {query : GraphRagQuery} {scope : RetrievalScope} {seeds : List String}
    (valid : validateResults cfg claims query scope seeds = .ok validated) :
    ∀ claim ∈ validated, claim ∈ claims ∧ Shown query scope claim := by
  unfold validateResults at valid
  rw [reject_bind_eq_ok] at valid
  obtain ⟨-, valid⟩ := valid
  rw [bind_eq_ok] at valid
  obtain ⟨progress, each, valid⟩ := valid
  cases valid
  intro claim member
  obtain ⟨before, next, one⟩ := exists_turn each member
  exact ⟨mem_sortedBy.mp member, checkClaim_shown one⟩

theorem GraphRagResult.make_ok {claims : List GraphRagReadClaim} {result : GraphRagResult}
    (made : GraphRagResult.make claims = .ok result) : result.claims = claims := by
  unfold GraphRagResult.make at made
  split at made
  · cases made
    rfl
  · cases made

/-- Whatever the reader answers, the claims returned may be shown. -/
theorem execute_shown {cfg : GraphRagConfiguration}
    {read : GraphRagReadRequest → Except Raised (List GraphRagReadClaim)} {query : GraphRagQuery}
    {result : GraphRagResult} (answered : execute cfg read query = .ok result) :
    ∃ scope, scopeOf query = .ok scope ∧ ∀ claim ∈ result.claims, Shown query scope claim := by
  unfold execute at answered
  rw [unit_bind_eq_ok, bind_eq_ok] at answered
  obtain ⟨-, seeds, -, answered⟩ := answered
  rw [bind_eq_ok] at answered
  obtain ⟨predicates, -, answered⟩ := answered
  rw [bind_eq_ok] at answered
  obtain ⟨scope, compiled, answered⟩ := answered
  refine ⟨scope, compiled, ?_⟩
  split at answered
  · rw [GraphRagResult.make_ok answered]
    exact fun _ member => absurd member List.not_mem_nil
  · rw [bind_eq_ok] at answered
    obtain ⟨claims, -, answered⟩ := answered
    rw [bind_eq_ok] at answered
    obtain ⟨validated, valid, answered⟩ := answered
    rw [bind_eq_ok] at answered
    obtain ⟨scored, rescored, answered⟩ := answered
    rw [GraphRagResult.make_ok answered]
    intro claim member
    have ranked := mem_sortedBy.mp (List.mem_of_mem_take member)
    obtain ⟨item, inside, created⟩ := exists_of_mem_mapM rescored ranked
    have fields := GraphRagReadClaimFields.create_ok created
    obtain ⟨-, series, some_evidence, seen⟩ := validateResults_shown valid item inside
    unfold Shown
    rw [fields]
    exact ⟨series, some_evidence, seen⟩

end GraphRagQueryService

end Cinegraph
