import Cinegraph.Graph.QueryService
import Cinegraph.Graph.Store

/-!
The reader of the claim graph: seeds are resolved to entities, claims between
them are followed for some hops, and what is found is built into read values.
Only evidence is held against the scope.
-/

namespace Cinegraph

open Library

open GraphRagErrorMessages

namespace SqlAlchemyGraphClaimReader

open GraphRagQueryService (normalizeAll)

/-- A claim with the two entities it joins. -/
structure JoinedClaim where
  claim : GraphClaimFields
  subject : GraphEntityRow
  object : GraphEntityRow
  deriving DecidableEq

/-- `selected`: a claim and the hop it was found on. -/
structure SelectedClaim extends JoinedClaim where
  distance : Nat
  deriving DecidableEq

/-- The condition on evidence: governed, of an episode of the scope, within its time bound. -/
def Visible (scope : RetrievalScope) (row : GraphEvidenceFields) : Prop :=
  row.Governed ∧ ∃ item ∈ scope.episodeScopes,
    row.episode.episodeId = item.episode.episodeId ∧ row.episode.seasonId = item.episode.seasonId ∧
    row.episode.seriesId = scope.seriesId ∧ row.episode.position = item.episode.position ∧
    ∀ safeUntilMs ∈ item.safeUntilMs, row.endMs ≤ safeUntilMs

instance (scope : RetrievalScope) (row : GraphEvidenceFields) : Decidable (Visible scope row) :=
  inferInstanceAs (Decidable (_ ∧ _))

/-- The entities of the series that a seed names, the first rows by entity. -/
def resolveSeedEntities (db : GraphDatabase) (seriesId : UUID) (normalized : List String)
    (limit : Nat) : List UUID :=
  let named := db.aliases.rows.filter fun row => row.normalizedAlias ∈ normalized ∧
    (db.entities.get? row.entityId).any fun entity => entity.seriesId = seriesId
  let entityIds : List UUID := named.map fun row => row.entityId
  ((entityIds.mergeSort fun a b => decide (a ≤ b)).take limit).dedup

def joinEntities (db : GraphDatabase) (claim : GraphClaimFields) : Option JoinedClaim := do
  let subject ← db.entities.get? claim.subjectEntityId
  let object ← db.entities.get? claim.objectEntityId
  some ⟨claim, subject, object⟩

/-- Claims at the frontier with evidence to see, the first ones by identifier. -/
def loadFrontierClaims (db : GraphDatabase) (scope : RetrievalScope)
    (frontier selected : List UUID) (predicates : List String) (limit : Nat) : List JoinedClaim :=
  let matching := db.claims.rows.filter fun claim => claim.seriesId = scope.seriesId ∧
    claim.extractionRevision = GRAPH_CLAIM_EXTRACTION_REVISION ∧
    (claim.subjectEntityId ∈ frontier ∨ claim.objectEntityId ∈ frontier) ∧
    (∃ row ∈ db.evidence.rows, row.claimId = claim.claimId ∧ Visible scope row) ∧
    (predicates = [] ∨ claim.predicate ∈ predicates) ∧ claim.claimId ∉ selected
  (matching.filterMap (joinEntities db)).take limit

/-- The rows of one claim in `_load_evidence`. -/
def rankedEvidence (db : GraphDatabase) (scope : RetrievalScope) (limit : Nat) (claimId : UUID) :
    List GraphEvidenceFields :=
  let visible := db.evidence.rows.filter fun row => row.claimId = claimId ∧ Visible scope row
  (sortedBy GraphRagQueryService.evidenceRank visible).take limit

/-- The spellings of one entity in `_load_aliases`. -/
def loadAliases (db : GraphDatabase) (entityId : UUID) : List String :=
  let own := db.aliases.rows.filter fun row => row.entityId = entityId
  (own.mergeSort fun a b => decide (a.normalizedAlias ≤ b.normalizedAlias)).map fun row => row.alias_

/-- What the loop over the hops carries: the claims found, the entities met, and those of them
met on this hop. -/
structure Traversal where
  selected : List SelectedClaim
  seenEntities : List UUID
  nextFrontier : List UUID

def Traversal.claimIds (t : Traversal) : List UUID := t.selected.map fun item => item.claim.claimId

/-- An endpoint joins the next frontier if it is new and there is room. -/
def meet (maxFrontier : Int) (t : Traversal) (entityId : UUID) : Traversal :=
  if entityId ∉ t.seenEntities ∧ (t.seenEntities.length : Int) < maxFrontier then
    { t with
      seenEntities := t.seenEntities ++ [entityId]
      nextFrontier := t.nextFrontier ++ [entityId] }
  else t

/-- One turn of the loop over the claims of a hop. -/
def visit (request : GraphRagReadRequest) (distance : Nat) (t : Traversal) (row : JoinedClaim) :
    Traversal :=
  let selected := if row.claim.claimId ∈ t.claimIds then t.selected
    else t.selected ++ [⟨row, distance⟩]
  let t := { t with selected := selected }
  if (distance : Int) < request.hops then
    [row.subject.entityId, row.object.entityId].foldl (meet request.maxFrontier) t
  else t

/-- One hop from a frontier. -/
def hop (db : GraphDatabase) (request : GraphRagReadRequest) (distance : Nat) (t : Traversal) :
    Traversal :=
  let remaining := request.claimLimit - t.selected.length
  let rows := loadFrontierClaims db request.scope t.nextFrontier t.claimIds request.predicates
    remaining.toNat
  rows.foldl (visit request distance) { t with nextFrontier := [] }

/-- The hops from a given distance on, until the frontier is empty or enough claims are found. -/
def traverse (db : GraphDatabase) (request : GraphRagReadRequest) :
    Nat → Nat → Traversal → Traversal
  | 0, _, t => t
  | turns + 1, distance, t =>
      if t.nextFrontier = [] ∨ request.claimLimit - t.selected.length ≤ 0 then t
      else traverse db request turns (distance + 1) (hop db request distance t)

/-- The claims that `read` selects from the seeds. -/
def selectClaims (db : GraphDatabase) (request : GraphRagReadRequest) (seeds : List UUID) :
    List SelectedClaim :=
  (traverse db request request.hops.toNat 1 ⟨[], seeds, seeds⟩).selected

/-- `max(item.confidence for item in evidence)`. -/
def bestConfidence : List GraphEvidenceFields → FloatValue
  | [] => .finite 0
  | first :: rest => rest.foldl (fun best item =>
      if best.toRat < item.confidence.toRat then item.confidence else best) first.confidence

/-- What is known of a claim that is selected. -/
structure Found (db : GraphDatabase) (request : GraphRagReadRequest) (row : JoinedClaim) :
    Prop where
  claim : row.claim ∈ db.claims.rows
  series : row.claim.seriesId = request.scope.seriesId
  subject : db.entities.get? row.claim.subjectEntityId = some row.subject
  object : db.entities.get? row.claim.objectEntityId = some row.object
  visible : ∃ evidence ∈ db.evidence.rows,
    evidence.claimId = row.claim.claimId ∧ Visible request.scope evidence
  predicate : request.predicates = [] ∨ row.claim.predicate ∈ request.predicates

theorem joinEntities_eq_some {db : GraphDatabase} {claim : GraphClaimFields} {row : JoinedClaim} :
    joinEntities db claim = some row ↔ row.claim = claim ∧
      db.entities.get? claim.subjectEntityId = some row.subject ∧
      db.entities.get? claim.objectEntityId = some row.object := by
  unfold joinEntities
  simp only [Option.bind_eq_bind, Option.bind_eq_some_iff, Option.some_inj]
  constructor
  · rintro ⟨subject, first, object, second, rfl⟩
    exact ⟨rfl, first, second⟩
  · rintro ⟨rfl, first, second⟩
    exact ⟨row.subject, first, row.object, second, rfl⟩

section Selection

variable {db : GraphDatabase} {request : GraphRagReadRequest}

theorem found_of_mem_load {frontier selected : List UUID} {limit : Nat} {row : JoinedClaim}
    (member : row ∈ loadFrontierClaims db request.scope frontier selected request.predicates
      limit) : Found db request row := by
  have joined := List.mem_of_mem_take member
  rw [List.mem_filterMap] at joined
  obtain ⟨claim, matching, joined⟩ := joined
  obtain ⟨rfl, subject, object⟩ := joinEntities_eq_some.mp joined
  rw [List.mem_filter, decide_eq_true_iff] at matching
  obtain ⟨stored, series, -, -, visible, predicate, -⟩ := matching
  exact ⟨stored, series, subject, object, visible, predicate⟩

theorem meet_selected (maxFrontier : Int) (t : Traversal) (entityId : UUID) :
    (meet maxFrontier t entityId).selected = t.selected := by
  unfold meet
  split <;> rfl

theorem visit_selected (distance : Nat) (t : Traversal) (row : JoinedClaim) :
    (visit request distance t row).selected = if row.claim.claimId ∈ t.claimIds then t.selected
      else t.selected ++ [⟨row, distance⟩] := by
  unfold visit
  simp only
  split
  · simp only [List.foldl_cons, List.foldl_nil, meet_selected]
  · rfl

/-- A claim that is selected is one of the rows, or was selected before. -/
theorem mem_foldl_visit {distance : Nat} {rows : List JoinedClaim} {t : Traversal}
    {item : SelectedClaim} (member : item ∈ (rows.foldl (visit request distance) t).selected) :
    item ∈ t.selected ∨ item.toJoinedClaim ∈ rows ∧ item.distance = distance := by
  induction rows generalizing t with
  | nil => exact .inl member
  | cons row rows ih =>
      rcases ih member with before | ⟨later, same⟩
      · rw [visit_selected] at before
        split at before
        · exact .inl before
        · rcases List.mem_append.mp before with old | new
          · exact .inl old
          · cases List.mem_singleton.mp new
            exact .inr ⟨List.mem_cons_self, rfl⟩
      · exact .inr ⟨List.mem_cons_of_mem _ later, same⟩

theorem mem_hop {distance : Nat} {t : Traversal} {item : SelectedClaim}
    (member : item ∈ (hop db request distance t).selected) :
    item ∈ t.selected ∨ Found db request item.toJoinedClaim ∧ item.distance = distance := by
  rcases mem_foldl_visit member with old | ⟨new, same⟩
  · exact .inl old
  · exact .inr ⟨found_of_mem_load new, same⟩

theorem mem_traverse {turns distance : Nat} {t : Traversal} {item : SelectedClaim}
    (member : item ∈ (traverse db request turns distance t).selected) :
    item ∈ t.selected ∨ Found db request item.toJoinedClaim ∧ distance ≤ item.distance := by
  induction turns generalizing distance t with
  | zero => exact .inl member
  | succ turns ih =>
      unfold traverse at member
      split at member
      · exact .inl member
      · rcases ih member with before | ⟨found, later⟩
        · rcases mem_hop before with old | ⟨found, same⟩
          · exact .inl old
          · exact .inr ⟨found, by omega⟩
        · exact .inr ⟨found, by omega⟩

theorem found_of_mem_select {seeds : List UUID} {item : SelectedClaim}
    (member : item ∈ selectClaims db request seeds) :
    Found db request item.toJoinedClaim ∧ 1 ≤ item.distance := by
  rcases mem_traverse member with none_yet | found
  · exact absurd none_yet List.not_mem_nil
  · exact found

end Selection

section Ranking

variable {db : GraphDatabase} {scope : RetrievalScope} {limit : Nat} {claimId : UUID}

theorem mem_of_mem_ranked {row : GraphEvidenceFields}
    (member : row ∈ rankedEvidence db scope limit claimId) :
    row ∈ db.evidence.rows ∧ row.claimId = claimId ∧ Visible scope row := by
  have inside := mem_sortedBy.mp (List.mem_of_mem_take member)
  rw [List.mem_filter, decide_eq_true_iff] at inside
  exact inside

theorem length_ranked_le : (rankedEvidence db scope limit claimId).length ≤ limit :=
  List.length_take_le _ _

theorem nodup_ranked :
    ((rankedEvidence db scope limit claimId).map GraphEvidenceFields.evidenceId).Nodup := by
  unfold rankedEvidence
  have kept := db.evidence.nodup_keys.sublist
    ((List.filter_sublist (p := fun row => decide (row.claimId = claimId ∧ Visible scope row))).map
      GraphEvidenceFields.evidenceId)
  have sorted := ((sortedBy_perm GraphRagQueryService.evidenceRank (db.evidence.rows.filter fun row =>
    decide (row.claimId = claimId ∧ Visible scope row))).map _).nodup_iff.mpr kept
  exact sorted.sublist ((List.take_sublist _ _).map _)

theorem ranked_ne_nil (some_limit : 1 ≤ limit) (visible : ∃ row ∈ db.evidence.rows,
    row.claimId = claimId ∧ Visible scope row) : rankedEvidence db scope limit claimId ≠ [] := by
  obtain ⟨row, stored, seen⟩ := visible
  have inside : row ∈ db.evidence.rows.filter fun row => row.claimId = claimId ∧ Visible scope row :=
    List.mem_filter.mpr ⟨stored, decide_eq_true seen⟩
  have sorted : row ∈ sortedBy GraphRagQueryService.evidenceRank _ := mem_sortedBy.mpr inside
  intro none_left
  rcases List.take_eq_nil_iff.mp none_left with no_limit | no_row
  · omega
  · exact List.not_mem_nil (no_row ▸ sorted)

end Ranking

section Names

variable [Normalization]

/-- `_validate_request`, less what a retrieval scope carries as its own invariant. -/
def validateRequest (request : GraphRagReadRequest) : Except Raised Unit := do
  reject (MAX_GRAPH_RAG_CANDIDATE_EPISODES < request.scope.episodeScopes.length ∨
    request.seedTerms = [] ∨ MAX_GRAPH_RAG_SEEDS < request.seedTerms.length) READER_BATCH_INVALID
  reject (∃ item ∈ request.seedTerms, Text.strip item = "" ∨ MAX_GRAPH_NAME_LENGTH < item.length)
    READER_BATCH_INVALID
  let normalized ← normalizeAll normalizeGraphIdentity request.seedTerms QUERY_SEEDS_INVALID
  reject (¬normalized.Nodup) QUERY_SEEDS_INVALID
  reject (MAX_GRAPH_RAG_PREDICATES < request.predicates.length) QUERY_PREDICATES_INVALID
  reject ((∃ item ∈ request.predicates, MAX_GRAPH_PREDICATE_LENGTH < item.length ∨
    normalizeGraphPredicate item ≠ some item) ∨ ¬request.predicates.Nodup) QUERY_PREDICATES_INVALID
  reject ((∃ value ∈ [request.hops, request.claimLimit, request.evidencePerClaim,
    request.maxFrontier], value < 1) ∨ MAX_GRAPH_RAG_HOPS < request.hops ∨
    MAX_GRAPH_RAG_CLAIMS < request.claimLimit ∨
    MAX_GRAPH_RAG_EVIDENCE_PER_CLAIM < request.evidencePerClaim ∨
    MAX_GRAPH_RAG_FRONTIER < request.maxFrontier) QUERY_LIMIT_INVALID

/-- `_entity_dto`. -/
def entityDto (db : GraphDatabase) (row : GraphEntityRow) : Except Raised GraphRagReadEntity :=
  GraphRagReadEntityFields.create ⟨row.entityId, row.seriesId, row.kind, row.normalizedKey,
    row.displayName, loadAliases db row.entityId⟩

/-- The read value of a selected claim; a claim without evidence is passed over. -/
def claimDto (db : GraphDatabase) (item : SelectedClaim) (evidence : List GraphRagReadEvidence) :
    Except Raised (Option GraphRagReadClaim) := do
  if evidence = [] then return none
  let subject ← entityDto db item.subject
  let object ← entityDto db item.object
  let claim ← GraphRagReadClaimFields.create {
    claimId := item.claim.claimId
    seriesId := item.claim.seriesId
    subject
    predicate := item.claim.predicate
    object
    polarity := item.claim.polarity
    hopDistance := item.distance
    score := bestConfidence (evidence.map fun row => row.toGraphEvidenceFields)
    evidence }
  return some claim

/-- A selected claim with the evidence that `_load_evidence` finds for it. -/
def loadEvidence (db : GraphDatabase) (request : GraphRagReadRequest) (item : SelectedClaim) :
    Except Raised (SelectedClaim × List GraphRagReadEvidence) := do
  let evidence ← (rankedEvidence db request.scope request.evidencePerClaim.toNat
    item.claim.claimId).mapM GraphEvidenceFields.create
  return (item, evidence)

/-- The claims built from those selected: all evidence first, then the claims. -/
def build (db : GraphDatabase) (request : GraphRagReadRequest) (selected : List SelectedClaim) :
    Except Raised (List GraphRagReadClaim) := do
  let found ← selected.mapM (loadEvidence db request)
  let claims ← found.mapM fun (item, evidence) => claimDto db item evidence
  return (sortedBy GraphRagQueryService.claimRank claims.reduceOption).take request.claimLimit.toNat

def read (db : GraphDatabase) (request : GraphRagReadRequest) :
    Except Raised (List GraphRagReadClaim) := do
  validateRequest request
  if request.scope.episodeScopes = [] then return []
  let normalized ← normalizeAll normalizeGraphIdentity request.seedTerms QUERY_SEEDS_INVALID
  let seeds := resolveSeedEntities db request.scope.seriesId normalized request.maxFrontier.toNat
  build db request (selectClaims db request seeds)

end Names

end SqlAlchemyGraphClaimReader

end Cinegraph
