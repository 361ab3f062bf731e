import Cinegraph.Graph.Acceptance
import Cinegraph.Graph.Answers
import Cinegraph.Graph.Validation

/-!
The query service over its own reader. What the reader answers is in order, so an execution fails
only where the reader refuses the seeds, or where the seeds of the service and those of the reader
lead to other entities.
-/

namespace Cinegraph

open Library

namespace GraphRagQueryService

open SqlAlchemyGraphClaimReader GraphReplacement

variable [Normalization]

omit [Normalization] in
/-- What the reader's query finds is not hidden from the service. -/
theorem hides_of_visible {scope : RetrievalScope} {row : GraphEvidenceFields}
    (visible : Visible scope row) : scope.hides row.episode row.endMs = false := by
  obtain ⟨-, item, inside, id, season, series, position, bound⟩ := visible
  have same : item.episode = row.episode := by
    have own := scope.episodes_series item inside
    cases item_eq : item.episode
    cases row_eq : row.episode
    rw [item_eq] at id season position own
    rw [row_eq] at id season series position
    dsimp only at id season series position own
    rw [id, season, position, series, own]
  have found : scope.visibilityFor row.episode.episodeId = some item := by
    unfold RetrievalScope.visibilityFor
    cases first : scope.episodeScopes.find? fun item =>
        item.episode.episodeId = row.episode.episodeId with
    | none =>
        have differs := List.find?_eq_none.mp first item inside
        exact absurd (decide_eq_true id.symm) differs
    | some other =>
        have known := List.mem_of_find?_eq_some first
        have matched := List.find?_some first
        exact congrArg some (List.inj_on_of_nodup_map scope.episodes_unique known inside
          ((of_decide_eq_true matched).trans id))
  unfold RetrievalScope.hides
  rw [found]
  dsimp only
  rw [same, decide_eq_false (not_not.mpr rfl), Bool.false_or]
  cases until_eq : item.safeUntilMs with
  | none => rfl
  | some safeUntilMs => exact decide_eq_false (Int.not_lt.mpr (bound safeUntilMs until_eq))

/-- The read models of all stored entities can be built. -/
def Buildable (db : GraphDatabase) : Prop :=
  ∀ row ∈ db.entities.rows, ∃ entity, entityDto db row = .ok entity

/-- An entity of the database that has one of the spellings. -/
def Named (db : GraphDatabase) (seeds : List String) (entityId : UUID) : Prop :=
  ∃ row ∈ db.aliases.rows, row.entityId = entityId ∧ row.normalizedAlias ∈ seeds

/-- A claim with an end that has one of the spellings. -/
def TouchesNamed (db : GraphDatabase) (seeds : List String) (claim : GraphClaimFields) : Prop :=
  Named db seeds claim.subjectEntityId ∨ Named db seeds claim.objectEntityId

/-- The entities that the reader starts from, with its own normal forms of the seeds, lead to the
claims that the seeds of the service name: all on the first hop do, and none on the second. -/
def SeedsLead (db : GraphDatabase) (request : GraphRagReadRequest) : Prop :=
  ∃ again, request.seedTerms.mapM normalizeGraphIdentity = some again ∧
    let entityIds := resolveSeedEntities db request.scope.seriesId again request.maxFrontier.toNat
    (∀ row ∈ firstHop db request entityIds, TouchesNamed db request.seedTerms row.claim) ∧
      ∀ row ∈ secondHop db request entityIds, ¬TouchesNamed db request.seedTerms row.claim

section Reading

variable {db : GraphDatabase} {request : GraphRagReadRequest} {item : SelectedClaim}
  {claim : GraphRagReadClaim}

theorem ends_of_reads (found : Found db request item.toJoinedClaim)
    (reads : Reads db request item claim) :
    ends claim = (item.claim.subjectEntityId, item.claim.objectEntityId) := by
  have subject := GraphRagReadEntityFields.create_ok reads.subject
  have object := GraphRagReadEntityFields.create_ok reads.object
  unfold ends
  rw [subject, object]
  exact Prod.ext (Table.get?_eq_some.mp found.subject).2 (Table.get?_eq_some.mp found.object).2

/-- The entities of an answer that the seeds of the service name. -/
theorem named_of_entity (readable : db.Readable) {row : GraphEntityRow} {entity : GraphRagReadEntity}
    (built : entityDto db row = .ok entity) {seeds : List String} :
    (∃ alias_ ∈ entity.aliases, ∃ seed ∈ seeds, normalizeGraphIdentity alias_ = some seed) ↔
      Named db seeds entity.entityId := by
  have fields := GraphRagReadEntityFields.create_ok built
  have own : entity.entityId = row.entityId := by rw [fields]
  have spelled : entity.aliases = loadAliases db row.entityId := by rw [fields]
  obtain ⟨rows, loaded, mem_rows, -, -⟩ := map_loadAliases readable row.entityId
  have spells : ∀ alias_ ∈ rows, normalizeGraphIdentity alias_.alias_ = some alias_.normalizedAlias :=
    fun alias_ member =>
      (aliasRow?_eq_some (readable.aliases alias_ ((mem_rows alias_).mp member).1).2).2.2.1
  rw [own, spelled, loaded]
  constructor
  · rintro ⟨name, member, seed, inside, same⟩
    obtain ⟨found, listed, rfl⟩ := List.mem_map.mp member
    rw [spells found listed, Option.some.injEq] at same
    obtain ⟨stored, belongs⟩ := (mem_rows found).mp listed
    exact ⟨found, stored, belongs, same ▸ inside⟩
  · rintro ⟨found, stored, belongs, inside⟩
    have listed := (mem_rows found).mpr ⟨stored, belongs⟩
    exact ⟨found.alias_, List.mem_map_of_mem listed, found.normalizedAlias, inside,
      spells found listed⟩

theorem inOrder_of_reads {query : GraphRagQuery} (series : request.scope.seriesId = query.seriesId)
    (evidence : request.evidencePerClaim = query.evidencePerClaim)
    (found : Found db request item.toJoinedClaim)
    (hop : 1 ≤ item.distance ∧ (item.distance : Int) ≤ query.hops)
    (reads : Reads db request item claim) : InOrder query request.scope claim := by
  have rows := reads.evidence
  have each : ∀ row ∈ claim.evidence, row.toGraphEvidenceFields ∈ rankedEvidence db request.scope
      request.evidencePerClaim.toNat item.claim.claimId := by
    intro row member
    rw [← rows]
    exact List.mem_map_of_mem member
  constructor
  case series => rw [reads.seriesId, found.series, series]
  case hop =>
    rw [reads.distance]
    omega
  case few =>
    have short : (rankedEvidence db request.scope request.evidencePerClaim.toNat
      item.claim.claimId).length ≤ _ := length_ranked_le
    have limits := query.limits_pos
    rw [← rows, List.length_map] at short
    omega
  case ranked =>
    have sorted : (rankedEvidence db request.scope request.evidencePerClaim.toNat
      item.claim.claimId).Pairwise _ := pairwise_ranked
    rw [← rows, List.pairwise_map] at sorted
    exact sortedBy_eq_self sorted
  case seen => exact fun row member => hides_of_visible (mem_of_mem_ranked (each row member)).2.2

end Reading

section Answer

variable {db : GraphDatabase} {request : GraphRagReadRequest} {entityIds : List UUID}
  {claims : List GraphRagReadClaim}

/-- The claims of an answer are those that were selected. -/
structure Answers (db : GraphDatabase) (request : GraphRagReadRequest) (entityIds : List UUID)
    (claims : List GraphRagReadClaim) : Prop where
  room : 1 ≤ request.claimLimit
  hops : 1 ≤ request.hops ∧ request.hops ≤ 2
  built : ∃ made, List.Forall₂ (Reads db request) (selectClaims db request entityIds) made ∧
    claims.Perm made

namespace Answers

variable (answers : Answers db request entityIds claims)
include answers

theorem mem_selected {item : SelectedClaim} : item ∈ selectClaims db request entityIds ↔
    (∃ row ∈ firstHop db request entityIds, item = ⟨row, 1⟩) ∨
      ∃ row ∈ secondHop db request entityIds, item = ⟨row, 2⟩ := by
  rw [selectClaims_eq answers.room answers.hops, List.mem_append, List.mem_map, List.mem_map]
  simp only [eq_comm]

theorem exists_item {claim : GraphRagReadClaim} (member : claim ∈ claims) :
    ∃ item ∈ selectClaims db request entityIds, Reads db request item claim := by
  obtain ⟨made, beside, perm⟩ := answers.built
  exact exists_left_of_forall₂ beside (perm.mem_iff.mp member)

theorem exists_claim {item : SelectedClaim} (member : item ∈ selectClaims db request entityIds) :
    ∃ claim ∈ claims, Reads db request item claim := by
  obtain ⟨made, beside, perm⟩ := answers.built
  obtain ⟨claim, listed, reads⟩ := exists_right_of_forall₂ beside member
  exact ⟨claim, perm.mem_iff.mpr listed, reads⟩

theorem nodup_claims : (claims.map fun claim => claim.claimId).Nodup := by
  obtain ⟨made, beside, perm⟩ := answers.built
  have ids : made.map (fun claim => claim.claimId) =
      (selectClaims db request entityIds).map fun item => item.claim.claimId := by
    generalize selectClaims db request entityIds = selected at beside
    clear perm
    induction beside with
    | nil => rfl
    | cons reads _ ih => rw [List.map_cons, List.map_cons, reads.claimId, ih]
  rw [(perm.map _).nodup_iff, ids]
  exact nodup_selectClaims answers.room answers.hops

theorem length_claims : (claims.length : Int) ≤ request.claimLimit := by
  obtain ⟨made, beside, perm⟩ := answers.built
  rw [perm.length_eq, ← beside.length_eq]
  exact length_selectClaims answers.room answers.hops

/-- A claim of an answer: where it was found, and what it says of itself. -/
theorem exists_row {query : GraphRagQuery} (series : request.scope.seriesId = query.seriesId)
    (evidence : request.evidencePerClaim = query.evidencePerClaim) (hops : request.hops = query.hops)
    {claim : GraphRagReadClaim} (member : claim ∈ claims) : InOrder query request.scope claim ∧
      ∃ row, ends claim = (row.claim.subjectEntityId, row.claim.objectEntityId) ∧
        (row ∈ firstHop db request entityIds ∧ claim.hopDistance = 1 ∨
          row ∈ secondHop db request entityIds ∧ claim.hopDistance = 2) := by
  obtain ⟨item, selected, reads⟩ := answers.exists_item member
  have found := (found_of_mem_select selected).1
  have bounds := answers.hops
  rcases answers.mem_selected.mp selected with ⟨row, first, rfl⟩ | ⟨row, second, rfl⟩
  · refine ⟨inOrder_of_reads series evidence found ?_ reads, row, ends_of_reads found reads,
      Or.inl ⟨first, reads.distance⟩⟩
    rw [← hops]
    exact ⟨le_refl 1, bounds.1⟩
  · refine ⟨inOrder_of_reads series evidence found ?_ reads, row, ends_of_reads found reads,
      Or.inr ⟨second, reads.distance⟩⟩
    have two : request.hops ≠ 1 := by
      intro one
      rw [secondHop_of_one one] at second
      cases second
    rw [← hops]
    have one_le_two : (1 : Nat) ≤ 2 := by decide
    exact ⟨one_le_two, by change (2 : Int) ≤ _; omega⟩

/-- A claim of the second hop touches one of the first. -/
theorem touches {claim : GraphRagReadClaim} {row : JoinedClaim}
    (same : ends claim = (row.claim.subjectEntityId, row.claim.objectEntityId))
    (second : row ∈ secondHop db request entityIds) : Touches claims claim := by
  obtain ⟨earlier, first, met, endpoint, touched⟩ := secondHop_touches second
  have selected := answers.mem_selected.mpr (Or.inl ⟨earlier, first, rfl⟩)
  obtain ⟨other, member, reads⟩ := answers.exists_claim selected
  have found := (found_of_mem_select selected).1
  refine ⟨other, member, reads.distance, met, ?_, same ▸ touched⟩
  rw [ends_of_reads found reads]
  rw [← (Table.get?_eq_some.mp found.subject).2, ← (Table.get?_eq_some.mp found.object).2]
  exact endpoint

/-- The seeds of an answer are the entities that have one of the spellings. -/
theorem mem_seedEntityIds_iff (readable : db.Readable) {seeds : List String}
    {claim : GraphRagReadClaim} (member : claim ∈ claims) {entityId : UUID}
    (endpoint : entityId ∈ [(ends claim).1, (ends claim).2]) :
    entityId ∈ seedEntityIds claims seeds ↔ Named db seeds entityId := by
  -- Both entities of a claim of the answer are built from their rows.
  have named {claim : GraphRagReadClaim} (member : claim ∈ claims) {entity : GraphRagReadEntity}
      (endpoint : entity ∈ [claim.subject, claim.object]) :
      (∃ alias_ ∈ entity.aliases, ∃ seed ∈ seeds, normalizeGraphIdentity alias_ = some seed) ↔
        Named db seeds entity.entityId := by
    obtain ⟨item, -, reads⟩ := answers.exists_item member
    rcases List.mem_pair.mp endpoint with rfl | rfl
    · exact named_of_entity readable reads.subject
    · exact named_of_entity readable reads.object
  rw [mem_seedEntityIds]
  constructor
  · rintro ⟨other, inside, entity, listed, rfl, spelled⟩
    exact (named inside listed).mp spelled
  · intro known
    have entity : ∃ entity ∈ [claim.subject, claim.object], entity.entityId = entityId := by
      rcases List.mem_pair.mp endpoint with rfl | rfl
      · exact ⟨claim.subject, List.mem_cons_self, rfl⟩
      · exact ⟨claim.object, List.mem_cons_of_mem _ List.mem_cons_self, rfl⟩
    obtain ⟨entity, listed, rfl⟩ := entity
    exact ⟨claim, member, entity, listed, rfl, (named member listed).mpr known⟩

end Answers

/-- An answer is validated exactly if the seeds lead to the claims that they name. -/
theorem validateResults_answer_iff {cfg : GraphRagConfiguration} {query : GraphRagQuery}
    {scope : RetrievalScope} {seeds predicates : List String}
    (answers : Answers db (requestOf cfg query scope seeds predicates) entityIds claims)
    (readable : db.Readable) (series : scope.seriesId = query.seriesId) :
    (∃ validated, validateResults cfg claims query scope seeds = .ok validated) ↔
      (∀ row ∈ firstHop db (requestOf cfg query scope seeds predicates) entityIds,
        TouchesNamed db seeds row.claim) ∧
      ∀ row ∈ secondHop db (requestOf cfg query scope seeds predicates) entityIds,
        ¬TouchesNamed db seeds row.claim := by
  have rows {claim : GraphRagReadClaim} (member : claim ∈ claims) : InOrder query scope claim ∧ _ :=
    answers.exists_row series rfl rfl member
  have few : (claims.length : Int) ≤ cfg.maxClaims := answers.length_claims
  have touch : ∀ claim ∈ claims, claim.hopDistance = 2 → Touches claims claim := by
    intro claim member two
    obtain ⟨-, row, same, ⟨-, one⟩ | ⟨second, -⟩⟩ := rows member
    · omega
    · exact answers.touches same second
  have named {claim : GraphRagReadClaim} (member : claim ∈ claims) {row : JoinedClaim}
      (same : ends claim = (row.claim.subjectEntityId, row.claim.objectEntityId)) :
      ((ends claim).1 ∈ seedEntityIds claims seeds ∨ (ends claim).2 ∈ seedEntityIds claims seeds) ↔
        TouchesNamed db seeds row.claim := by
    rw [answers.mem_seedEntityIds_iff readable member List.mem_cons_self,
      answers.mem_seedEntityIds_iff readable member (List.mem_cons_of_mem _ List.mem_cons_self), same]
    rfl
  have accepted : (∃ validated, validateResults cfg claims query scope seeds = .ok validated) ↔ _ :=
    validateResults_total_iff (by omega) answers.nodup_claims (fun claim member => (rows member).1)
      answers.hops touch
  rw [accepted]
  constructor
  · intro agree
    refine ⟨fun row first => ?_, fun row second touched => ?_⟩
    · have selected := answers.mem_selected.mpr (Or.inl ⟨row, first, rfl⟩)
      obtain ⟨claim, member, reads⟩ := answers.exists_claim selected
      have same := ends_of_reads (found_of_mem_select selected).1 reads
      exact (named member same).mp ((agree claim member).mp reads.distance)
    · have selected := answers.mem_selected.mpr (Or.inr ⟨row, second, rfl⟩)
      obtain ⟨claim, member, reads⟩ := answers.exists_claim selected
      have same := ends_of_reads (found_of_mem_select selected).1 reads
      have one := (agree claim member).mpr ((named member same).mpr touched)
      have two : claim.hopDistance = 2 := reads.distance
      omega
  · rintro ⟨near, far⟩ claim member
    obtain ⟨-, row, same, place⟩ := rows member
    rw [named member same]
    rcases place with ⟨first, one⟩ | ⟨second, two⟩
    · exact iff_of_true one (near row first)
    · exact iff_of_false (by omega) (far row second)

end Answer

section Result

variable {cfg : GraphRagConfiguration} {query : GraphRagQuery} {scope : RetrievalScope}
  {seeds predicates : List String} {db : GraphDatabase}

theorem validateResults_perm {claims validated : List GraphRagReadClaim}
    (valid : validateResults cfg claims query scope seeds = .ok validated) :
    validated.Perm claims := by
  unfold validateResults at valid
  rw [reject_bind_eq_ok, bind_eq_ok] at valid
  obtain ⟨-, progress, -, valid⟩ := valid
  cases valid
  exact sortedBy_perm _ _

/-- Claims that were validated are scored and returned. -/
theorem ranked_total {validated : List GraphRagReadClaim} (few : validated.length ≤ cfg.maxClaims)
    (once : (validated.map fun claim => claim.claimId).Nodup) (limit : Nat) : ∃ scored,
      (validated.mapM fun item => GraphRagReadClaimFields.create
        { item.toGraphRagReadClaimFields with score := score item }) = .ok scored ∧
      ∃ result, GraphRagResult.make ((sortedBy claimRank scored).take limit) = .ok result := by
  have each : ∀ item ∈ validated, ∃ claim, GraphRagReadClaimFields.create
      { item.toGraphRagReadClaimFields with score := score item } = .ok claim := by
    intro item _
    obtain ⟨subject, object, bounded, predicate, hop, -, rest⟩ := item.valid
    have fields : GraphRagReadClaimFields.Valid
        { item.toGraphRagReadClaimFields with score := score item } :=
      ⟨subject, object, bounded, predicate, hop, rfl, rest⟩
    exact ⟨_, GraphRagReadClaimFields.create_of_valid fields⟩
  obtain ⟨scored, made⟩ := mapM_total each
  have ids : scored.map (fun claim => claim.claimId) = validated.map fun claim => claim.claimId :=
    map_of_mapM made fun item _ claim created => by rw [GraphRagReadClaimFields.create_ok created]
  have count := length_of_mapM made
  have bounded := cfg.bounded
  have unique : (((sortedBy claimRank scored).take limit).map fun claim => claim.claimId).Nodup := by
    refine List.Nodup.sublist ((List.take_sublist _ _).map _) ?_
    rw [((sortedBy_perm claimRank scored).map _).nodup_iff, ids]
    exact once
  have short : ((sortedBy claimRank scored).take limit).length ≤ MAX_GRAPH_RAG_CLAIMS := by
    have cut := List.length_take_le limit (sortedBy claimRank scored)
    have taken := (List.take_sublist limit (sortedBy claimRank scored)).length_le
    rw [length_sortedBy] at taken
    omega
  refine ⟨scored, made, ?_⟩
  unfold GraphRagResult.make
  rw [dif_pos ⟨short, unique⟩]
  exact ⟨_, rfl⟩

/-- An execution ends where the reader answers and the answer is validated. -/
theorem execute_ok_iff (valid : validateQuery cfg query = .ok ())
    (spelled : Spelled query seeds predicates) (compiled : scopeOf query = .ok scope)
    {reader : GraphRagReadRequest → Except Raised (List GraphRagReadClaim)}
    (answers : scope.episodeScopes ≠ [] → ∀ claims,
      reader (requestOf cfg query scope seeds predicates) = .ok claims →
      claims.length ≤ cfg.maxClaims ∧ (claims.map fun claim => claim.claimId).Nodup) :
    (∃ result, execute cfg reader query = .ok result) ↔ scope.episodeScopes = [] ∨
      ∃ claims, reader (requestOf cfg query scope seeds predicates) = .ok claims ∧
        ∃ validated, validateResults cfg claims query scope seeds = .ok validated := by
  unfold execute normalizeAll
  rw [valid, ok_bind, spelled.spelled, spelled.named]
  change (∃ result, (scopeOf query >>= _) = .ok result) ↔ _
  rw [compiled, ok_bind]
  split
  · rename_i empty
    exact iff_of_true ⟨⟨[], Nat.zero_le _, List.nodup_nil⟩, rfl⟩ (Or.inl empty)
  · rename_i some_episode
    rw [or_iff_right some_episode]
    constructor
    · rintro ⟨result, ran⟩
      rw [bind_eq_ok] at ran
      obtain ⟨claims, answered, ran⟩ := ran
      rw [bind_eq_ok] at ran
      obtain ⟨validated, accepted, -⟩ := ran
      exact ⟨claims, answered, validated, accepted⟩
    · rintro ⟨claims, answered, validated, accepted⟩
      obtain ⟨few, once⟩ := answers some_episode claims answered
      have perm := validateResults_perm accepted
      obtain ⟨scored, made, result, returned⟩ := ranked_total (perm.length_eq ▸ few)
        ((perm.map _).nodup_iff.mpr once) query.claimLimit.toNat
      refine ⟨result, ?_⟩
      unfold requestOf at answered
      rw [answered, ok_bind, accepted, ok_bind, made, ok_bind]
      exact returned

/-- What the reader answers to a query that is accepted. -/
theorem answers_of_read (limited : Limited cfg query) (readable : db.Readable)
    (some_episode : scope.episodeScopes ≠ []) {again : List String}
    (spells : seeds.mapM normalizeGraphIdentity = some again) {claims : List GraphRagReadClaim}
    (answered : read db (requestOf cfg query scope seeds predicates) = .ok claims) :
    Answers db (requestOf cfg query scope seeds predicates)
      (resolveSeedEntities db scope.seriesId again cfg.maxFrontier) claims := by
  have positive := cfg.positive
  have bounded := cfg.bounded
  have limits := query.limits_pos
  have few := limited.hops
  have two : MAX_GRAPH_RAG_HOPS = 2 := rfl
  have room : (1 : Int) ≤ cfg.maxClaims := by omega
  have hops : 1 ≤ query.hops ∧ query.hops ≤ 2 := by omega
  exact ⟨room, hops, read_ok readable spells ⟨room, limits.2.2⟩ hops some_episode answered⟩

theorem few_spellings_of_buildable (readable : db.Readable) (buildable : Buildable db)
    {request : GraphRagReadRequest} : ∀ entity, Touched db request entity →
      (loadAliases db entity.entityId).length ≤ MAX_GRAPH_ALIASES := by
  rintro entity ⟨again, -, item, member, endpoint⟩
  have found := (found_of_mem_select member).1
  have stored : entity ∈ db.entities.rows := by
    rcases List.mem_pair.mp endpoint with rfl | rfl
    · exact (Table.get?_eq_some.mp found.subject).1
    · exact (Table.get?_eq_some.mp found.object).1
  exact (entityDto_total_iff readable stored).mp (buildable entity stored)

/-- Seeds that are their own normal forms, and have not more spellings in the graph than the
frontier has room for, lead where the service expects. -/
theorem seedsLead_of_plain {request : GraphRagReadRequest} (readable : db.Readable)
    (plain : request.seedTerms.mapM normalizeGraphIdentity = some request.seedTerms)
    (room : (seedRows db request.scope.seriesId request.seedTerms).length ≤
      request.maxFrontier.toNat) : SeedsLead db request := by
  refine ⟨request.seedTerms, plain, fun row first => ?_, fun row second touched => ?_⟩
  · have named {entityId : UUID} (member : entityId ∈ resolveSeedEntities db request.scope.seriesId
        request.seedTerms request.maxFrontier.toNat) : Named db request.seedTerms entityId := by
      obtain ⟨spelled, inside, own⟩ := resolveSeedEntities_subset member
      obtain ⟨stored, matched⟩ := List.mem_filter.mp inside
      exact ⟨spelled, stored, own, (of_decide_eq_true matched).1⟩
    exact (mem_load first).2.imp named named
  · have found : Found db request row := found_of_mem_load second
    have series : ∀ entity ∈ db.entities.rows,
        entity.entityId ∈ [row.claim.subjectEntityId, row.claim.objectEntityId] →
        entity.seriesId = request.scope.seriesId := by
      intro entity stored endpoint
      obtain ⟨other, known, same, own⟩ := readable.joined row.claim found.claim _ endpoint
      rw [Table.eq_of_key stored known same.symm, own, found.series]
    have resolved {entityId : UUID} {entity : GraphEntityRow}
        (present : db.entities.get? entityId = some entity)
        (endpoint : entityId ∈ [row.claim.subjectEntityId, row.claim.objectEntityId])
        (named : Named db request.seedTerms entityId) : entityId ∈ resolveSeedEntities db
          request.scope.seriesId request.seedTerms request.maxFrontier.toNat := by
      obtain ⟨spelled, stored, own, inside⟩ := named
      obtain ⟨known, id⟩ := Table.get?_eq_some.mp present
      rw [← own]
      refine mem_resolveSeedEntities room (List.mem_filter.mpr ⟨stored, decide_eq_true ⟨inside, ?_⟩⟩)
      rw [own, present]
      exact decide_eq_true (series entity known (id ▸ endpoint))
    have touches := touched.imp (resolved found.subject List.mem_cons_self)
      (resolved found.object (List.mem_cons_of_mem _ List.mem_cons_self))
    have new := (mem_load second).1
    rcases mem_load_or_full found (revision_of_mem_load second) touches List.not_mem_nil with first | full
    · exact new (List.mem_map.mpr ⟨row, first, rfl⟩)
    · have none_left : secondHop db request (resolveSeedEntities db request.scope.seriesId
          request.seedTerms request.maxFrontier.toNat) = [] := by
        refine secondHop_eq_nil (Or.inr ?_)
        unfold firstHop
        rw [full]
        omega
      rw [none_left] at second
      cases second

/-- An execution over the own reader ends where the seeds are accepted and lead where the service
expects. -/
theorem execute_read_iff (ascii : KeepsAscii) (readable : db.Readable) (buildable : Buildable db)
    (valid : validateQuery cfg query = .ok ()) (limited : Limited cfg query)
    (spelled : Spelled query seeds predicates) (compiled : scopeOf query = .ok scope) :
    (∃ result, execute cfg (SqlAlchemyGraphClaimReader.read db) query = .ok result) ↔
      scope.episodeScopes = [] ∨ SeedsAccepted seeds ∧
        SeedsLead db (requestOf cfg query scope seeds predicates) := by
  have series : scope.seriesId = query.seriesId := (RetrievalScopeCompiler.compile_ok compiled).2.1
  have request_iff := validateRequest_iff ascii limited spelled compiled
  -- An answer is given for seeds that are accepted only.
  have accepted {claims : List GraphRagReadClaim}
      (answered : read db (requestOf cfg query scope seeds predicates) = .ok claims) :
      SeedsAccepted seeds := by
    unfold SqlAlchemyGraphClaimReader.read at answered
    rw [unit_bind_eq_ok] at answered
    exact request_iff.mp answered.1
  rw [execute_ok_iff valid spelled compiled]
  · refine or_congr_right' fun some_episode => ?_
    constructor
    · rintro ⟨claims, answered, validated⟩
      obtain ⟨short, again, spells, once⟩ := accepted answered
      have answers := answers_of_read limited readable some_episode spells answered
      exact ⟨⟨short, again, spells, once⟩, again, spells,
        (validateResults_answer_iff answers readable series).mp validated⟩
    · rintro ⟨seeds_accepted, again, spells, lead⟩
      obtain ⟨claims, answered⟩ := (read_total_iff readable (request_iff.mpr seeds_accepted)).mpr
        (few_spellings_of_buildable readable buildable)
      have answers := answers_of_read limited readable some_episode spells answered
      exact ⟨claims, answered, (validateResults_answer_iff answers readable series).mpr lead⟩
  · intro some_episode claims answered
    obtain ⟨-, again, spells, -⟩ := accepted answered
    have answers := answers_of_read limited readable some_episode spells answered
    exact ⟨Int.ofNat_le.mp answers.length_claims, answers.nodup_claims⟩

/-- Seeds that are given in normal form, and have not more spellings in the graph than the frontier
has room for, are executed without complaint. -/
theorem execute_of_plain_seeds (ascii : KeepsAscii) (readable : db.Readable)
    (buildable : Buildable db) (valid : validateQuery cfg query = .ok ())
    (plain : ∀ term ∈ query.seedTerms, normalizeGraphIdentity term = some term)
    (room : (seedRows db query.seriesId query.seedTerms).length ≤ cfg.maxFrontier) :
    ∃ result, execute cfg (SqlAlchemyGraphClaimReader.read db) query = .ok result := by
  obtain ⟨limited, seeds, predicates, spelled⟩ := validateQuery_ok valid
  obtain ⟨scope, compiled⟩ := scopeOf_total valid
  have series : scope.seriesId = query.seriesId := (RetrievalScopeCompiler.compile_ok compiled).2.1
  have own : ∀ terms : List String, (∀ term ∈ terms, normalizeGraphIdentity term = some term) →
      terms.mapM normalizeGraphIdentity = some terms := by
    intro terms each
    induction terms with
    | nil => rfl
    | cons term rest ih =>
        obtain ⟨first, later⟩ := List.forall_mem_cons.mp each
        rw [List.mapM_cons, first, ih later]
        rfl
  have same : query.seedTerms = seeds := Option.some.inj ((own _ plain).symm.trans spelled.spelled)
  refine (execute_read_iff ascii readable buildable valid limited spelled compiled).mpr (Or.inr ?_)
  refine ⟨⟨same ▸ limited.shortSeeds, seeds, same ▸ own _ plain, spelled.apart⟩, ?_⟩
  refine seedsLead_of_plain readable (same ▸ own _ plain) ?_
  change (seedRows db scope.seriesId seeds).length ≤ cfg.maxFrontier
  rw [series, ← same]
  exact room

/-- Whatever the store accepted, as long as the read models can be built: a query that passes the
service's own check is executed without complaint if and only if its scope is empty, or the reader
accepts its seeds and they lead the reader where the service expects. -/
theorem execute_own_reader_iff (ascii : KeepsAscii) {db : GraphDatabase}
    (run : Run store (fun _ _ => True) .empty db) (buildable : Buildable db)
    {cfg : GraphRagConfiguration} {query : GraphRagQuery}
    (valid : validateQuery cfg query = .ok ()) : ∃ scope seeds predicates,
      scopeOf query = .ok scope ∧ Spelled query seeds predicates ∧
      ((∃ result, execute cfg (SqlAlchemyGraphClaimReader.read db) query = .ok result) ↔
        scope.episodeScopes = [] ∨ SeedsAccepted seeds ∧
          SeedsLead db (requestOf cfg query scope seeds predicates)) := by
  obtain ⟨limited, seeds, predicates, spelled⟩ := validateQuery_ok valid
  obtain ⟨scope, compiled⟩ := scopeOf_total valid
  exact ⟨scope, seeds, predicates, compiled, spelled,
    execute_read_iff ascii (readable_of_run run) buildable valid limited spelled compiled⟩

end Result

end GraphRagQueryService

namespace GraphSamples

open CatalogueSamples GraphDatabase GraphReplacement GraphRagQueryService SqlAlchemyGraphClaimStore

attribute [local instance] Normalization.ascii

theorem keepsAscii : KeepsAscii := fun _ _ => rfl

/-- Someone who has seen everything. -/
def adult : ProfileWatchState where
  profileId := ⟨7⟩
  profileName := "Adult"
  seriesWatchStates := []
  spoilerMode := .relaxed
  version := 0
  name_trimmed := by decide
  series_unique := List.nodup_nil
  version_nonneg := ProfileWatchState.first_version

/-- A question about the pilot. -/
def asking (seed : String) : GraphRagQuery where
  seriesId := ⟨1⟩
  seedTerms := [seed]
  candidateEpisodes := [pilot]
  corpusAccessScope := wholeCorpus
  profileWatchState := some adult
  seeds_nonempty := List.cons_ne_nil _ _
  limits_pos := by decide

theorem pilot_visible : RetrievalScopeCompiler.visibility (some adult) wholeCorpus pilot =
    some (.full pilot) := by decide

theorem scope_asking {seed : String} {scope : RetrievalScope}
    (compiled : scopeOf (asking seed) = .ok scope) : scope.episodeScopes = [.full pilot] := by
  obtain ⟨-, -, episodes⟩ := RetrievalScopeCompiler.compile_ok compiled
  rw [episodes]
  change [pilot].filterMap (RetrievalScopeCompiler.visibility (some adult) wholeCorpus) = _
  rw [List.filterMap_cons_some pilot_visible]
  rfl

/-- A seed that grows by its normal form. -/
def longSeed : String := String.ofList (List.replicate 129 'ß')

/-- A question with a short seed that has a normal form is valid. -/
theorem asking_valid {seed normalized : String} (filled : Text.strip seed ≠ "")
    (short : seed.length ≤ 256) (normal : normalizeGraphIdentity seed = some normalized) :
    validateQuery DEFAULT_GRAPH_RAG_CONFIGURATION (asking seed) = .ok () := by
  have accepted : ¬(DEFAULT_GRAPH_RAG_CONFIGURATION.maxSeeds < (asking seed).seedTerms.length ∨
      ∃ item ∈ (asking seed).seedTerms,
        Text.strip item = "" ∨ MAX_GRAPH_NAME_LENGTH < item.length) := by
    simp [asking, DEFAULT_GRAPH_RAG_CONFIGURATION, MAX_GRAPH_RAG_SEEDS, MAX_GRAPH_NAME_LENGTH, filled,
      short]
  have named : normalizeAll normalizeGraphIdentity (asking seed).seedTerms
      GraphRagErrorMessages.QUERY_SEEDS_INVALID = .ok [normalized] := by
    simp [asking, normalizeAll, normal, orRaise]
  have once : ¬¬[normalized].Nodup := not_not.mpr (List.nodup_singleton normalized)
  rw [validateQuery, reject_of_not accepted, ok_bind, named, ok_bind, reject_of_not once]
  rfl

theorem toList_longSeed : longSeed.toList = List.replicate 129 'ß' := String.toList_ofList

theorem first_longSeed : 'ß' ∈ longSeed.toList := by
  rw [toList_longSeed, List.mem_replicate]
  exact ⟨by decide, rfl⟩

theorem identity_longSeed :
    normalizeGraphIdentity longSeed = some (Text.casefold longSeed) := by
  have display : normalizeGraphDisplay longSeed = some longSeed := by
    apply normalizeGraphDisplay_solid rfl (List.ne_nil_of_mem first_longSeed)
    intro c member
    rw [toList_longSeed] at member
    rw [List.eq_of_mem_replicate member]
    decide
  rw [normalizeGraphIdentity, display]
  rfl

theorem longSeed_valid :
    validateQuery DEFAULT_GRAPH_RAG_CONFIGURATION (asking longSeed) = .ok () := by
  have length : longSeed.length = 129 := by
    rw [← String.length_toList, toList_longSeed, List.length_replicate]
  have filled := Text.strip_ne_empty first_longSeed (show Text.isSpace 'ß' = false by decide)
  exact asking_valid filled (by omega) identity_longSeed

theorem longSeed_grows : (normalizeGraphIdentity longSeed).map String.length = some 258 := by
  have folds : (List.replicate 129 'ß').map (fun c => (Text.foldChar c).length) =
      List.replicate 129 2 := by
    rw [List.map_replicate]
    rfl
  have length : (Text.casefold longSeed).length = 258 := by
    rw [Text.casefold, String.length_ofList, List.length_flatMap, toList_longSeed, folds,
      List.sum_replicate]
    rfl
  rw [identity_longSeed, Option.map_some, length]

theorem buildable_empty : Buildable .empty := fun _ member => absurd member List.not_mem_nil

/-- A query that the service accepts, and the reader refuses. -/
theorem own_reader_refuses : ¬∀ db, Run store (fun _ _ => True) .empty db → Buildable db →
    ∀ cfg query, validateQuery cfg query = .ok () →
      ∃ result, execute cfg (SqlAlchemyGraphClaimReader.read db) query = .ok result := by
  intro always
  have executed := always .empty .start buildable_empty _ _ longSeed_valid
  obtain ⟨limited, seeds, predicates, spelled⟩ := validateQuery_ok longSeed_valid
  obtain ⟨scope, compiled⟩ := scopeOf_total longSeed_valid
  rw [execute_read_iff keepsAscii .empty buildable_empty longSeed_valid limited spelled
    compiled] at executed
  rcases executed with empty | ⟨⟨short, -⟩, -⟩
  · rw [scope_asking compiled] at empty
    cases empty
  · have grows := longSeed_grows
    have one := spelled.spelled
    change [longSeed].mapM normalizeGraphIdentity = some seeds at one
    cases normal : normalizeGraphIdentity longSeed with
    | none =>
        rw [normal] at grows
        cases grows
    | some seed =>
        rw [normal, Option.map_some, Option.some.injEq] at grows
        rw [List.mapM_cons, normal] at one
        cases one
        have fits := short seed List.mem_cons_self
        have limit : MAX_GRAPH_NAME_LENGTH = 256 := rfl
        omega

theorem normal_asha : normalizeGraphIdentity "asha" = some "asha" := by decide

theorem asha_valid :
    validateQuery DEFAULT_GRAPH_RAG_CONFIGURATION (asking "asha") = .ok () :=
  asking_valid (by decide) (by decide) normal_asha

theorem buildable_early : Buildable (serve .empty (extractionOf early)) := by
  have readable := readable_of_run (run_early (C := fun _ _ => True) trivial)
  have bounded : Bounded (serve .empty (extractionOf early)) := Bounded.serve .empty
    (fun _ member => absurd member List.not_mem_nil) early_roomy early_succeeds
  intro row stored
  exact (SqlAlchemyGraphClaimReader.entityDto_total_iff readable stored).mpr (bounded row stored)

/-- The graph has room for the few spellings of the first batch. -/
theorem few_early (seeds : List String) : (SqlAlchemyGraphClaimReader.seedRows
    (serve .empty (extractionOf early)) ⟨1⟩ seeds).length ≤ 34 := by
  unfold SqlAlchemyGraphClaimReader.seedRows
  refine le_trans List.filter_sublist.length_le ?_
  have listed : (serve .empty (extractionOf early)).aliases.rows ⊆ spellingRows := fun row member =>
    aliasRows_subset spelt_early row (stored_early.2.1 row member)
  exact (((serve .empty (extractionOf early)).aliases.nodup_rows).subperm listed).length_le

/-- A question about a stored entity is executed over the own reader. -/
theorem execute_own_reader_early : ∃ result, execute DEFAULT_GRAPH_RAG_CONFIGURATION
    (SqlAlchemyGraphClaimReader.read (serve .empty (extractionOf early))) (asking "asha") =
      .ok result := by
  have run : Run store (fun _ _ => True) .empty (serve .empty (extractionOf early)) :=
    run_early trivial
  obtain ⟨scope, seeds, predicates, compiled, spelled, executed⟩ :=
    execute_own_reader_iff keepsAscii run buildable_early asha_valid
  have series : scope.seriesId = ⟨1⟩ := (RetrievalScopeCompiler.compile_ok compiled).2.1
  have same : seeds = ["asha"] := by
    have one := spelled.spelled
    change ["asha"].mapM normalizeGraphIdentity = some seeds at one
    rw [List.mapM_cons, normal_asha] at one
    cases one
    rfl
  have plain : ["asha"].mapM normalizeGraphIdentity = some ["asha"] := by
    rw [List.mapM_cons, normal_asha]
    rfl
  subst same
  refine executed.mpr (Or.inr ⟨⟨by decide, _, plain, List.nodup_singleton _⟩, ?_⟩)
  refine seedsLead_of_plain (readable_of_run run) plain ?_
  change (SqlAlchemyGraphClaimReader.seedRows _ scope.seriesId ["asha"]).length ≤ 100
  rw [series]
  exact le_trans (few_early _) (by decide)

end GraphSamples

end Cinegraph
