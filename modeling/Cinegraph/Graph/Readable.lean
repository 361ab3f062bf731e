import Cinegraph.Graph.Reader
import Cinegraph.Graph.Replacement

/-!
Reading what the graph store accepts. Every row that is stored passes the checks
of the read values, but the spellings of an entity add up over the batches.
-/

namespace Cinegraph

open Library

section Stored

variable [Normalization]

/-- What a stored name of an entity must be to be read. -/
structure GraphEntityRow.Named (row : GraphEntityRow) : Prop where
  key_length : row.normalizedKey.length ≤ MAX_GRAPH_NAME_LENGTH
  display : IsGraphName row.displayName
  key : normalizeGraphIdentity row.displayName = some row.normalizedKey
  id : IdentifierGenerator.graphEntityId row.seriesId row.kind row.normalizedKey =
    some row.entityId

/-- The rows of a database fit the read values and one another. -/
structure GraphDatabase.Readable (db : GraphDatabase) : Prop where
  entities : ∀ row ∈ db.entities.rows, row.Named
  keyed : ∀ row ∈ db.entities.rows, ∃ spelled ∈ db.aliases.rows,
    spelled.entityId = row.entityId ∧ spelled.normalizedAlias = row.normalizedKey
  aliases : ∀ row ∈ db.aliases.rows,
    IsGraphName row.alias_ ∧ aliasRow? row.entityId row.alias_ = some row
  joined : ∀ claim ∈ db.claims.rows, ∀ id ∈ [claim.subjectEntityId, claim.objectEntityId],
    ∃ row ∈ db.entities.rows, row.entityId = id ∧ row.seriesId = claim.seriesId
  claims : ∀ claim ∈ db.claims.rows, claim.predicate.length ≤ MAX_GRAPH_PREDICATE_LENGTH ∧
    normalizeGraphPredicate claim.predicate = some claim.predicate ∧
    IdentifierGenerator.graphClaimId GRAPH_CLAIM_EXTRACTION_REVISION claim.seriesId
      claim.subjectEntityId claim.predicate claim.objectEntityId claim.polarity =
        some claim.claimId
  evidence : ∀ row ∈ db.evidence.rows, row.Valid

theorem aliasRow?_eq_some {entityId : UUID} {alias_ : String} {row : GraphEntityAliasRow}
    (made : aliasRow? entityId alias_ = some row) :
    row.entityId = entityId ∧ row.alias_ = alias_ ∧
      normalizeGraphIdentity alias_ = some row.normalizedAlias ∧
      IdentifierGenerator.graphEntityAliasId entityId row.normalizedAlias = some row.aliasId := by
  unfold aliasRow? at made
  rw [Option.bind_eq_bind, Option.bind_eq_some_iff] at made
  obtain ⟨normalized, spells, made⟩ := made
  rw [Option.bind_eq_bind, Option.bind_eq_some_iff] at made
  obtain ⟨aliasId, named, made⟩ := made
  cases made
  exact ⟨rfl, rfl, spells, named⟩

namespace GraphDatabase

theorem Readable.empty : (empty : GraphDatabase).Readable := by
  constructor <;> exact fun _ member => absurd member List.not_mem_nil

section Rows

variable {call : GraphReplacement} (checked : call.Checked)
include checked

theorem named_of_checked {row : GraphEntityRow} (member : row ∈ call.entityRows) : row.Named := by
  obtain ⟨entity, inside, rfl⟩ := List.mem_map.mp member
  have named := entity.named
  exact ⟨named.key_length, named.display, named.key, checked.entity_ids entity inside⟩

theorem joined_of_checked {claim : GraphClaimFields} (member : claim ∈ call.claimRows) :
    ∀ id ∈ [claim.subjectEntityId, claim.objectEntityId],
      ∃ row ∈ call.entityRows, row.entityId = id ∧ row.seriesId = claim.seriesId := by
  obtain ⟨claim, inside, rfl⟩ := List.mem_map.mp member
  intro id endpoint
  obtain ⟨entity, known, same⟩ := (checked.claims_fit claim inside).2 id endpoint
  exact ⟨entityRow entity, List.mem_map_of_mem known, same⟩

theorem claims_of_checked {claim : GraphClaimFields} (member : claim ∈ call.claimRows) :
    claim.predicate.length ≤ MAX_GRAPH_PREDICATE_LENGTH ∧
      normalizeGraphPredicate claim.predicate = some claim.predicate ∧
      IdentifierGenerator.graphClaimId GRAPH_CLAIM_EXTRACTION_REVISION claim.seriesId
        claim.subjectEntityId claim.predicate claim.objectEntityId claim.polarity =
          some claim.claimId := by
  obtain ⟨claim, inside, rfl⟩ := List.mem_map.mp member
  obtain ⟨revision, predicate, bounded⟩ := claim.predicate_valid
  have named := (checked.claims_fit claim inside).1
  rw [revision] at named
  exact ⟨bounded, predicate, named⟩

theorem evidence_of_checked {row : GraphEvidenceFields} (member : row ∈ call.evidenceRows) :
    row.Valid := by
  obtain ⟨item, inside, rfl⟩ := List.mem_map.mp member
  obtain ⟨start, after, probable, governed⟩ := item.governed
  exact ⟨start, after, probable, governed, (checked.evidence_fits item inside).1⟩

end Rows

section Merge

variable {db full : GraphDatabase} {call : GraphReplacement}

theorem Merged.mem_entities (merged : Merged db call full) {row : GraphEntityRow} :
    row ∈ full.entities.rows ↔ row ∈ call.entityRows ∨ row ∈ db.entities.rows :=
  (Table.merge_eq_some.mp merged.entities).2 row

theorem Merged.mem_aliases (merged : Merged db call full) {row : GraphEntityAliasRow} :
    row ∈ full.aliases.rows ↔ row ∈ call.aliasRows ∨ row ∈ db.aliases.rows :=
  (Table.merge_eq_some.mp merged.aliases).2 row

theorem Merged.mem_claims (merged : Merged db call full) {row : GraphClaimFields} :
    row ∈ full.claims.rows ↔ row ∈ call.claimRows ∨ row ∈ db.claims.rows :=
  (Table.merge_eq_some.mp merged.claims).2 row

theorem Merged.mem_evidence (merged : Merged db call full) {row : GraphEvidenceFields} :
    row ∈ full.evidence.rows ↔ row ∈ call.evidenceRows ∨ row ∈ db.evidence.rows :=
  (Table.merge_eq_some.mp merged.evidence).2 row

omit [Normalization] in
theorem mem_removeOrphans_claims {retired : Option UUID} {claim : GraphClaimFields}
    (member : claim ∈ (removeOrphans (retire retired db)).claims.rows) : claim ∈ db.claims.rows :=
  (Table.mem_filter.mp member).1

end Merge

theorem mem_aliasRows {call : GraphReplacement} {row : GraphEntityAliasRow} :
    row ∈ call.aliasRows ↔ ∃ entity ∈ call.entities, ∃ alias_ ∈ entity.aliases,
      aliasRow? entity.entityId alias_ = some row := by
  unfold GraphReplacement.aliasRows
  simp only [List.mem_flatMap, List.mem_filterMap]

/-- The rows of a batch fit the read values, and so do those that were there. -/
theorem Readable.merged {db full : GraphDatabase} {call : GraphReplacement}
    (readable : db.Readable) (checked : call.Checked) (merged : Merged db call full) :
    full.Readable := by
  constructor
  case entities =>
    intro row member
    rcases merged.mem_entities.mp member with new | old
    · exact named_of_checked checked new
    · exact readable.entities row old
  case keyed =>
    intro row member
    rcases merged.mem_entities.mp member with new | old
    · obtain ⟨entity, inside, rfl⟩ := List.mem_map.mp new
      obtain ⟨alias_, spelled, key⟩ := entity.named.key_mem
      obtain ⟨found, made⟩ := Option.isSome_iff_exists.mp (merged.named entity inside alias_ spelled)
      obtain ⟨own, -, normalized, -⟩ := aliasRow?_eq_some made
      have stored := merged.mem_aliases.mpr
        (.inl (mem_aliasRows.mpr ⟨entity, inside, alias_, spelled, made⟩))
      refine ⟨found, stored, own, ?_⟩
      exact Option.some.inj (normalized.symm.trans key)
    · obtain ⟨found, stored, own⟩ := readable.keyed row old
      exact ⟨found, merged.mem_aliases.mpr (.inr stored), own⟩
  case aliases =>
    intro row member
    rcases merged.mem_aliases.mp member with new | old
    · obtain ⟨entity, -, alias_, spelled, made⟩ := mem_aliasRows.mp new
      obtain ⟨own, same, -, -⟩ := aliasRow?_eq_some made
      rw [own, same]
      exact ⟨entity.named.aliases alias_ spelled, made⟩
    · exact readable.aliases row old
  case joined =>
    intro claim member id endpoint
    rcases merged.mem_claims.mp member with new | old
    · obtain ⟨row, inside, same⟩ := joined_of_checked checked new id endpoint
      exact ⟨row, merged.mem_entities.mpr (.inl inside), same⟩
    · obtain ⟨row, inside, same⟩ := readable.joined claim old id endpoint
      exact ⟨row, merged.mem_entities.mpr (.inr inside), same⟩
  case claims =>
    intro claim member
    rcases merged.mem_claims.mp member with new | old
    · exact claims_of_checked checked new
    · exact readable.claims claim old
  case evidence =>
    intro row member
    rcases merged.mem_evidence.mp member with new | old
    · exact evidence_of_checked checked new
    · exact readable.evidence row old

/-- Deleting evidence and claims leaves the rest to be read. -/
theorem Readable.pruned {db : GraphDatabase} (readable : db.Readable) (retired : Option UUID) :
    (removeOrphans (retire retired db)).Readable where
  entities := readable.entities
  keyed := readable.keyed
  aliases := readable.aliases
  joined := fun claim member => readable.joined claim (mem_removeOrphans_claims member)
  claims := fun claim member => readable.claims claim (mem_removeOrphans_claims member)
  evidence := fun row member => readable.evidence row (Table.mem_filter.mp member).1

open GraphReplacement SqlAlchemyGraphClaimStore in
theorem Readable.serve {db : GraphDatabase} {call : GraphReplacement} (readable : db.Readable)
    (succeeds : Succeeds db call) : (serve db call).Readable := by
  obtain ⟨checked, full, merged, same⟩ := succeeds_iff.mp succeeds
  rw [same]
  exact (readable.merged (check_ok.mp checked) merged).pruned _

end GraphDatabase

namespace SqlAlchemyGraphClaimReader

section Reading

variable {db : GraphDatabase} (readable : db.Readable)
include readable

/-- The spellings of an entity have their stored normal forms, each once. -/
theorem map_loadAliases (entityId : UUID) :
    ∃ rows : List GraphEntityAliasRow, loadAliases db entityId = rows.map (fun row => row.alias_) ∧
      (∀ row, row ∈ rows ↔ row ∈ db.aliases.rows ∧ row.entityId = entityId) ∧
      (loadAliases db entityId).map normalizeGraphIdentity =
        rows.map (fun row => some row.normalizedAlias) ∧
      (rows.map fun row => some row.normalizedAlias).Nodup := by
  let own := db.aliases.rows.filter fun row => row.entityId = entityId
  let rows := own.mergeSort fun a b => decide (a.normalizedAlias ≤ b.normalizedAlias)
  have mem_rows : ∀ row, row ∈ rows ↔ row ∈ db.aliases.rows ∧ row.entityId = entityId := by
    intro row
    rw [List.mem_mergeSort, List.mem_filter, decide_eq_true_iff]
  have spells : ∀ row ∈ rows, normalizeGraphIdentity row.alias_ = some row.normalizedAlias := by
    intro row member
    have made := (readable.aliases row ((mem_rows row).mp member).1).2
    exact (aliasRow?_eq_some made).2.2.1
  refine ⟨rows, rfl, mem_rows, ?_, ?_⟩
  · change (rows.map fun row => row.alias_).map normalizeGraphIdentity = _
    rw [List.map_map]
    exact List.map_congr_left spells
  · have distinct : rows.Nodup :=
      (List.mergeSort_perm own _).nodup_iff.mpr (db.aliases.nodup_rows.filter _)
    apply distinct.map_on
    intro a ha b hb same
    obtain ⟨stored_a, own_a⟩ := (mem_rows a).mp ha
    obtain ⟨stored_b, own_b⟩ := (mem_rows b).mp hb
    obtain ⟨-, -, -, id_a⟩ := aliasRow?_eq_some (readable.aliases a stored_a).2
    obtain ⟨-, -, -, id_b⟩ := aliasRow?_eq_some (readable.aliases b stored_b).2
    rw [own_a, Option.some.inj same, ← own_b, id_b] at id_a
    exact Table.eq_of_key stored_a stored_b (Option.some.inj id_a).symm

theorem length_loadAliases_le {entityId : UUID} {names : List String}
    (covers : ∀ row ∈ db.aliases.rows, row.entityId = entityId → row.normalizedAlias ∈ names) :
    (loadAliases db entityId).length ≤ names.dedup.length := by
  obtain ⟨rows, loaded, mem_rows, -, distinct⟩ := map_loadAliases readable entityId
  have keys : (rows.map fun row => row.normalizedAlias).Nodup := by
    apply List.Nodup.of_map some
    rw [List.map_map]
    exact distinct
  have inside : rows.map (fun row => row.normalizedAlias) ⊆ names.dedup := by
    intro name member
    obtain ⟨row, listed, rfl⟩ := List.mem_map.mp member
    obtain ⟨stored, own⟩ := (mem_rows row).mp listed
    exact List.mem_dedup.mpr (covers row stored own)
  have shorter := (keys.subperm inside).length_le
  rw [List.length_map] at shorter
  rw [loaded, List.length_map]
  exact shorter

/-- A stored entity is read exactly if it has not more spellings than a read entity may have. -/
theorem entityDto_total_iff {row : GraphEntityRow} (stored : row ∈ db.entities.rows) :
    (∃ entity, entityDto db row = .ok entity) ↔
      (loadAliases db row.entityId).length ≤ MAX_GRAPH_ALIASES := by
  unfold entityDto
  rw [GraphRagReadEntityFields.create_total_iff]
  constructor
  · intro valid
    exact valid.2.2.2.2.1
  · intro bounded
    have named := readable.entities row stored
    obtain ⟨rows, loaded, mem_rows, normalized, distinct⟩ := map_loadAliases readable row.entityId
    obtain ⟨spelled, known, own, key⟩ := readable.keyed row stored
    have inside : some row.normalizedKey ∈ rows.map fun alias_ => some alias_.normalizedAlias :=
      List.mem_map.mpr ⟨spelled, (mem_rows spelled).mpr ⟨known, own⟩, congrArg some key⟩
    refine ⟨named.key_length, named.display, named.key, ?_, bounded, ?_, ?_, ?_, named.id⟩
    · intro none_left
      have no_rows : rows = [] := List.map_eq_nil_iff.mp (loaded.symm.trans none_left)
      rw [no_rows] at inside
      exact List.not_mem_nil inside
    · intro alias_ member
      obtain ⟨found, listed, rfl⟩ := List.mem_map.mp (loaded ▸ member)
      exact (readable.aliases found ((mem_rows found).mp listed).1).1
    · rw [normalized]
      exact distinct
    · rw [normalized]
      exact inside

/-- The evidence of a claim is built without complaint. -/
theorem evidence_total (scope : RetrievalScope) (limit : Nat) (claimId : UUID) :
    ∃ evidence, (rankedEvidence db scope limit claimId).mapM GraphEvidenceFields.create =
        .ok evidence ∧
      (evidence.map fun row => row.toGraphEvidenceFields) =
        rankedEvidence db scope limit claimId := by
  have valid : ∀ row ∈ rankedEvidence db scope limit claimId, row.Valid :=
    fun row member => readable.evidence row (mem_of_mem_ranked member).1
  obtain ⟨evidence, built⟩ := mapM_total fun row member =>
    ⟨_, GraphEvidenceFields.create_of_valid (valid row member)⟩
  refine ⟨evidence, built, ?_⟩
  have beside := forall₂_of_mapM built
  clear built
  generalize rankedEvidence db scope limit claimId = items at beside valid
  induction beside with
  | nil => rfl
  | cons made _ ih =>
      rw [GraphEvidenceFields.create_of_valid (valid _ List.mem_cons_self)] at made
      cases made
      rw [List.map_cons, ih fun row member => valid row (List.mem_cons_of_mem _ member)]

end Reading

omit [Normalization] in
/-- The best of some probabilities is finite. -/
theorem bestConfidence_finite {evidence : List GraphEvidenceFields}
    (probable : ∀ row ∈ evidence, row.confidence.isFinite = true) :
    (bestConfidence evidence).isFinite = true := by
  cases evidence with
  | nil => rfl
  | cons first rest =>
      apply List.foldlRecOn (motive := fun best : FloatValue => best.isFinite = true) rest
      · exact probable first List.mem_cons_self
      · intro best finite row member
        split
        · exact probable row (List.mem_cons_of_mem _ member)
        · exact finite

omit [Normalization] in
theorem isFinite_of_isProbability {value : FloatValue} (probable : isProbability value = true) :
    value.isFinite = true := by
  cases value with
  | finite x => rfl
  | _ => cases probable

section Claims

variable {db : GraphDatabase} {request : GraphRagReadRequest}

/-- A claim that is found is built exactly if both its entities can be. -/
theorem claimDto_total_iff (readable : db.Readable) {item : SelectedClaim}
    (found : Found db request item.toJoinedClaim) (distance : 1 ≤ item.distance)
    (limits : 1 ≤ request.evidencePerClaim.toNat ∧
      request.evidencePerClaim.toNat ≤ MAX_GRAPH_RAG_EVIDENCE_PER_CLAIM)
    {evidence : List GraphRagReadEvidence}
    (rows : (evidence.map fun row => row.toGraphEvidenceFields) = rankedEvidence db request.scope
      request.evidencePerClaim.toNat item.claim.claimId) :
    (∃ claim, claimDto db item evidence = .ok claim) ↔
      ∀ entity ∈ [item.subject, item.object],
        (loadAliases db entity.entityId).length ≤ MAX_GRAPH_ALIASES := by
  obtain ⟨stored_subject, subject_id⟩ := Table.get?_eq_some.mp found.subject
  obtain ⟨stored_object, object_id⟩ := Table.get?_eq_some.mp found.object
  have some_evidence : evidence ≠ [] := by
    rintro rfl
    exact ranked_ne_nil limits.1 found.visible rows.symm
  rw [List.forall_mem_cons, List.forall_mem_singleton, ← entityDto_total_iff readable stored_subject,
    ← entityDto_total_iff readable stored_object]
  unfold claimDto
  rw [if_neg some_evidence]
  constructor
  · rintro ⟨claim, built⟩
    rw [bind_eq_ok] at built
    obtain ⟨subject, first, built⟩ := built
    rw [bind_eq_ok] at built
    obtain ⟨object, second, -⟩ := built
    exact ⟨⟨subject, first⟩, object, second⟩
  · rintro ⟨⟨subject, first⟩, object, second⟩
    have subject_fields := GraphRagReadEntityFields.create_ok first
    have object_fields := GraphRagReadEntityFields.create_ok second
    obtain ⟨bounded, predicate, named⟩ := readable.claims item.claim found.claim
    -- The rows joined to a claim are those of its series.
    have series : ∀ row ∈ db.entities.rows,
        row.entityId ∈ [item.claim.subjectEntityId, item.claim.objectEntityId] →
        row.seriesId = item.claim.seriesId := by
      intro row stored endpoint
      obtain ⟨other, known, same, own⟩ := readable.joined item.claim found.claim _ endpoint
      rw [Table.eq_of_key stored known same.symm]
      exact own
    have probable : ∀ row ∈ rankedEvidence db request.scope request.evidencePerClaim.toNat
        item.claim.claimId, row.confidence.isFinite = true := by
      intro row member
      have valid := readable.evidence row (mem_of_mem_ranked member).1
      exact isFinite_of_isProbability valid.2.2.1
    have each : ∀ row ∈ evidence, row.claimId = item.claim.claimId := by
      intro row member
      have ranked := List.mem_map_of_mem (f := fun row => row.toGraphEvidenceFields) member
      rw [rows] at ranked
      exact (mem_of_mem_ranked ranked).2.1
    have ids : (evidence.map fun row => row.evidenceId).Nodup := by
      have distinct : (List.map _ (rankedEvidence db request.scope request.evidencePerClaim.toNat
        item.claim.claimId)).Nodup := nodup_ranked
      rw [← rows, List.map_map] at distinct
      exact distinct
    have length_le : evidence.length ≤ MAX_GRAPH_RAG_EVIDENCE_PER_CLAIM := by
      have ranked : (rankedEvidence db request.scope request.evidencePerClaim.toNat
        item.claim.claimId).length ≤ _ := length_ranked_le
      rw [← rows, List.length_map] at ranked
      exact le_trans ranked limits.2
    rw [first, ok_bind, second, ok_bind, GraphRagReadClaimFields.create_of_valid]
    · exact ⟨_, rfl⟩
    · refine ⟨?_, ?_, bounded, predicate, ?_, ?_, some_evidence, length_le, ids, ?_, ?_⟩
      · rw [subject_fields]
        exact series _ stored_subject (by simp [subject_id])
      · rw [object_fields]
        exact series _ stored_object (by simp [object_id])
      · exact Int.ofNat_le.mpr distance
      · rw [rows]
        exact bestConfidence_finite probable
      · exact fun row member => ⟨each row member, row.valid.2.2.2.2⟩
      · rw [subject_fields, object_fields]
        change IdentifierGenerator.graphClaimId _ _ item.subject.entityId _ item.object.entityId _ = _
        rw [show item.subject.entityId = _ from subject_id,
          show item.object.entityId = _ from object_id]
        exact named

/-- Entities of the claims that a request selects. -/
def Touched (db : GraphDatabase) (request : GraphRagReadRequest) (entity : GraphEntityRow) : Prop :=
  ∃ normalized, request.seedTerms.mapM normalizeGraphIdentity = some normalized ∧
    ∃ item ∈ selectClaims db request
      (resolveSeedEntities db request.scope.seriesId normalized request.maxFrontier.toNat),
      entity ∈ [item.subject, item.object]

theorem loadEvidence_total (readable : db.Readable) (request : GraphRagReadRequest)
    (item : SelectedClaim) : ∃ pair, loadEvidence db request item = .ok pair ∧ pair.1 = item ∧
      pair.2.map (fun row => row.toGraphEvidenceFields) = rankedEvidence db request.scope
        request.evidencePerClaim.toNat item.claim.claimId := by
  obtain ⟨evidence, built, rows⟩ := evidence_total readable request.scope
    request.evidencePerClaim.toNat item.claim.claimId
  refine ⟨(item, evidence), ?_, rfl, rows⟩
  rw [loadEvidence, built]
  rfl

/-- What is selected is built exactly if all its entities can be. -/
theorem build_total_iff (readable : db.Readable)
    (limits : 1 ≤ request.evidencePerClaim.toNat ∧
      request.evidencePerClaim.toNat ≤ MAX_GRAPH_RAG_EVIDENCE_PER_CLAIM)
    {selected : List SelectedClaim}
    (found : ∀ item ∈ selected, Found db request item.toJoinedClaim ∧ 1 ≤ item.distance) :
    (∃ claims, build db request selected = .ok claims) ↔
      ∀ item ∈ selected, ∀ entity ∈ [item.subject, item.object],
        (loadAliases db entity.entityId).length ≤ MAX_GRAPH_ALIASES := by
  unfold build
  obtain ⟨pairs, loaded⟩ := mapM_total fun item (_ : item ∈ selected) =>
    (loadEvidence_total readable request item).imp fun _ h => h.1
  have dto : ∀ pair ∈ pairs, (∃ claim, claimDto db pair.1 pair.2 = .ok claim) ↔
      ∀ entity ∈ [pair.1.subject, pair.1.object],
        (loadAliases db entity.entityId).length ≤ MAX_GRAPH_ALIASES := by
    intro pair member
    obtain ⟨item, inside, made⟩ := exists_of_mem_mapM loaded member
    obtain ⟨other, same, own, rows⟩ := loadEvidence_total readable request item
    cases made.symm.trans same
    obtain ⟨joined, distance⟩ := found item inside
    rw [own]
    exact claimDto_total_iff readable joined distance limits rows
  rw [loaded, ok_bind]
  constructor
  · rintro ⟨claims, built⟩ item inside
    rw [bind_eq_ok] at built
    obtain ⟨values, mapped, -⟩ := built
    obtain ⟨pair, member, made⟩ := exists_mem_of_mapM loaded inside
    obtain ⟨other, same, own, -⟩ := loadEvidence_total readable request item
    cases made.symm.trans same
    obtain ⟨claim, -, one⟩ := exists_mem_of_mapM mapped member
    rw [← own]
    exact (dto pair member).mp ⟨claim, one⟩
  · intro bounded
    obtain ⟨values, mapped⟩ := mapM_total fun pair member => by
      obtain ⟨item, inside, made⟩ := exists_of_mem_mapM loaded member
      obtain ⟨other, same, own, -⟩ := loadEvidence_total readable request item
      cases made.symm.trans same
      exact (dto pair member).mpr (own ▸ bounded item inside)
    exact ⟨_, by rw [mapped]; rfl⟩

/-- A valid request is answered exactly if no entity it touches has too many spellings. -/
theorem read_total_iff (readable : db.Readable) (valid : validateRequest request = .ok ()) :
    (∃ claims, read db request = .ok claims) ↔ ∀ entity, Touched db request entity →
      (loadAliases db entity.entityId).length ≤ MAX_GRAPH_ALIASES := by
  have checked := valid
  unfold validateRequest at checked
  rw [reject_bind_eq_ok, reject_bind_eq_ok, bind_eq_ok] at checked
  obtain ⟨-, -, normalized, seeds, checked⟩ := checked
  simp only [reject_bind_eq_ok, reject_eq_ok, not_or] at checked
  obtain ⟨-, -, -, positive, -, -, evidence_max, -⟩ := checked
  have one_le : 1 ≤ request.evidencePerClaim := by
    by_contra small
    exact positive ⟨_, by simp, Int.not_le.mp small⟩
  have limits : 1 ≤ request.evidencePerClaim.toNat ∧
      request.evidencePerClaim.toNat ≤ MAX_GRAPH_RAG_EVIDENCE_PER_CLAIM := by
    omega
  have spelled : request.seedTerms.mapM normalizeGraphIdentity = some normalized :=
    orRaise_eq_ok.mp seeds
  have found : ∀ item ∈ selectClaims db request (resolveSeedEntities db request.scope.seriesId
      normalized request.maxFrontier.toNat), Found db request item.toJoinedClaim ∧
      1 ≤ item.distance := fun item member => found_of_mem_select member
  have touched : (∀ entity, Touched db request entity →
      (loadAliases db entity.entityId).length ≤ MAX_GRAPH_ALIASES) ↔
      ∀ item ∈ selectClaims db request (resolveSeedEntities db request.scope.seriesId normalized
        request.maxFrontier.toNat), ∀ entity ∈ [item.subject, item.object],
        (loadAliases db entity.entityId).length ≤ MAX_GRAPH_ALIASES := by
    constructor
    · intro bounded item member entity endpoint
      exact bounded entity ⟨normalized, spelled, item, member, endpoint⟩
    · rintro bounded entity ⟨other, same, item, member, endpoint⟩
      cases spelled.symm.trans same
      exact bounded item member entity endpoint
  rw [touched]
  unfold read
  rw [valid, ok_bind]
  split
  · rename_i empty
    refine iff_of_true ⟨[], rfl⟩ ?_
    intro item member
    obtain ⟨row, -, -, -, visible, inside, -⟩ := (found item member).1.visible
    rw [empty] at inside
    exact absurd inside List.not_mem_nil
  · rw [seeds, ok_bind]
    exact build_total_iff readable limits found

end Claims

end SqlAlchemyGraphClaimReader

namespace GraphReplacement

open GraphDatabase SqlAlchemyGraphClaimStore

/-- A call that is committed. -/
def store (db : GraphDatabase) (call : GraphReplacement) : Option GraphDatabase :=
  if Succeeds db call then some (serve db call) else none

/-- The normal forms of the spellings that an entity has behind a call. -/
def spellings (db : GraphDatabase) (entity : GraphEntity) : List String :=
  let stored := db.aliases.rows.filter fun row => row.entityId = entity.entityId
  (stored.map fun row => row.normalizedAlias) ++ entity.aliases.filterMap normalizeGraphIdentity

/-- The call leaves none of its entities with more spellings than can be read. -/
def Roomy (db : GraphDatabase) (call : GraphReplacement) : Prop :=
  ∀ entity ∈ call.entities, (spellings db entity).dedup.length ≤ MAX_GRAPH_ALIASES

/-- No stored entity has more spellings than can be read. -/
def Bounded (db : GraphDatabase) : Prop := ∀ row ∈ db.entities.rows,
  (SqlAlchemyGraphClaimReader.loadAliases db row.entityId).length ≤ MAX_GRAPH_ALIASES

open SqlAlchemyGraphClaimReader in
theorem Bounded.serve {db : GraphDatabase} {call : GraphReplacement} (readable : db.Readable)
    (bounded : Bounded db) (roomy : Roomy db call) (succeeds : Succeeds db call) :
    Bounded (serve db call) := by
  have after := readable.serve succeeds
  obtain ⟨checked, full, merged, same⟩ := succeeds_iff.mp succeeds
  have mem_aliases : ∀ row, row ∈ (SqlAlchemyGraphClaimStore.serve db call).aliases.rows ↔
      row ∈ call.aliasRows ∨ row ∈ db.aliases.rows := by
    intro row
    rw [same]
    exact merged.mem_aliases
  have mem_entities : ∀ row, row ∈ (SqlAlchemyGraphClaimStore.serve db call).entities.rows ↔
      row ∈ call.entityRows ∨ row ∈ db.entities.rows := by
    intro row
    rw [same]
    exact merged.mem_entities
  intro row member
  by_cases sent : ∃ entity ∈ call.entities, entity.entityId = row.entityId
  · obtain ⟨entity, inside, own⟩ := sent
    apply le_trans (length_loadAliases_le after _) (roomy entity inside)
    intro alias_ stored belongs
    apply List.mem_append.mpr
    rcases (mem_aliases alias_).mp stored with new | old
    · obtain ⟨other, known, spelled, listed, made⟩ := mem_aliasRows.mp new
      obtain ⟨other_own, -, normalized, -⟩ := aliasRow?_eq_some made
      have one : other = entity := List.inj_on_of_nodup_map (check_ok.mp checked).entities known
        inside (other_own.symm.trans (belongs.trans own.symm))
      exact .inr (List.mem_filterMap.mpr ⟨spelled, one ▸ listed, normalized⟩)
    · apply Or.inl
      apply List.mem_map_of_mem
      exact List.mem_filter.mpr ⟨old, decide_eq_true (belongs.trans own.symm)⟩
  · have stored : row ∈ db.entities.rows := by
      rcases (mem_entities row).mp member with new | old
      · obtain ⟨entity, inside, rfl⟩ := List.mem_map.mp new
        exact absurd ⟨entity, inside, rfl⟩ sent
      · exact old
    obtain ⟨rows, loaded, mem_rows, -, -⟩ := map_loadAliases readable row.entityId
    have length_eq : (loadAliases db row.entityId).length =
        (rows.map fun row => row.normalizedAlias).length := by
      rw [loaded, List.length_map, List.length_map]
    calc (loadAliases (SqlAlchemyGraphClaimStore.serve db call) row.entityId).length
      _ ≤ (rows.map fun row => row.normalizedAlias).dedup.length := by
        apply length_loadAliases_le after
        intro alias_ present belongs
        rcases (mem_aliases alias_).mp present with new | old
        · obtain ⟨other, known, spelled, -, made⟩ := mem_aliasRows.mp new
          exact absurd ⟨other, known, (aliasRow?_eq_some made).1.symm.trans belongs⟩ sent
        · exact List.mem_map_of_mem ((mem_rows alias_).mpr ⟨old, belongs⟩)
      _ ≤ (rows.map fun row => row.normalizedAlias).length := (List.dedup_sublist _).length_le
      _ = (loadAliases db row.entityId).length := length_eq.symm
      _ ≤ MAX_GRAPH_ALIASES := bounded row stored

theorem store_eq_some {db after : GraphDatabase} {call : GraphReplacement} :
    store db call = some after ↔ Succeeds db call ∧ serve db call = after := by
  unfold store
  split
  · rename_i succeeds
    exact ⟨fun same => ⟨succeeds, Option.some.inj same⟩, fun h => congrArg some h.2⟩
  · rename_i refused
    exact iff_of_false (fun h => by cases h) fun h => refused h.1

theorem readable_of_run {C : GraphDatabase → GraphReplacement → Prop} {db : GraphDatabase}
    (run : Run store C .empty db) : db.Readable := by
  apply run.invariant Readable.empty
  intro before after call readable _ taken
  obtain ⟨succeeds, rfl⟩ := store_eq_some.mp taken
  exact readable.serve succeeds

/-- Whatever the store accepted, a valid request is answered if and only if no entity it touches
has too many spellings; and in a run whose calls leave room for the spellings of their entities,
every valid request is answered. -/
theorem stored_graph_readable :
    (∀ db, Run store (fun _ _ => True) .empty db → ∀ request,
      SqlAlchemyGraphClaimReader.validateRequest request = .ok () →
      ((∃ claims, SqlAlchemyGraphClaimReader.read db request = .ok claims) ↔
        ∀ entity, SqlAlchemyGraphClaimReader.Touched db request entity →
          (SqlAlchemyGraphClaimReader.loadAliases db entity.entityId).length ≤
            MAX_GRAPH_ALIASES)) ∧
    ∀ db, Run store Roomy .empty db → ∀ request,
      SqlAlchemyGraphClaimReader.validateRequest request = .ok () →
      ∃ claims, SqlAlchemyGraphClaimReader.read db request = .ok claims := by
  constructor
  · intro db run request valid
    exact SqlAlchemyGraphClaimReader.read_total_iff (readable_of_run run) valid
  · intro db run request valid
    have bounded : db.Readable ∧ Bounded db := by
      apply run.invariant ⟨.empty, fun _ member => absurd member List.not_mem_nil⟩
      rintro before after call ⟨readable, bounded⟩ roomy taken
      obtain ⟨succeeds, rfl⟩ := store_eq_some.mp taken
      exact ⟨readable.serve succeeds, bounded.serve readable roomy succeeds⟩
    apply (SqlAlchemyGraphClaimReader.read_total_iff bounded.1 valid).mpr
    rintro entity ⟨normalized, -, item, member, endpoint⟩
    have found := (SqlAlchemyGraphClaimReader.found_of_mem_select member).1
    apply bounded.2
    rcases List.mem_pair.mp endpoint with rfl | rfl
    · exact (Table.get?_eq_some.mp found.subject).1
    · exact (Table.get?_eq_some.mp found.object).1

end GraphReplacement

end Stored

namespace GraphSamples

attribute [local instance] Normalization.ascii

open CatalogueSamples Digest GraphDatabase GraphReplacement SqlAlchemyGraphClaimReader SqlAlchemyGraphClaimStore

/-- Spellings that are their own normal forms. -/
def names : List String :=
  ["asha", "a", "b", "c", "d", "e", "f", "g", "h", "i", "j", "k", "l", "m", "n", "o", "p", "q", "r",
    "s", "t", "u", "v", "w", "x", "y", "z", "aa", "ab", "ac", "ad", "ae", "af"]

/-- The first block of the texts that alias identifiers of the entity are derived from. -/
def firstBytes : List Nat :=
  [107, 167, 184, 17, 157, 173, 17, 209, 128, 180, 0, 192, 79, 212, 48, 200, 99, 105, 110, 101, 103,
    114, 97, 112, 104, 58, 103, 114, 97, 112, 104, 45, 101, 110, 116, 105, 116, 121, 45, 97, 108,
    105, 97, 115, 58, 52, 57, 99, 50, 56, 100, 102, 102, 45, 55, 101, 54, 99, 45, 53, 50, 50, 57, 45]

def restBytes : List Nat :=
  [98, 52, 101, 55, 45, 55, 52, 48, 51, 100, 101, 97, 51, 50, 57, 100, 57, 58]

theorem ashaBytes_eq : toDigits 256 16 IdentifierGenerator.NAMESPACE.int.toNat ++
    utf8 ("cinegraph:graph-entity-alias:" ++ asha.entityId.str ++ ":") =
      firstBytes ++ restBytes := by
  rw [utf8_append, utf8_append, UUID.str, utf8_ofList]
  decide +kernel

def spellingId (name : String) : UUID :=
  let s := compress (compress ⟨0x67452301, 0xEFCDAB89, 0x98BADCFE, 0x10325476, 0xC3D2E1F0⟩
    firstBytes) (secondBlock (restBytes ++ utf8 name))
  .version5 ([s.a, s.b, s.c, s.d, s.e].foldl (fun n w => 2 ^ 32 * n + w.toNat) 0)

def spelled (name : String) : GraphEntityAliasRow := ⟨spellingId name, asha.entityId, name, name⟩

theorem aliasRow?_spelled {name : String} (member : name ∈ names) :
    aliasRow? asha.entityId name = some (spelled name) := by
  have normal : ∀ name ∈ names, normalizeGraphIdentity name = some name := by decide
  have short : ∀ name ∈ names, (utf8 name).length ≤ 30 := by decide
  have rest : (restBytes ++ utf8 name).length ≤ 55 := by
    have := short name member
    have : restBytes.length = 18 := rfl
    rw [List.length_append]
    omega
  have id : IdentifierGenerator.NAMESPACE.uuid5
      ("cinegraph:graph-entity-alias:" ++ asha.entityId.str ++ ":" ++ name) = spellingId name := by
    rw [UUID.uuid5, utf8_append, ← List.append_assoc, ashaBytes_eq, List.append_assoc,
      sha1_append rfl rest]
    rfl
  simp only [aliasRow?, IdentifierGenerator.graphEntityAliasId, normal name member,
    Option.bind_eq_bind, Option.bind_some, id]
  rfl

def spellingRows : List GraphEntityAliasRow := bridgeAlias :: names.map spelled

theorem spellingRows_agree {a b : GraphEntityAliasRow} (ha : a ∈ spellingRows)
    (hb : b ∈ spellingRows) : Table.Agree GraphEntityAliasRow.aliasId a b := by
  have distinct : (bridgeAlias.aliasId :: names.map spellingId).Nodup := by decide +kernel
  have ids : (spellingRows.map GraphEntityAliasRow.aliasId).Nodup := by
    rw [spellingRows, List.map_cons, List.map_map]
    exact distinct
  exact List.inj_on_of_nodup_map ids ha hb

def early : GraphEntity where
  entityId := asha.entityId
  seriesId := asha.seriesId
  kind := asha.kind
  normalizedKey := "asha"
  displayName := "asha"
  aliases := names.take 17
  valid := by decide +kernel

def late : GraphEntity where
  entityId := asha.entityId
  seriesId := asha.seriesId
  kind := asha.kind
  normalizedKey := "asha"
  displayName := "asha"
  aliases := "asha" :: names.drop 17
  valid := by decide +kernel

def extractionOf (entity : GraphEntity) : GraphReplacement :=
  ⟨⟨30⟩, none, [entity, bridge], [standsOn], [first]⟩

/-- The entity under some of the spellings. -/
structure Spelt (entity : GraphEntity) : Prop where
  row : entityRow entity = entityRow early
  listed : ∀ alias_ ∈ entity.aliases, alias_ ∈ names

theorem spelt_early : Spelt early := ⟨rfl, fun _ member => List.mem_of_mem_take member⟩

theorem spelt_late : Spelt late := by
  refine ⟨rfl, fun name member => ?_⟩
  rcases List.mem_cons.mp member with rfl | behind
  · exact List.mem_cons_self
  · exact List.mem_of_mem_drop behind

section Batches

variable {entity : GraphEntity} (spelt : Spelt entity)
include spelt

theorem entityId_eq : entity.entityId = asha.entityId :=
  congrArg (fun row => row.entityId) spelt.row

theorem extractionOf_checked : (extractionOf entity).check = .ok () := by
  have id := entityId_eq spelt
  have series : entity.seriesId = asha.seriesId := congrArg (fun row => row.seriesId) spelt.row
  have kind : entity.kind = asha.kind := congrArg (fun row => row.kind) spelt.row
  have key : entity.normalizedKey = asha.normalizedKey :=
    congrArg (fun row => row.normalizedKey) spelt.row
  apply GraphReplacement.check_ok.mpr
  have entityIds : ([entity.entityId, bridge.entityId] : List UUID).Nodup := by
    rw [id]
    decide
  have joined : ∀ endpoint ∈ [standsOn.subjectEntityId, standsOn.objectEntityId],
      ∃ e ∈ [entity, bridge], e.entityId = endpoint ∧ e.seriesId = standsOn.seriesId := by
    intro endpoint member
    rcases List.mem_pair.mp member with rfl | rfl
    · exact ⟨entity, List.mem_cons_self, id, series⟩
    · exact ⟨bridge, List.mem_cons_of_mem _ List.mem_cons_self, rfl, rfl⟩
  refine ⟨(fun h => nomatch h), entityIds, ?_, List.nodup_singleton _, ?_, ?_,
    List.nodup_singleton _, ?_, List.nodup_singleton _, fun _ => Iff.rfl⟩
  · intro e member
    rcases List.mem_pair.mp member with rfl | rfl
    · rw [id, series, kind, key]
      exact asha_id
    · exact bridge_id
  · intro claim member
    cases List.mem_singleton.mp member
    exact ⟨standsOn_id, joined⟩
  · intro endpoint
    change endpoint ∈ [asha.entityId, bridge.entityId] ↔ endpoint ∈ [entity.entityId, _]
    rw [id]
  · intro item member
    cases List.mem_singleton.mp member
    exact ⟨first_id, rfl, standsOn, List.mem_singleton_self _, rfl, rfl, rfl⟩

theorem aliasRows_extractionOf : ∀ row, row ∈ (extractionOf entity).aliasRows ↔
    row = bridgeAlias ∨ ∃ name ∈ entity.aliases, row = spelled name := by
  intro row
  rw [mem_aliasRows]
  change (∃ e ∈ [entity, bridge], _) ↔ _
  rw [List.exists_mem_cons_iff, List.exists_mem_cons_iff]
  simp only [List.not_mem_nil, false_and, exists_false, or_false, entityId_eq spelt]
  constructor
  · rintro (⟨name, member, made⟩ | ⟨name, member, made⟩)
    · rw [aliasRow?_spelled (spelt.listed name member)] at made
      exact .inr ⟨name, member, (Option.some.inj made).symm⟩
    · cases List.mem_singleton.mp member
      exact .inl (Option.some.inj (bridge_alias.symm.trans made)).symm
  · rintro (rfl | ⟨name, member, rfl⟩)
    · exact .inr ⟨"Bridge", List.mem_singleton_self _, bridge_alias⟩
    · exact .inl ⟨name, member, aliasRow?_spelled (spelt.listed name member)⟩

theorem named_extractionOf : ∀ e ∈ (extractionOf entity).entities, ∀ alias_ ∈ e.aliases,
    (aliasRow? e.entityId alias_).isSome := by
  intro e member alias_ spelled_
  rcases List.mem_pair.mp member with rfl | rfl
  · rw [entityId_eq spelt, aliasRow?_spelled (spelt.listed alias_ spelled_)]
    rfl
  · cases List.mem_singleton.mp spelled_
    rw [bridge_alias]
    rfl

theorem aliasRows_subset : ∀ row ∈ (extractionOf entity).aliasRows, row ∈ spellingRows := by
  intro row member
  rcases (aliasRows_extractionOf spelt row).mp member with rfl | ⟨name, inside, rfl⟩
  · exact List.mem_cons_self
  · exact List.mem_cons_of_mem _ (List.mem_map_of_mem (spelt.listed name inside))

/-- The batch is consistent with every database that has nothing else under its identifiers. -/
theorem consistent_extractionOf {db : GraphDatabase}
    (entities : ∀ row ∈ db.entities.rows, row ∈ (extractionOf early).entityRows)
    (aliases : ∀ row ∈ db.aliases.rows, row ∈ spellingRows)
    (claims : ∀ row ∈ db.claims.rows, row ∈ (extractionOf early).claimRows) :
    Consistent db (extractionOf entity) := by
  have entity_rows : (extractionOf entity).entityRows = (extractionOf early).entityRows :=
    congrArg (fun row => [row, entityRow bridge]) spelt.row
  have entity_table : ∀ a ∈ (extractionOf early).entityRows,
      ∀ b ∈ (extractionOf early).entityRows, Table.Agree GraphEntityRow.entityId a b := by
    change ∀ a ∈ [entityRow early, entityRow bridge], ∀ b ∈ [entityRow early, entityRow bridge],
      a.entityId = b.entityId → a = b
    decide
  refine ⟨extractionOf_checked spelt, named_extractionOf spelt, ?_, ?_, ?_⟩
  · apply Table.exists_merge
    rw [entity_rows]
    intro row member other place
    exact entity_table other (place.elim id (entities other)) row member
  · apply Table.exists_merge
    intro row member other place
    exact spellingRows_agree (place.elim (aliasRows_subset spelt other) (aliases other))
      (aliasRows_subset spelt row member)
  · apply Table.exists_merge
    intro row member other place
    cases List.mem_singleton.mp member
    exact fun _ => List.mem_singleton.mp (place.elim id (claims other))

end Batches

theorem early_succeeds : Succeeds .empty (extractionOf early) := by
  have none_stored {α : Type} {a : α} {P : Prop} (member : a ∈ ([] : List α)) : P :=
    absurd member List.not_mem_nil
  have consistent : Consistent .empty (extractionOf early) := consistent_extractionOf spelt_early
    (fun _ => none_stored) (fun _ => none_stored) (fun _ => none_stored)
  exact consistent.succeeds_iff.mpr fun _ _ _ => none_stored

/-- The database behind the second batch. -/
def crowded : GraphDatabase := serve (serve .empty (extractionOf early)) (extractionOf late)

/-- A batch without a version to retire adds its rows, and no claim goes. -/
theorem mem_serve {db : GraphDatabase} {entity : GraphEntity}
    (succeeds : Succeeds db (extractionOf entity))
    (claims : ∀ row ∈ db.claims.rows, row ∈ (extractionOf entity).claimRows) :
    (∀ row, row ∈ (serve db (extractionOf entity)).entities.rows ↔
      row ∈ (extractionOf entity).entityRows ∨ row ∈ db.entities.rows) ∧
    (∀ row, row ∈ (serve db (extractionOf entity)).aliases.rows ↔
      row ∈ (extractionOf entity).aliasRows ∨ row ∈ db.aliases.rows) ∧
    (∀ row, row ∈ (serve db (extractionOf entity)).claims.rows ↔
      row ∈ (extractionOf entity).claimRows) ∧
    ∀ row, row ∈ (serve db (extractionOf entity)).evidence.rows ↔
      row ∈ (extractionOf entity).evidenceRows ∨ row ∈ db.evidence.rows := by
  have evidence : ∀ row, row ∈ (serve db (extractionOf entity)).evidence.rows ↔
      row ∈ (extractionOf entity).evidenceRows ∨ row ∈ db.evidence.rows := by
    intro row
    rw [mem_evidence_serve succeeds]
    exact and_iff_left fun retired => nomatch retired
  obtain ⟨checked, full, merged, same⟩ := succeeds_iff.mp succeeds
  refine ⟨fun row => ?_, fun row => ?_, fun row => ?_, evidence⟩
  · rw [same]
    exact merged.mem_entities
  · rw [same]
    exact merged.mem_aliases
  · constructor
    · intro member
      rw [same] at member
      exact (merged.mem_claims.mp (mem_removeOrphans_claims member)).elim id (claims row)
    · intro member
      have supported : first.toGraphEvidenceFields ∈
          (serve db (extractionOf entity)).evidence.rows :=
        (evidence _).mpr (.inl (List.mem_singleton_self _))
      rw [same] at supported ⊢
      refine Table.mem_filter.mpr ⟨merged.mem_claims.mpr (.inl member), ?_⟩
      cases List.mem_singleton.mp member
      exact List.any_eq_true.mpr ⟨_, supported, decide_eq_true rfl⟩

/-- What the first batch leaves. -/
theorem stored_early : (∀ row ∈ (serve .empty (extractionOf early)).entities.rows,
      row ∈ (extractionOf early).entityRows) ∧
    (∀ row ∈ (serve .empty (extractionOf early)).aliases.rows,
      row ∈ (extractionOf early).aliasRows) ∧
    (∀ row ∈ (serve .empty (extractionOf early)).claims.rows,
      row ∈ (extractionOf early).claimRows) ∧
    ∀ row ∈ (serve .empty (extractionOf early)).evidence.rows,
      row ∈ (extractionOf early).evidenceRows := by
  obtain ⟨entities, aliases, claims, evidence⟩ :=
    mem_serve early_succeeds fun _ member => absurd member List.not_mem_nil
  refine ⟨fun row member => ?_, fun row member => ?_, fun row => (claims row).mp,
    fun row member => ?_⟩
  · exact ((entities row).mp member).elim id fun none_left => absurd none_left List.not_mem_nil
  · exact ((aliases row).mp member).elim id fun none_left => absurd none_left List.not_mem_nil
  · exact ((evidence row).mp member).elim id fun none_left => absurd none_left List.not_mem_nil

theorem late_succeeds : Succeeds (serve .empty (extractionOf early)) (extractionOf late) := by
  obtain ⟨entities, aliases, claims, evidence⟩ := stored_early
  have consistent := consistent_extractionOf spelt_late entities
    (fun row member => aliasRows_subset spelt_early row (aliases row member)) claims
  apply consistent.succeeds_iff.mpr
  intro row member old stored
  cases List.mem_singleton.mp member
  exact fun _ => List.mem_singleton.mp (evidence old stored)

theorem run_crowded {C : GraphDatabase → GraphReplacement → Prop} (meets : ∀ db call, C db call) :
    Run store C .empty crowded := by
  have one : Run store C .empty (serve .empty (extractionOf early)) :=
    .next .start (meets _ (extractionOf early)) (store_eq_some.mpr ⟨early_succeeds, rfl⟩)
  exact one.next (meets _ (extractionOf late)) (store_eq_some.mpr ⟨late_succeeds, rfl⟩)

/-- The rows behind both batches. -/
structure Crowded (db : GraphDatabase) : Prop where
  entities : ∀ row, row ∈ db.entities.rows ↔ row ∈ (extractionOf early).entityRows
  listed : ∀ name ∈ names, spelled name ∈ db.aliases.rows
  aliases : ∀ row ∈ db.aliases.rows, row ∈ spellingRows
  claims : ∀ row, row ∈ db.claims.rows ↔ row ∈ (extractionOf early).claimRows
  evidence : first.toGraphEvidenceFields ∈ db.evidence.rows

theorem crowded_rows : Crowded crowded := by
  unfold crowded
  obtain ⟨entities, aliases, claims, evidence⟩ :=
    mem_serve late_succeeds stored_early.2.2.1
  have first_aliases := (mem_serve early_succeeds fun _ member => absurd member List.not_mem_nil).2.1
  have split : ∀ name ∈ names, name ∈ early.aliases ∨ name ∈ late.aliases := by
    have parts : names.take 17 ++ names.drop 17 = names := List.take_append_drop 17 names
    intro name member
    rw [← parts] at member
    rcases List.mem_append.mp member with inside | inside
    · exact .inl inside
    · exact .inr (List.mem_cons_of_mem "asha" inside)
  have entity_rows : (extractionOf late).entityRows = (extractionOf early).entityRows :=
    congrArg (fun row => [row, entityRow bridge]) spelt_late.row
  have claim_rows : ∀ entity, (extractionOf entity).claimRows = [standsOn.toGraphClaimFields] :=
    fun _ => rfl
  rw [entity_rows] at entities
  rw [claim_rows late, ← claim_rows early] at claims
  refine ⟨fun row => ?_, fun name member => ?_, fun row member => ?_, claims,
    (evidence _).mpr (.inl List.mem_cons_self)⟩
  · constructor
    · exact fun member => ((entities row).mp member).elim id (stored_early.1 row)
    · exact fun member => (entities row).mpr (.inl member)
  · apply (aliases _).mpr
    rcases split name member with inside | inside
    · apply Or.inr
      apply (first_aliases _).mpr
      exact .inl ((aliasRows_extractionOf spelt_early _).mpr (.inr ⟨name, inside, rfl⟩))
    · exact .inl ((aliasRows_extractionOf spelt_late _).mpr (.inr ⟨name, inside, rfl⟩))
  · rcases (aliases row).mp member with new | old
    · exact aliasRows_subset spelt_late row new
    · exact aliasRows_subset spelt_early row (stored_early.2.1 row old)

def pilotScope : RetrievalScope where
  seriesId := ⟨1⟩
  episodeScopes := [.full pilot]
  episodes_series := by decide
  episodes_unique := by decide

/-- What is said about the entity in the pilot. -/
def aboutAsha : GraphRagReadRequest := ⟨pilotScope, ["asha"], [], 1, 50, 10, 100⟩

theorem aboutAsha_valid : validateRequest aboutAsha = .ok () := by decide

theorem normalized_asha : aboutAsha.seedTerms.mapM normalizeGraphIdentity = some ["asha"] := by
  decide +kernel

theorem visible_first : Visible pilotScope first.toGraphEvidenceFields := by decide

section Crowd

variable {db : GraphDatabase} (rows : Crowded db)
include rows

/-- The entity is the only one the seed names. -/
theorem asha_mem_seeds : asha.entityId ∈ resolveSeedEntities db ⟨1⟩ ["asha"] 100 := by
  obtain ⟨entities, listed, aliases, -, -⟩ := rows
  have known : db.entities.get? asha.entityId = some (entityRow early) :=
    Table.get?_eq_some.mpr ⟨(entities _).mpr List.mem_cons_self, rfl⟩
  unfold resolveSeedEntities
  let named := db.aliases.rows.filter fun row => row.normalizedAlias ∈ ["asha"] ∧
    (db.entities.get? row.entityId).any fun entity => entity.seriesId = ⟨1⟩
  let entityIds : List UUID := named.map fun row => row.entityId
  change asha.entityId ∈ ((entityIds.mergeSort fun a b => decide (a ≤ b)).take 100).dedup
  have some_row : spelled "asha" ∈ named := by
    refine List.mem_filter.mpr ⟨listed "asha" List.mem_cons_self, decide_eq_true ⟨?_, ?_⟩⟩
    · exact List.mem_cons_self
    · rw [show (spelled "asha").entityId = asha.entityId from rfl, known]
      rfl
  have only : ∀ id ∈ entityIds, id = asha.entityId := by
    intro id member
    obtain ⟨row, inside, rfl⟩ := List.mem_map.mp member
    obtain ⟨stored, test⟩ := List.mem_filter.mp inside
    rcases List.mem_cons.mp (aliases row stored) with rfl | spelling
    · have other : bridgeAlias.normalizedAlias ∉ ["asha"] := by decide
      exact absurd (of_decide_eq_true test).1 other
    · obtain ⟨name, -, rfl⟩ := List.mem_map.mp spelling
      rfl
  cases front : (entityIds.mergeSort fun a b => decide (a ≤ b)).take 100 with
  | nil =>
      rcases List.take_eq_nil_iff.mp front with no_limit | no_row
      · cases no_limit
      · have sorted : asha.entityId ∈ entityIds.mergeSort fun a b => decide (a ≤ b) :=
          List.mem_mergeSort.mpr (List.mem_map.mpr ⟨_, some_row, rfl⟩)
        rw [no_row] at sorted
        exact absurd sorted List.not_mem_nil
  | cons id rest =>
      have member : id ∈ (entityIds.mergeSort fun a b => decide (a ≤ b)).take 100 := by
        rw [front]
        exact List.mem_cons_self
      have same := only id (List.mem_mergeSort.mp (List.mem_of_mem_take member))
      rw [List.mem_dedup, ← same]
      exact List.mem_cons_self

/-- What is selected for the request: the claim, between the two entities. -/
theorem touched_asha : Touched db aboutAsha (entityRow early) := by
  refine ⟨["asha"], normalized_asha, ?_⟩
  change ∃ item ∈ selectClaims db aboutAsha (resolveSeedEntities db ⟨1⟩ ["asha"] 100), _
  have seeds := asha_mem_seeds rows
  obtain ⟨entities, -, -, claims, evidence⟩ := rows
  generalize resolveSeedEntities db ⟨1⟩ ["asha"] 100 = seedIds at seeds
  have one_claim : db.claims.rows = [standsOn.toGraphClaimFields] := by
    have same : db.claims = ⟨[standsOn.toGraphClaimFields], List.pairwise_singleton _ _⟩ :=
      Table.ext_mem claims
    rw [same]
  let row : JoinedClaim := ⟨standsOn.toGraphClaimFields, entityRow early, entityRow bridge⟩
  have joined : joinEntities db standsOn.toGraphClaimFields = some row := by
    refine joinEntities_eq_some.mpr ⟨rfl, ?_, ?_⟩
    · exact Table.get?_eq_some.mpr ⟨(entities _).mpr List.mem_cons_self, rfl⟩
    · exact Table.get?_eq_some.mpr
        ⟨(entities _).mpr (List.mem_cons_of_mem _ List.mem_cons_self), rfl⟩
  have loaded : loadFrontierClaims db pilotScope seedIds [] [] 50 = [row] := by
    unfold loadFrontierClaims
    rw [one_claim, List.filter_cons_of_pos, List.filter_nil]
    · change ([standsOn.toGraphClaimFields].filterMap (joinEntities db)).take 50 = _
      rw [List.filterMap_cons_some joined]
      rfl
    · apply decide_eq_true
      exact ⟨rfl, rfl, .inl seeds, ⟨_, evidence, rfl, visible_first⟩, .inl rfl, List.not_mem_nil⟩
  have some_seed : seedIds ≠ [] := List.ne_nil_of_mem seeds
  have selected : selectClaims db aboutAsha seedIds = [⟨row, 1⟩] := by
    have room : ¬(seedIds = [] ∨ aboutAsha.claimLimit - ((0 : Nat) : Int) ≤ 0) :=
      not_or.mpr ⟨some_seed, by decide⟩
    have one_hop : SqlAlchemyGraphClaimReader.traverse db aboutAsha 1 1
        ⟨[], seedIds, seedIds⟩ = hop db aboutAsha 1 ⟨[], seedIds, seedIds⟩ := if_neg room
    change (SqlAlchemyGraphClaimReader.traverse db aboutAsha 1 1
      ⟨[], seedIds, seedIds⟩).selected = _
    rw [one_hop]
    change ((loadFrontierClaims db pilotScope seedIds [] [] 50).foldl (visit aboutAsha 1)
      ⟨[], seedIds, []⟩).selected = _
    rw [loaded, List.foldl_cons, List.foldl_nil, visit_selected]
    exact if_neg List.not_mem_nil
  rw [selected]
  exact ⟨_, List.mem_cons_self, List.mem_cons_self⟩

theorem many_spellings : MAX_GRAPH_ALIASES < (loadAliases db asha.entityId).length := by
  have listed := rows.listed
  have length_names : names.length = 33 := rfl
  have distinct : (names.map spelled).Nodup := by
    have plain : names.Nodup := by decide
    exact plain.map fun a b same => congrArg (fun row => row.alias_) same
  unfold loadAliases
  rw [List.length_map, List.length_mergeSort]
  have inside : names.map spelled ⊆
      db.aliases.rows.filter fun row => row.entityId = asha.entityId := by
    intro row member
    obtain ⟨name, known, rfl⟩ := List.mem_map.mp member
    exact List.mem_filter.mpr ⟨listed name known, decide_eq_true rfl⟩
  have longer := (distinct.subperm inside).length_le
  rw [List.length_map, length_names] at longer
  exact longer

end Crowd

/-- Two accepted batches give an entity 33 spellings, and a valid request about it raises. -/
theorem crowded_entity_unreadable : Run store (fun _ _ => True) .empty crowded ∧
    validateRequest aboutAsha = .ok () ∧ ¬∃ claims, read crowded aboutAsha = .ok claims := by
  have run : Run store (fun _ _ => True) .empty crowded := run_crowded fun _ _ => trivial
  refine ⟨run, aboutAsha_valid, ?_⟩
  intro answered
  have bounded := (read_total_iff (readable_of_run run) aboutAsha_valid).mp answered _
    (touched_asha crowded_rows)
  have crowd := many_spellings crowded_rows
  change (loadAliases crowded asha.entityId).length ≤ MAX_GRAPH_ALIASES at bounded
  omega

/-- The first batch alone leaves room. -/
theorem early_roomy : Roomy .empty (extractionOf early) := by
  intro entity member
  have few : entity.aliases.length ≤ 17 := by
    rcases List.mem_pair.mp member with rfl | rfl
    · exact List.length_take_le _ _
    · decide
  calc (spellings .empty entity).dedup.length
    _ ≤ (entity.aliases.filterMap normalizeGraphIdentity).length :=
      (List.dedup_sublist _).length_le
    _ ≤ entity.aliases.length := List.length_filterMap_le _ _
    _ ≤ 17 := few
    _ ≤ MAX_GRAPH_ALIASES := by decide

theorem run_early {C : GraphDatabase → GraphReplacement → Prop}
    (meets : C .empty (extractionOf early)) : Run store C .empty (serve .empty (extractionOf early)) :=
  .next .start meets (store_eq_some.mpr ⟨early_succeeds, rfl⟩)

/-- Behind the first batch alone, the request is answered. -/
theorem stored_graph_readable_sample :
    ∃ claims, read (serve .empty (extractionOf early)) aboutAsha = .ok claims := by
  obtain ⟨-, answered⟩ := stored_graph_readable
  exact answered _ (run_early early_roomy) aboutAsha aboutAsha_valid

end GraphSamples

end Cinegraph
