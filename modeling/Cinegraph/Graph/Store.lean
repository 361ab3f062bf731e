import Cinegraph.Graph.Models
import Cinegraph.Library.Exec
import Cinegraph.Library.Table

/-!
The store of the claim graph: four tables, and the transaction that replaces
what a source version says. Rows are keyed by identifiers derived from their
content; a row that is there already must be the same.
-/

namespace Cinegraph

open Library

open GraphErrorMessages

structure GraphEntityRow where
  entityId : UUID
  seriesId : UUID
  kind : GraphEntityKind
  normalizedKey : String
  displayName : String
  deriving DecidableEq

structure GraphEntityAliasRow where
  aliasId : UUID
  entityId : UUID
  alias_ : String
  normalizedAlias : String
  deriving DecidableEq

structure GraphDatabase where
  entities : Table GraphEntityRow.entityId
  aliases : Table GraphEntityAliasRow.aliasId
  claims : Table GraphClaimFields.claimId
  evidence : Table GraphEvidenceFields.evidenceId

def GraphDatabase.empty : GraphDatabase := ⟨.empty, .empty, .empty, .empty⟩

variable [Normalization]

/-- The arguments of `replace_source_version`. -/
structure GraphReplacement where
  newSourceVersionId : UUID
  retiredSourceVersionId : Option UUID
  entities : List GraphEntity
  claims : List GraphClaim
  evidence : List GraphClaimEvidence

def entityRow (entity : GraphEntity) : GraphEntityRow :=
  ⟨entity.entityId, entity.seriesId, entity.kind, entity.normalizedKey, entity.displayName⟩

/-- The row of an alias, where its normal forms exist. -/
def aliasRow? (entityId : UUID) (alias_ : String) : Option GraphEntityAliasRow := do
  let normalizedAlias ← normalizeGraphIdentity alias_
  let aliasId ← IdentifierGenerator.graphEntityAliasId entityId normalizedAlias
  some ⟨aliasId, entityId, alias_, normalizedAlias⟩

namespace GraphReplacement

variable (call : GraphReplacement)

def entityRows : List GraphEntityRow := call.entities.map entityRow

def aliasRows : List GraphEntityAliasRow :=
  call.entities.flatMap fun entity => entity.aliases.filterMap (aliasRow? entity.entityId)

def claimRows : List GraphClaimFields := call.claims.map fun claim => claim.toGraphClaimFields

def evidenceRows : List GraphEvidenceFields :=
  call.evidence.map fun item => item.toGraphEvidenceFields

/-- The claim has the identifier of its content and joins two entities of its series. -/
def ClaimFits (claim : GraphClaim) : Prop :=
  IdentifierGenerator.graphClaimId claim.extractionRevision claim.seriesId claim.subjectEntityId
      claim.predicate claim.objectEntityId claim.polarity = some claim.claimId ∧
    ∀ id ∈ [claim.subjectEntityId, claim.objectEntityId],
      ∃ entity ∈ call.entities, entity.entityId = id ∧ entity.seriesId = claim.seriesId

instance (claim : GraphClaim) : Decidable (call.ClaimFits claim) :=
  inferInstanceAs (Decidable (_ ∧ _))

/-- The evidence has the identifier of its content and supports a claim of the batch. -/
def EvidenceFits (item : GraphClaimEvidence) : Prop :=
  item.evidenceId = IdentifierGenerator.graphEvidenceId item.claimId item.sourceVersionId
      item.transcriptChunkId ∧
    item.sourceVersionId = call.newSourceVersionId ∧
    ∃ claim ∈ call.claims, claim.claimId = item.claimId ∧
      item.episode.seriesId = claim.seriesId ∧ item.extractionRevision = claim.extractionRevision

instance (item : GraphClaimEvidence) : Decidable (call.EvidenceFits item) :=
  inferInstanceAs (Decidable (_ ∧ _))

/-- `_validate_batch`. -/
def validateBatch : Except Raised Unit := do
  let entityIds : List UUID := call.entities.map fun entity => entity.entityId
  reject (¬entityIds.Nodup ∨ ∃ entity ∈ call.entities, IdentifierGenerator.graphEntityId
    entity.seriesId entity.kind entity.normalizedKey ≠ some entity.entityId) ENTITY_FIELDS_INVALID
  let claimIds : List UUID := call.claims.map fun claim => claim.claimId
  reject (¬claimIds.Nodup ∨ ∃ claim ∈ call.claims, ¬call.ClaimFits claim) CLAIM_FIELDS_INVALID
  let referenced : List UUID :=
    call.claims.flatMap fun claim => [claim.subjectEntityId, claim.objectEntityId]
  reject (¬(referenced ⊆ entityIds ∧ entityIds ⊆ referenced)) STORE_BATCH_INVALID
  reject (¬(call.evidence.map fun item => item.evidenceId).Nodup ∨
    (∃ item ∈ call.evidence, ¬call.EvidenceFits item) ∨
    ¬(call.evidence.map fun item =>
      (item.claimId, item.sourceVersionId, item.transcriptChunkId)).Nodup) EVIDENCE_FIELDS_INVALID
  let supported : List UUID := call.evidence.map fun item => item.claimId
  reject (¬(supported ⊆ claimIds ∧ claimIds ⊆ supported)) STORE_BATCH_INVALID

/-- What is checked before the transaction begins. -/
def check : Except Raised Unit := do
  reject (call.retiredSourceVersionId = some call.newSourceVersionId) REPLACEMENT_INVALID
  call.validateBatch

/-- What holds of a batch that is checked. -/
structure Checked : Prop where
  distinct : call.retiredSourceVersionId ≠ some call.newSourceVersionId
  entities : (call.entities.map fun entity => entity.entityId).Nodup
  entity_ids : ∀ entity ∈ call.entities, IdentifierGenerator.graphEntityId
    entity.seriesId entity.kind entity.normalizedKey = some entity.entityId
  claims : (call.claims.map fun claim => claim.claimId).Nodup
  claims_fit : ∀ claim ∈ call.claims, call.ClaimFits claim
  referenced : ∀ id, id ∈ call.claims.flatMap (fun claim =>
    [claim.subjectEntityId, claim.objectEntityId]) ↔ id ∈ call.entities.map fun e => e.entityId
  evidence : (call.evidence.map fun item => item.evidenceId).Nodup
  evidence_fits : ∀ item ∈ call.evidence, call.EvidenceFits item
  once : (call.evidence.map fun item =>
    (item.claimId, item.sourceVersionId, item.transcriptChunkId)).Nodup
  supported : ∀ id, id ∈ call.evidence.map (fun item => item.claimId) ↔
    id ∈ call.claims.map fun claim => claim.claimId

theorem check_ok {call : GraphReplacement} : call.check = .ok () ↔ call.Checked := by
  unfold check validateBatch
  simp only [reject_bind_eq_ok, reject_eq_ok, not_or, not_not]
  simp only [not_exists, not_and, not_not]
  constructor
  · rintro ⟨distinct, ⟨entities, ids⟩, ⟨claims, fits⟩, ⟨known, used⟩, ⟨evidence, own, once⟩,
      claimed, supported⟩
    exact ⟨distinct, entities, ids, claims, fits, fun id => ⟨fun h => known h, fun h => used h⟩,
      evidence, own, once, fun id => ⟨fun h => claimed h, fun h => supported h⟩⟩
  · intro h
    exact ⟨h.distinct, ⟨h.entities, h.entity_ids⟩, ⟨h.claims, h.claims_fit⟩,
      ⟨fun id => (h.referenced id).mp, fun id => (h.referenced id).mpr⟩,
      ⟨h.evidence, h.evidence_fits, h.once⟩,
      fun id => (h.supported id).mp, fun id => (h.supported id).mpr⟩

end GraphReplacement

namespace GraphDatabase

/-- `session.get`, then `session.add` or the comparison with the row that is there. -/
def putRow {κ ν : Type} [LinearOrder κ] [DecidableEq ν] {key : ν → κ} (message : String)
    (table : Table key) (row : ν) : Except Raised (Table key) :=
  orRaise (table.put row) (valueError message)

def addAlias (entityId : UUID) (aliases : Table GraphEntityAliasRow.aliasId) (alias_ : String) :
    Except Raised (Table GraphEntityAliasRow.aliasId) := do
  let row ← orRaise (aliasRow? entityId alias_) (valueError NORMALIZATION_INVALID)
  putRow ALIAS_METADATA_CONFLICT aliases row

/-- One turn of the loop over the entities. -/
def addEntity (db : GraphDatabase) (entity : GraphEntity) : Except Raised GraphDatabase := do
  let entities ← putRow ENTITY_METADATA_CONFLICT db.entities (entityRow entity)
  let aliases ← entity.aliases.foldlM (addAlias entity.entityId) db.aliases
  return { db with entities := entities, aliases := aliases }

def addEntities (entities : List GraphEntity) (db : GraphDatabase) :
    Except Raised GraphDatabase := entities.foldlM addEntity db

def addClaims (claims : List GraphClaim) (db : GraphDatabase) : Except Raised GraphDatabase := do
  let table ← claims.foldlM (fun table claim =>
    putRow CLAIM_METADATA_CONFLICT table claim.toGraphClaimFields) db.claims
  return { db with claims := table }

def addEvidence (evidence : List GraphClaimEvidence) (db : GraphDatabase) :
    Except Raised GraphDatabase := do
  let table ← evidence.foldlM (fun table item =>
    putRow EVIDENCE_METADATA_CONFLICT table item.toGraphEvidenceFields) db.evidence
  return { db with evidence := table }

/-- The evidence of the retired version goes. -/
def retire (retiredSourceVersionId : Option UUID) (db : GraphDatabase) : GraphDatabase :=
  let kept (row : GraphEvidenceFields) : Bool := some row.sourceVersionId ≠ retiredSourceVersionId
  { db with evidence := db.evidence.filter kept }

/-- Claims without evidence go, of whatever version they were. -/
def removeOrphans (db : GraphDatabase) : GraphDatabase :=
  let supported (claim : GraphClaimFields) : Bool :=
    db.evidence.rows.any fun row => row.claimId = claim.claimId
  { db with claims := db.claims.filter supported }

section Loops

omit [Normalization] in
theorem foldlM_putRow {α κ ν : Type} [LinearOrder κ] [DecidableEq ν] {key : ν → κ}
    {message : String} (f : α → ν) {items : List α} {table result : Table key} :
    items.foldlM (fun table item => putRow message table (f item)) table = .ok result ↔
      table.merge (items.map f) = some result := by
  induction items generalizing table with
  | nil => simp [pure, Except.pure]
  | cons item items ih =>
      rw [List.foldlM_cons, bind_eq_ok, List.map_cons, Table.merge_cons, Option.bind_eq_some_iff]
      simp only [ih]
      simp only [putRow, orRaise_eq_ok]

theorem foldlM_addAlias {entityId : UUID} {items : List String}
    {table result : Table GraphEntityAliasRow.aliasId} :
    items.foldlM (addAlias entityId) table = .ok result ↔
      (∀ alias_ ∈ items, (aliasRow? entityId alias_).isSome) ∧
        table.merge (items.filterMap (aliasRow? entityId)) = some result := by
  induction items generalizing table with
  | nil => simp [pure, Except.pure]
  | cons item items ih =>
      rw [List.foldlM_cons, bind_eq_ok, List.forall_mem_cons]
      simp only [addAlias, bind_eq_ok, orRaise_eq_ok, putRow]
      cases named : aliasRow? entityId item with
      | none => simp
      | some row =>
          rw [List.filterMap_cons_some named, Table.merge_cons, Option.bind_eq_some_iff]
          simp only [Option.some.injEq, exists_eq_left', ih, Option.isSome_some, true_and]
          constructor
          · rintro ⟨next, one, rest, more⟩
            exact ⟨rest, next, one, more⟩
          · rintro ⟨rest, next, one, more⟩
            exact ⟨next, one, rest, more⟩

end Loops

/-- The rows of a call added to the tables, before anything is deleted. -/
structure Merged (db : GraphDatabase) (call : GraphReplacement) (full : GraphDatabase) : Prop where
  named : ∀ entity ∈ call.entities, ∀ alias_ ∈ entity.aliases,
    (aliasRow? entity.entityId alias_).isSome
  entities : db.entities.merge call.entityRows = some full.entities
  aliases : db.aliases.merge call.aliasRows = some full.aliases
  claims : db.claims.merge call.claimRows = some full.claims
  evidence : db.evidence.merge call.evidenceRows = some full.evidence

theorem addEntities_ok {entities : List GraphEntity} {db after : GraphDatabase} :
    addEntities entities db = .ok after ↔
      (∀ entity ∈ entities, ∀ alias_ ∈ entity.aliases,
        (aliasRow? entity.entityId alias_).isSome) ∧
      db.entities.merge (entities.map entityRow) = some after.entities ∧
      db.aliases.merge (entities.flatMap fun entity =>
        entity.aliases.filterMap (aliasRow? entity.entityId)) = some after.aliases ∧
      after.claims = db.claims ∧ after.evidence = db.evidence := by
  unfold addEntities
  induction entities generalizing db with
  | nil =>
      simp only [List.foldlM_nil, List.map_nil, List.flatMap_nil, Table.merge_nil, Option.some.injEq]
      constructor
      · intro same
        cases same
        exact ⟨fun _ member => absurd member List.not_mem_nil, rfl, rfl, rfl, rfl⟩
      · rintro ⟨-, entities, aliases, claims, evidence⟩
        cases db
        cases after
        cases entities
        cases aliases
        cases claims
        cases evidence
        rfl
  | cons entity entities ih =>
      rw [List.foldlM_cons, bind_eq_ok, List.forall_mem_cons, List.map_cons, Table.merge_cons,
        List.flatMap_cons, Table.merge_append, Option.bind_eq_some_iff, Option.bind_eq_some_iff]
      simp only [ih, addEntity, bind_eq_ok, foldlM_addAlias, putRow, orRaise_eq_ok]
      constructor
      · rintro ⟨next, ⟨table, put, aliases, ⟨named, merged⟩, made⟩, rest, more, others, claims,
          evidence⟩
        cases made
        exact ⟨⟨named, rest⟩, ⟨table, put, more⟩, ⟨aliases, merged, others⟩, claims, evidence⟩
      · rintro ⟨⟨named, rest⟩, ⟨table, put, more⟩, ⟨aliases, merged, others⟩, claims, evidence⟩
        exact ⟨_, ⟨table, put, aliases, ⟨named, merged⟩, rfl⟩, rest, more, others, claims, evidence⟩

theorem addClaims_ok {claims : List GraphClaim} {db after : GraphDatabase} :
    addClaims claims db = .ok after ↔ ∃ table, db.claims.merge (claims.map fun claim =>
      claim.toGraphClaimFields) = some table ∧ after = { db with claims := table } := by
  unfold addClaims
  rw [bind_eq_ok]
  simp only [foldlM_putRow (fun claim : GraphClaim => claim.toGraphClaimFields)]
  refine exists_congr fun table => and_congr_right fun _ => ?_
  exact ⟨fun same => by cases same; rfl, fun same => by rw [same]; rfl⟩

omit [Normalization] in
theorem addEvidence_ok {evidence : List GraphClaimEvidence} {db after : GraphDatabase} :
    addEvidence evidence db = .ok after ↔ ∃ table, db.evidence.merge (evidence.map fun item =>
      item.toGraphEvidenceFields) = some table ∧ after = { db with evidence := table } := by
  unfold addEvidence
  rw [bind_eq_ok]
  simp only [foldlM_putRow (fun item : GraphClaimEvidence => item.toGraphEvidenceFields)]
  refine exists_congr fun table => and_congr_right fun _ => ?_
  exact ⟨fun same => by cases same; rfl, fun same => by rw [same]; rfl⟩

end GraphDatabase

namespace SqlAlchemyGraphClaimStore

open GraphDatabase

/-- Work on the tables up to the next flush. -/
def flush (work : GraphDatabase → Except Raised GraphDatabase) : Exec GraphDatabase Raised Unit := do
  let db ← get
  set (← Exec.lift (work db))

/-- `_replace`, inside the transaction. -/
def replace (call : GraphReplacement) : Exec GraphDatabase Raised Unit := do
  flush (addEntities call.entities)
  flush (addClaims call.claims)
  flush (addEvidence call.evidence)
  flush fun db => .ok (removeOrphans (retire call.retiredSourceVersionId db))

def replaceSourceVersion (call : GraphReplacement) : Exec GraphDatabase Raised Unit := do
  Exec.lift call.check
  let before ← get
  Exec.rollback (replace call) fun _ => before

/-- The database behind a call, whether it was committed or rolled back. -/
def serve (db : GraphDatabase) (call : GraphReplacement) : GraphDatabase :=
  ((replaceSourceVersion call).run db).2

/-- The tables at the end of a transaction that raises nowhere. -/
def replaced (db : GraphDatabase) (call : GraphReplacement) : Except Raised GraphDatabase := do
  let db ← addEntities call.entities db
  let db ← addClaims call.claims db
  let db ← addEvidence call.evidence db
  return removeOrphans (retire call.retiredSourceVersionId db)

/-- A transaction comes to its end when the rows of the call can be added. -/
theorem replaced_ok {db after : GraphDatabase} {call : GraphReplacement} :
    replaced db call = .ok after ↔ ∃ full, Merged db call full ∧
      after = removeOrphans (retire call.retiredSourceVersionId full) := by
  unfold replaced
  rw [bind_eq_ok]
  constructor
  · rintro ⟨first, entities, run⟩
    rw [bind_eq_ok] at run
    obtain ⟨second, claims, run⟩ := run
    rw [bind_eq_ok] at run
    obtain ⟨third, evidence, run⟩ := run
    cases run
    obtain ⟨named, merged_entities, merged_aliases, same_claims, same_evidence⟩ :=
      addEntities_ok.mp entities
    obtain ⟨claim_table, merged_claims, rfl⟩ := addClaims_ok.mp claims
    obtain ⟨evidence_table, merged_evidence, rfl⟩ := addEvidence_ok.mp evidence
    rw [same_claims] at merged_claims
    simp only [same_evidence] at merged_evidence
    refine ⟨⟨first.entities, first.aliases, claim_table, evidence_table⟩, ?_, rfl⟩
    exact ⟨named, merged_entities, merged_aliases, merged_claims, merged_evidence⟩
  · rintro ⟨full, merged, rfl⟩
    refine ⟨⟨full.entities, full.aliases, db.claims, db.evidence⟩,
      addEntities_ok.mpr ⟨merged.named, merged.entities, merged.aliases, rfl, rfl⟩, ?_⟩
    rw [bind_eq_ok]
    refine ⟨_, addClaims_ok.mpr ⟨full.claims, merged.claims, rfl⟩, ?_⟩
    rw [bind_eq_ok]
    exact ⟨_, addEvidence_ok.mpr ⟨full.evidence, merged.evidence, rfl⟩, rfl⟩

omit [Normalization] in
@[simp] theorem run_flush (work : GraphDatabase → Except Raised GraphDatabase)
    (db : GraphDatabase) :
    (flush work).run db = match work db with
      | .ok after => (.ok (), after)
      | .error error => (.error error, db) := by
  unfold flush
  rw [Exec.run_bind, Exec.run_get]
  simp only
  rw [Exec.run_bind]
  cases work db with
  | ok after => rfl
  | error error => rfl

/-- Where the transaction raises, some of its flushes are behind it. -/
theorem run_replace (db : GraphDatabase) (call : GraphReplacement) :
    ∃ left, (replace call).run db = match replaced db call with
      | .ok after => (.ok (), after)
      | .error error => (.error error, left) := by
  unfold replaced replace
  simp only [Exec.run_bind, run_flush]
  cases addEntities call.entities db with
  | error error => exact ⟨db, rfl⟩
  | ok first =>
      simp only [ok_bind]
      cases addClaims call.claims first with
      | error error => exact ⟨first, rfl⟩
      | ok second =>
          simp only [ok_bind]
          cases addEvidence call.evidence second with
          | error error => exact ⟨second, rfl⟩
          | ok third => exact ⟨third, rfl⟩

/-- A call commits what its transaction comes to, or raises and leaves the database as it was. -/
theorem run_replaceSourceVersion (db : GraphDatabase) (call : GraphReplacement) :
    (replaceSourceVersion call).run db =
      match call.check >>= fun _ => replaced db call with
      | .ok after => (.ok (), after)
      | .error error => (.error error, db) := by
  unfold replaceSourceVersion
  rw [Exec.run_bind]
  cases call.check with
  | error error => rfl
  | ok checked =>
      obtain ⟨left, run⟩ := run_replace db call
      simp only [Exec.run_lift_ok, Exec.run_bind, Exec.run_get, Exec.run_rollback, ok_bind, run]
      cases replaced db call with
      | ok after => rfl
      | error error => rfl

end SqlAlchemyGraphClaimStore

end Cinegraph
