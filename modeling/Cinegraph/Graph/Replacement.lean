import Cinegraph.Graph.Store
import Cinegraph.Library.Run

/-!
Replacing what a source version says. A call adds its evidence to what is
stored, so it replaces exactly when everything stored for the version is in the
batch again.
-/

namespace Cinegraph

open Library

namespace GraphReplacement

open GraphDatabase SqlAlchemyGraphClaimStore

variable [Normalization]

/-- The call is committed. -/
def Succeeds (db : GraphDatabase) (call : GraphReplacement) : Prop :=
  ((replaceSourceVersion call).run db).1 = .ok ()

instance (db : GraphDatabase) (call : GraphReplacement) : Decidable (Succeeds db call) :=
  inferInstanceAs (Decidable (_ = _))

/-- The batch passes the checks of the store, and no other row stands under the identifier of one
of its entities, aliases or claims. -/
structure Consistent (db : GraphDatabase) (call : GraphReplacement) : Prop where
  checked : call.check = .ok ()
  named : ∀ entity ∈ call.entities, ∀ alias_ ∈ entity.aliases,
    (aliasRow? entity.entityId alias_).isSome
  entities : ∃ table, db.entities.merge call.entityRows = some table
  aliases : ∃ table, db.aliases.merge call.aliasRows = some table
  claims : ∃ table, db.claims.merge call.claimRows = some table

/-- Everything stored for the new version, and everything stored under an identifier of the batch,
is in the batch. -/
def Covers (db : GraphDatabase) (call : GraphReplacement) : Prop :=
  ∀ row ∈ db.evidence.rows, row.sourceVersionId = call.newSourceVersionId ∨
    row.evidenceId ∈ call.evidenceRows.map GraphEvidenceFields.evidenceId → row ∈ call.evidenceRows

/-- Behind the call the evidence of the new version is that of the batch. -/
def Exact (db : GraphDatabase) (call : GraphReplacement) : Prop :=
  ∀ row, row ∈ (serve db call).evidence.rows ∧ row.sourceVersionId = call.newSourceVersionId ↔
    row ∈ call.evidenceRows

theorem serve_of_error {db : GraphDatabase} {call : GraphReplacement} {error : Raised}
    (raised : ((replaceSourceVersion call).run db).1 = .error error) : serve db call = db := by
  unfold serve
  rw [run_replaceSourceVersion] at raised ⊢
  split at raised
  · cases raised
  · rfl

/-- What a committed call does: its rows are added, then the retired version and the claims without
evidence go. -/
theorem succeeds_iff {db : GraphDatabase} {call : GraphReplacement} :
    Succeeds db call ↔ call.check = .ok () ∧ ∃ full, Merged db call full ∧
      serve db call = removeOrphans (retire call.retiredSourceVersionId full) := by
  unfold Succeeds serve
  rw [run_replaceSourceVersion]
  cases checked : call.check with
  | error error => exact iff_of_false (fun h => by cases h) (fun h => by cases h.1)
  | ok u =>
      rw [ok_bind]
      cases result : replaced db call with
      | error error =>
          refine iff_of_false (fun h => by cases h) ?_
          rintro ⟨-, full, merged, -⟩
          cases (replaced_ok.mpr ⟨full, merged, rfl⟩).symm.trans result
      | ok after =>
          refine iff_of_true rfl ⟨rfl, ?_⟩
          obtain ⟨full, merged, same⟩ := replaced_ok.mp result
          exact ⟨full, merged, same⟩

section Checked

variable {call : GraphReplacement} (checked : call.check = .ok ())
include checked

theorem retired_ne : call.retiredSourceVersionId ≠ some call.newSourceVersionId :=
  (check_ok.mp checked).distinct

theorem evidence_own {row : GraphEvidenceFields} (member : row ∈ call.evidenceRows) :
    row.sourceVersionId = call.newSourceVersionId ∧
      ∃ claim ∈ call.claimRows, claim.claimId = row.claimId := by
  obtain ⟨item, inside, rfl⟩ := List.mem_map.mp member
  obtain ⟨-, own, claim, known, same, -⟩ := (check_ok.mp checked).evidence_fits item inside
  exact ⟨own, claim.toGraphClaimFields, List.mem_map_of_mem known, same⟩

theorem evidence_agree {a b : GraphEvidenceFields} (ha : a ∈ call.evidenceRows)
    (hb : b ∈ call.evidenceRows) (same : a.evidenceId = b.evidenceId) : a = b := by
  obtain ⟨item, first, rfl⟩ := List.mem_map.mp ha
  obtain ⟨other, second, rfl⟩ := List.mem_map.mp hb
  rw [List.inj_on_of_nodup_map (check_ok.mp checked).evidence first second same]

end Checked

section Effect

variable {db : GraphDatabase} {call : GraphReplacement}

/-- A committed call adds the evidence of the batch and deletes that of the retired version. -/
theorem mem_evidence_serve (succeeds : Succeeds db call) {row : GraphEvidenceFields} :
    row ∈ (serve db call).evidence.rows ↔
      (row ∈ call.evidenceRows ∨ row ∈ db.evidence.rows) ∧
        some row.sourceVersionId ≠ call.retiredSourceVersionId := by
  obtain ⟨-, full, merged, same⟩ := succeeds_iff.mp succeeds
  have stored := (Table.merge_eq_some.mp merged.evidence).2
  rw [same]
  change row ∈ (full.evidence.filter _).rows ↔ _
  rw [Table.mem_filter, stored, decide_eq_true_iff]

theorem claims_supported (succeeds : Succeeds db call) :
    ∀ claim ∈ (serve db call).claims.rows,
      ∃ row ∈ (serve db call).evidence.rows, row.claimId = claim.claimId := by
  obtain ⟨-, full, -, same⟩ := succeeds_iff.mp succeeds
  intro claim member
  rw [same] at member ⊢
  have supported := (Table.mem_filter.mp member).2
  rw [List.any_eq_true] at supported
  obtain ⟨row, inside, equal⟩ := supported
  exact ⟨row, inside, of_decide_eq_true equal⟩

theorem Consistent.of_succeeds (succeeds : Succeeds db call) : Consistent db call := by
  obtain ⟨checked, full, merged, -⟩ := succeeds_iff.mp succeeds
  exact ⟨checked, merged.named, ⟨_, merged.entities⟩, ⟨_, merged.aliases⟩, ⟨_, merged.claims⟩⟩

/-- A consistent call can only fail over its evidence. -/
theorem Consistent.succeeds_iff (consistent : Consistent db call) :
    Succeeds db call ↔ ∀ row ∈ call.evidenceRows, ∀ old ∈ db.evidence.rows,
      Table.Agree GraphEvidenceFields.evidenceId old row := by
  rw [GraphReplacement.succeeds_iff]
  constructor
  · rintro ⟨-, full, merged, -⟩ row member old stored
    exact (Table.merge_eq_some.mp merged.evidence).1 row member old (.inr stored)
  · intro agree
    obtain ⟨entities, merged_entities⟩ := consistent.entities
    obtain ⟨aliases, merged_aliases⟩ := consistent.aliases
    obtain ⟨claims, merged_claims⟩ := consistent.claims
    have apart : ∀ row ∈ call.evidenceRows, ∀ other, other ∈ call.evidenceRows ∨
        other ∈ db.evidence.rows → Table.Agree GraphEvidenceFields.evidenceId other row := by
      rintro row member other (own | stored)
      · exact evidence_agree consistent.checked own member
      · exact agree row member other stored
    obtain ⟨evidence, merged_evidence⟩ := Table.exists_merge apart
    have merged : Merged db call ⟨entities, aliases, claims, evidence⟩ :=
      ⟨consistent.named, merged_entities, merged_aliases, merged_claims, merged_evidence⟩
    refine ⟨consistent.checked, _, merged, ?_⟩
    have result := replaced_ok.mpr ⟨_, merged, rfl⟩
    unfold serve
    rw [run_replaceSourceVersion, consistent.checked, ok_bind, result]

/-- A consistent call is committed and replaces the version exactly when it covers what is stored. -/
theorem Consistent.exact_iff (consistent : Consistent db call) :
    Succeeds db call ∧ Exact db call ↔ Covers db call := by
  constructor
  · rintro ⟨succeeds, exact_rows⟩ row stored clash
    rcases clash with own | known
    · apply (exact_rows row).mp
      refine ⟨(mem_evidence_serve succeeds).mpr ⟨.inr stored, ?_⟩, own⟩
      rw [own]
      exact (retired_ne consistent.checked).symm
    · obtain ⟨item, member, same⟩ := List.mem_map.mp known
      have agree := consistent.succeeds_iff.mp succeeds item member row stored same.symm
      exact agree ▸ member
  · intro covers
    have succeeds : Succeeds db call := by
      apply consistent.succeeds_iff.mpr
      intro row member old stored same
      have inside := covers old stored (.inr (List.mem_map.mpr ⟨row, member, same.symm⟩))
      exact evidence_agree consistent.checked inside member same
    refine ⟨succeeds, ?_⟩
    intro row
    rw [mem_evidence_serve succeeds]
    constructor
    · rintro ⟨⟨batch | stored, -⟩, own⟩
      · exact batch
      · exact covers row stored (.inl own)
    · intro member
      have own := (evidence_own consistent.checked member).1
      refine ⟨⟨.inl member, ?_⟩, own⟩
      rw [own]
      exact (retired_ne consistent.checked).symm

/-- Behind a committed call its entities and claims can be sent again, with other evidence. -/
theorem Consistent.again {other : GraphReplacement} (succeeds : Succeeds db call)
    (checked : other.check = .ok ()) (entities : other.entities = call.entities)
    (claims : other.claims = call.claims) : Consistent (serve db call) other := by
  obtain ⟨-, full, merged, same⟩ := GraphReplacement.succeeds_iff.mp succeeds
  have entity_rows : other.entityRows = call.entityRows := by
    unfold entityRows
    rw [entities]
  have alias_rows : other.aliasRows = call.aliasRows := by
    unfold aliasRows
    rw [entities]
  have claim_rows : other.claimRows = call.claimRows := by
    unfold claimRows
    rw [claims]
  refine ⟨checked, entities ▸ merged.named, ?_, ?_, ?_⟩
  · rw [same, entity_rows]
    exact Table.exists_merge_again merged.entities fun _ member => member
  · rw [same, alias_rows]
    exact Table.exists_merge_again merged.aliases fun _ member => member
  · rw [same, claim_rows]
    exact Table.exists_merge_again merged.claims fun _ member => (Table.mem_filter.mp member).1

end Effect

/-- What each version says: the evidence of its last extraction. -/
abbrev Ledger := UUID → Set GraphEvidenceFields

/-- Replacement as it is meant. -/
def record (ledger : Ledger) (call : GraphReplacement) : Ledger := fun version =>
  if version = call.newSourceVersionId then { row | row ∈ call.evidenceRows }
  else if some version = call.retiredSourceVersionId then ∅ else ledger version

structure Extractions where
  db : GraphDatabase
  ledger : Ledger

open Classical in
/-- One call, with the ledger kept beside the database. -/
noncomputable def step (s : Extractions) (call : GraphReplacement) : Option Extractions :=
  some ⟨serve s.db call, if Succeeds s.db call then record s.ledger call else s.ledger⟩

/-- A consistent call that covers what is stored; others are refused. -/
def Complete (s : Extractions) (call : GraphReplacement) : Prop :=
  Consistent s.db call → Covers s.db call

def Refines (s : Extractions) : Prop :=
  ∀ row, row ∈ s.db.evidence.rows ↔ row ∈ s.ledger row.sourceVersionId

theorem refines_step {s t : Extractions} {call : GraphReplacement} (refines : Refines s)
    (complete : Complete s call) (taken : step s call = some t) : Refines t := by
  cases taken
  intro row
  by_cases succeeds : Succeeds s.db call
  · have consistent := Consistent.of_succeeds succeeds
    have exact_rows := (consistent.exact_iff.mpr (complete consistent)).2 row
    rw [if_pos succeeds]
    change row ∈ (serve s.db call).evidence.rows ↔ row ∈ record s.ledger call row.sourceVersionId
    unfold record
    split
    · rename_i own
      exact (and_iff_left own).symm.trans exact_rows
    · rename_i other
      have not_batch : row ∉ call.evidenceRows :=
        fun member => other (evidence_own consistent.checked member).1
      rw [mem_evidence_serve succeeds, or_iff_right not_batch]
      split
      · rename_i retired
        exact iff_of_false (fun h => h.2 retired) (Set.notMem_empty row)
      · rename_i kept
        rw [and_iff_left kept]
        exact refines row
  · rw [if_neg succeeds]
    have unchanged : serve s.db call = s.db := by
      cases outcome : ((replaceSourceVersion call).run s.db).1 with
      | ok u => exact absurd outcome succeeds
      | error error => exact serve_of_error outcome
    rw [unchanged]
    exact refines row

/-- A refused call leaves no trace; a committed one empties the retired version, spares the others
and keeps no claim without evidence. A consistent call is committed and exact if and only if it
covers what is stored, and behind a run of such calls every version says what it last said. -/
theorem replacement_exact_iff :
    (∀ db call error, ((replaceSourceVersion call).run db).1 = .error error →
      serve db call = db) ∧
    (∀ db call, Succeeds db call → Consistent db call ∧
      (∀ row ∈ (serve db call).evidence.rows,
        some row.sourceVersionId ≠ call.retiredSourceVersionId) ∧
      (∀ row, row.sourceVersionId ≠ call.newSourceVersionId →
        some row.sourceVersionId ≠ call.retiredSourceVersionId →
        (row ∈ (serve db call).evidence.rows ↔ row ∈ db.evidence.rows)) ∧
      ∀ claim ∈ (serve db call).claims.rows,
        ∃ row ∈ (serve db call).evidence.rows, row.claimId = claim.claimId) ∧
    (∀ db call, Consistent db call → (Succeeds db call ∧ Exact db call ↔ Covers db call)) ∧
    ∀ s, Run step Complete ⟨.empty, fun _ => ∅⟩ s → Refines s := by
  refine ⟨fun _ _ _ raised => serve_of_error raised, ?_, fun _ _ consistent => consistent.exact_iff,
    ?_⟩
  · intro db call succeeds
    have consistent := Consistent.of_succeeds succeeds
    refine ⟨consistent, ?_, ?_, claims_supported succeeds⟩
    · intro row member
      exact ((mem_evidence_serve succeeds).mp member).2
    · intro row other kept
      have not_batch : row ∉ call.evidenceRows :=
        fun member => other (evidence_own consistent.checked member).1
      rw [mem_evidence_serve succeeds, or_iff_right not_batch, and_iff_left kept]
  · intro s run
    apply run.invariant
    · intro row
      exact iff_of_false List.not_mem_nil (Set.notMem_empty row)
    · intro before after call refines complete taken
      exact refines_step refines complete taken

end GraphReplacement

namespace GraphSamples

open CatalogueSamples

attribute [local instance] Normalization.ascii

def asha : GraphEntity where
  entityId := ⟨0x49c28dff7e6c5229b4e77403dea329d9⟩
  seriesId := ⟨1⟩
  kind := .character
  normalizedKey := "asha"
  displayName := "Asha"
  aliases := ["Asha"]
  valid := by decide +kernel

def bridge : GraphEntity where
  entityId := ⟨0x5048b6f75581509a8f91c5059df4d0ba⟩
  seriesId := ⟨1⟩
  kind := .location
  normalizedKey := "bridge"
  displayName := "Bridge"
  aliases := ["Bridge"]
  valid := by decide +kernel

/-- "Asha stands on the bridge." -/
def standsOn : GraphClaim where
  claimId := ⟨0x42dd7fa496e55d92b836f6f32b4d0488⟩
  seriesId := ⟨1⟩
  subjectEntityId := asha.entityId
  predicate := "stands_on"
  objectEntityId := bridge.entityId
  polarity := .asserted
  valid := by decide +kernel

/-- A chunk of the pilot that supports the claim. -/
def support (evidenceId chunkId : UUID) (confidence : ℚ)
    (unit : 0 ≤ confidence ∧ confidence ≤ 1) : GraphClaimEvidence where
  evidenceId
  claimId := standsOn.claimId
  sourceVersionId := ⟨30⟩
  transcriptChunkId := chunkId
  episode := pilot
  startMs := 1000
  endMs := 2000
  confidence := .finite confidence
  transcriptIndexRevision := TRANSCRIPT_INDEX_REVISION
  extractionRevision := GRAPH_CLAIM_EXTRACTION_REVISION
  rightsStatus := .allowed
  sourceStatus := .active
  reviewStatus := .reviewed
  valid := by
    simp only [GraphEvidenceFields.validate, reject_bind_eq_ok, reject_eq_ok]
    simp [isProbability, isSourceVersionApproved, unit]

def extraction (evidence : List GraphClaimEvidence) : GraphReplacement :=
  ⟨⟨30⟩, none, [asha, bridge], [standsOn], evidence⟩

def first : GraphClaimEvidence := support ⟨0x6398915178ee5efb94d330ee15e51150⟩ ⟨50⟩ 1 (by decide)

def second : GraphClaimEvidence := support ⟨0x8b0d5061982152b4b66098f05b563bc7⟩ ⟨51⟩ 1 (by decide)

def both : GraphReplacement := extraction [first, second]

def dropped : GraphReplacement := extraction [first]

def unsure : GraphReplacement := extraction
  [support first.evidenceId ⟨50⟩ (1 / 2) (by decide +kernel), second]

open GraphReplacement SqlAlchemyGraphClaimStore

theorem entity_ids : ∀ entity ∈ [asha, bridge], IdentifierGenerator.graphEntityId entity.seriesId
    entity.kind entity.normalizedKey = some entity.entityId := by
  decide +kernel

theorem asha_id : IdentifierGenerator.graphEntityId asha.seriesId asha.kind asha.normalizedKey =
    some asha.entityId :=
  entity_ids asha List.mem_cons_self

theorem bridge_id : IdentifierGenerator.graphEntityId bridge.seriesId bridge.kind
    bridge.normalizedKey = some bridge.entityId :=
  entity_ids bridge (List.mem_cons_of_mem _ List.mem_cons_self)

theorem standsOn_id : IdentifierGenerator.graphClaimId standsOn.extractionRevision
    standsOn.seriesId standsOn.subjectEntityId standsOn.predicate standsOn.objectEntityId
    standsOn.polarity = some standsOn.claimId := by
  decide +kernel

example : normalizeGraphIdentity asha.displayName = some asha.normalizedKey := by decide +kernel

def ashaAlias : GraphEntityAliasRow :=
  ⟨⟨0x2ff7dae168fe5af3bed5ba78ee6cc08d⟩, asha.entityId, "Asha", "asha"⟩

def bridgeAlias : GraphEntityAliasRow :=
  ⟨⟨0x5a86b67bc65e55c89a7bca3ee1992caa⟩, bridge.entityId, "Bridge", "bridge"⟩

theorem aliasRow_sample : aliasRow? asha.entityId "Asha" = some ashaAlias ∧
    aliasRow? bridge.entityId "Bridge" = some bridgeAlias := by
  decide +kernel

theorem asha_alias : aliasRow? asha.entityId "Asha" = some ashaAlias := aliasRow_sample.1

theorem bridge_alias : aliasRow? bridge.entityId "Bridge" = some bridgeAlias := aliasRow_sample.2

theorem evidence_ids : ∀ item ∈ [first, second], item.evidenceId =
    IdentifierGenerator.graphEvidenceId standsOn.claimId ⟨30⟩ item.transcriptChunkId := by
  decide +kernel

theorem first_id : first.evidenceId =
    IdentifierGenerator.graphEvidenceId standsOn.claimId ⟨30⟩ ⟨50⟩ :=
  evidence_ids first List.mem_cons_self

theorem second_id : second.evidenceId =
    IdentifierGenerator.graphEvidenceId standsOn.claimId ⟨30⟩ ⟨51⟩ :=
  evidence_ids second (List.mem_cons_of_mem _ List.mem_cons_self)

example : first.evidenceId ≠ second.evidenceId := by decide +kernel

/-- A chunk of the pilot in support of the claim, under its own identifier. -/
def OfPilot (item : GraphClaimEvidence) : Prop := ∃ chunkId confidence unit, item = support
  (IdentifierGenerator.graphEvidenceId standsOn.claimId ⟨30⟩ chunkId) chunkId confidence unit

theorem first_ofPilot : OfPilot first := ⟨⟨50⟩, 1, by decide, by rw [← first_id]; rfl⟩

theorem second_ofPilot : OfPilot second := ⟨⟨51⟩, 1, by decide, by rw [← second_id]; rfl⟩

theorem extraction_checked {evidence : List GraphClaimEvidence} (some_ : evidence ≠ [])
    (ids : (evidence.map fun item => item.evidenceId).Nodup)
    (once : (evidence.map fun item => item.transcriptChunkId).Nodup)
    (ofPilot : ∀ item ∈ evidence, OfPilot item) : (extraction evidence).check = .ok () := by
  have claimed : ∀ item ∈ evidence, item.claimId = standsOn.claimId := by
    intro item member
    obtain ⟨chunkId, confidence, unit, rfl⟩ := ofPilot item member
    rfl
  apply GraphReplacement.check_ok.mpr
  have entityIds : ([asha.entityId, bridge.entityId] : List UUID).Nodup := by decide
  have joined : ∀ id ∈ [standsOn.subjectEntityId, standsOn.objectEntityId],
      ∃ entity ∈ [asha, bridge], entity.entityId = id ∧ entity.seriesId = standsOn.seriesId := by
    decide
  refine ⟨(fun h => nomatch h), entityIds, ?_, List.nodup_singleton _, ?_, ?_, ids, ?_, ?_, ?_⟩
  · intro entity member
    rcases List.mem_pair.mp member with rfl | rfl
    · exact asha_id
    · exact bridge_id
  · intro claim member
    cases List.mem_singleton.mp member
    exact ⟨standsOn_id, joined⟩
  · intro id
    rfl
  · intro item member
    obtain ⟨chunkId, confidence, unit, rfl⟩ := ofPilot item member
    exact ⟨rfl, rfl, standsOn, List.mem_singleton_self _, rfl, rfl, rfl⟩
  · apply List.Nodup.of_map fun triple => triple.2.2
    rw [List.map_map]
    exact once
  · intro id
    change _ ↔ id ∈ [standsOn.claimId]
    rw [List.mem_singleton, List.mem_map]
    constructor
    · rintro ⟨item, member, rfl⟩
      exact claimed item member
    · rintro rfl
      obtain ⟨item, member⟩ := List.exists_mem_of_ne_nil _ some_
      exact ⟨item, member, claimed item member⟩

theorem both_checked : both.check = .ok () := by
  apply extraction_checked (List.cons_ne_nil _ _) (by decide) (by decide)
  intro item member
  rcases List.mem_pair.mp member with rfl | rfl
  · exact first_ofPilot
  · exact second_ofPilot

theorem dropped_checked : dropped.check = .ok () := by
  apply extraction_checked (List.cons_ne_nil _ _) (by decide) (by decide)
  intro item member
  cases List.mem_singleton.mp member
  exact first_ofPilot

theorem unsure_checked : unsure.check = .ok () := by
  apply extraction_checked (List.cons_ne_nil _ _) (by decide) (by decide)
  intro item member
  rcases List.mem_pair.mp member with rfl | rfl
  · exact ⟨⟨50⟩, 1 / 2, by decide +kernel, by rw [← first_id]⟩
  · exact second_ofPilot

theorem both_consistent : Consistent .empty both := by
  refine ⟨both_checked, ?_, ⟨_, rfl⟩, ?_, ⟨_, rfl⟩⟩
  · intro entity member alias_ spelled
    rcases List.mem_pair.mp member with rfl | rfl
    · cases List.mem_singleton.mp spelled
      rw [asha_alias]
      rfl
    · cases List.mem_singleton.mp spelled
      rw [bridge_alias]
      rfl
  · have rows : both.aliasRows = [ashaAlias, bridgeAlias] := by
      change (["Asha"].filterMap (aliasRow? asha.entityId) ++
        (["Bridge"].filterMap (aliasRow? bridge.entityId) ++ [])) = _
      simp only [List.filterMap_cons, asha_alias, bridge_alias, List.filterMap_nil]
      rfl
    rw [rows]
    exact ⟨_, rfl⟩

theorem both_succeeds : Succeeds .empty both :=
  both_consistent.succeeds_iff.mpr fun _ _ _ stored => absurd stored List.not_mem_nil

/-- The database behind the extraction of both pieces of evidence. -/
theorem mem_stored {row : GraphEvidenceFields} :
    row ∈ (serve .empty both).evidence.rows ↔ row ∈ both.evidenceRows := by
  rw [mem_evidence_serve both_succeeds]
  exact ⟨fun h => h.1.elim id fun stored => absurd stored List.not_mem_nil,
    fun member => ⟨.inl member, fun h => by cases h⟩⟩

theorem dropped_consistent : Consistent (serve .empty both) dropped :=
  .again both_succeeds dropped_checked rfl rfl

theorem unsure_consistent : Consistent (serve .empty both) unsure :=
  .again both_succeeds unsure_checked rfl rfl

theorem both_covers : Covers .empty both := fun _ stored => absurd stored List.not_mem_nil

theorem replacement_exact_iff_sample :
    (Consistent .empty both →
        (Succeeds .empty both ∧ GraphReplacement.Exact .empty both ↔ Covers .empty both)) ∧
      Succeeds .empty both ∧ GraphReplacement.Exact .empty both ∧
      Refines ⟨serve .empty both, record (fun _ => ∅) both⟩ := by
  obtain ⟨-, -, exact_iff, runs⟩ := replacement_exact_iff
  obtain ⟨succeeds, exact_rows⟩ := (exact_iff .empty both both_consistent).mpr both_covers
  refine ⟨exact_iff .empty both, succeeds, exact_rows, runs _ ?_⟩
  apply Run.next .start (fun _ => both_covers)
  rw [step, if_pos succeeds]

/-- An item that is left out stays, and another confidence is refused. -/
theorem dropped_evidence_stays :
    Succeeds .empty both ∧ Succeeds (serve .empty both) dropped ∧
      ¬GraphReplacement.Exact (serve .empty both) dropped ∧ Consistent (serve .empty both) unsure ∧
      ¬Succeeds (serve .empty both) unsure := by
  have absent : second.toGraphEvidenceFields ∉ dropped.evidenceRows := by decide
  have stored : second.toGraphEvidenceFields ∈ (serve .empty both).evidence.rows :=
    mem_stored.mpr (List.mem_map_of_mem (List.mem_cons_of_mem _ List.mem_cons_self))
  have succeeds : Succeeds (serve .empty both) dropped := by
    apply dropped_consistent.succeeds_iff.mpr
    intro row member old known same
    cases List.mem_singleton.mp member
    exact evidence_agree both_checked (mem_stored.mp known)
      (List.mem_map_of_mem List.mem_cons_self) same
  refine ⟨both_succeeds, succeeds, ?_, unsure_consistent, ?_⟩
  · intro exact_rows
    apply absent
    apply (exact_rows _).mp
    exact ⟨(mem_evidence_serve succeeds).mpr ⟨.inr stored, fun h => by cases h⟩, rfl⟩
  · intro succeeds
    have agree := unsure_consistent.succeeds_iff.mp succeeds _ List.mem_cons_self
      first.toGraphEvidenceFields (mem_stored.mpr List.mem_cons_self) rfl
    have confidence : first.confidence = .finite (1 / 2) := congrArg (fun row => row.confidence) agree
    revert confidence
    decide +kernel

end GraphSamples

end Cinegraph
