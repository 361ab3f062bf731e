import Cinegraph.Graph.Extraction

/-!
What the loop over the candidates of an extraction keeps: of each entity the least display name, of
each claim the claim, of each evidence the greatest confidence, and of all spellings the set.
-/

namespace Cinegraph

open Library

open GraphErrorMessages

section Merged

variable [Normalization]

theorem requireIdentity_eq_ok {text key : String} :
    requireIdentity text = .ok key ↔ normalizeGraphIdentity text = some key := orRaise_eq_ok

/-- The checks of an entity, with the normal forms of its aliases. -/
structure GraphEntityFields.Checked (e : GraphEntityFields) : Prop where
  display : IsGraphName e.displayName
  normal : normalizeGraphIdentity e.normalizedKey = some e.normalizedKey
  short : e.normalizedKey.length ≤ MAX_GRAPH_NAME_LENGTH
  named : normalizeGraphIdentity e.displayName = some e.normalizedKey
  count : e.aliases ≠ [] ∧ e.aliases.length ≤ MAX_GRAPH_ALIASES
  names : ∀ alias_ ∈ e.aliases, IsGraphName alias_
  keys : ∃ keys, e.aliases.mapM requireIdentity = .ok keys ∧ keys.Nodup ∧ e.normalizedKey ∈ keys

theorem GraphEntityFields.validate_ok {e : GraphEntityFields} :
    e.validate = .ok () ↔ e.Checked := by
  unfold validate
  simp only [bind_eq_ok, reject_eq_ok, orRaise_eq_ok, requireIdentity_eq_ok, exists_const,
    not_not, not_or, not_lt, not_exists, not_and]
  constructor
  · rintro ⟨display, normalized, normal, ⟨same, short⟩, named, spelled, named_same, count, names,
      keys, read, distinct, member⟩
    rw [same] at normal short
    rw [named_same] at spelled
    exact ⟨display, normal, short, spelled, count, names, keys, read, distinct, member⟩
  · rintro ⟨display, normal, short, named, count, names, keys, read, distinct, member⟩
    exact ⟨display, e.normalizedKey, normal, ⟨rfl, short⟩, e.normalizedKey, named, rfl, count, names,
      keys, read, distinct, member⟩

theorem GraphEntity.checked (item : GraphEntity) : item.toGraphEntityFields.Checked :=
  GraphEntityFields.validate_ok.mp item.valid

theorem GraphEntityFields.create_eq_ok {e : GraphEntityFields} {item : GraphEntity} :
    e.create = .ok item ↔ item.toGraphEntityFields = e := by
  unfold create
  split
  · rename_i valid
    constructor
    · intro made
      cases made
      rfl
    · rintro rfl
      rfl
  · rename_i error refused
    refine iff_of_false (fun h => by cases h) fun same => ?_
    rw [← same, item.valid] at refused
    cases refused

/-- An entity under another of its spellings. -/
theorem GraphEntityFields.Checked.rename {e : GraphEntityFields} {name : String}
    (checked : e.Checked) (display : IsGraphName name)
    (named : normalizeGraphIdentity name = some e.normalizedKey) :
    ({ e with displayName := name } : GraphEntityFields).Checked :=
  ⟨display, checked.normal, checked.short, named, checked.count, checked.names, checked.keys⟩

theorem GraphEntityFields.Checked.create {e : GraphEntityFields} (checked : e.Checked) :
    ∃ item : GraphEntity, e.create = .ok item ∧ item.toGraphEntityFields = e :=
  ⟨⟨e, validate_ok.mpr checked⟩, create_eq_ok.mpr rfl, rfl⟩

theorem GraphClaimFields.create_eq_ok {c : GraphClaimFields} {claim : GraphClaim} :
    c.create = .ok claim ↔ claim.toGraphClaimFields = c := by
  unfold create
  split
  · rename_i valid
    constructor
    · intro made
      cases made
      rfl
    · rintro rfl
      rfl
  · rename_i error refused
    refine iff_of_false (fun h => by cases h) fun same => ?_
    rw [← same, claim.valid] at refused
    cases refused

omit [Normalization] in
theorem GraphEvidenceFields.extract_eq_ok {e : GraphEvidenceFields} {item : GraphClaimEvidence} :
    e.extract = .ok item ↔ item.toGraphEvidenceFields = e := by
  unfold extract
  split
  · rename_i valid
    constructor
    · intro made
      cases made
      rfl
    · rintro rfl
      rfl
  · rename_i error refused
    refine iff_of_false (fun h => by cases h) fun same => ?_
    rw [← same, item.valid] at refused
    cases refused

namespace ExtractAndReplaceGraphClaimsService

variable {configuration : GraphClaimExtractionConfiguration} {source : SourceVersion}
  {seriesId : UUID} {chunksById : Dict UUID TranscriptRetrievalChunk}

/-- What an entity takes from its reference. -/
theorem entity_ok {reference : ExtractedEntityReference} {item : GraphEntity}
    (made : entity configuration reference seriesId = .ok item) :
    item.seriesId = seriesId ∧
      IdentifierGenerator.graphEntityId seriesId item.kind item.normalizedKey =
        some item.entityId := by
  unfold entity at made
  simp only [bind_eq_ok, reject_eq_ok, orRaise_eq_ok, exists_const,
    GraphEntityFields.create_eq_ok] at made
  obtain ⟨-, -, displayName, -, displayAliases, -, -, normalized, -, entityId, identified, aliases,
    -, -, created⟩ := made
  rw [created]
  exact ⟨rfl, identified⟩

/-- The key of an entity is the normal form of the name it is referred to by. -/
theorem entity_key {reference : ExtractedEntityReference} {item : GraphEntity}
    (made : entity configuration reference seriesId = .ok item) : item.kind = reference.kind ∧
      (normalizeGraphDisplay reference.name).bind normalizeGraphIdentity =
        some item.normalizedKey := by
  unfold entity at made
  simp only [bind_eq_ok, reject_eq_ok, orRaise_eq_ok, exists_const,
    GraphEntityFields.create_eq_ok] at made
  obtain ⟨-, -, displayName, displayed, displayAliases, -, -, normalized, named, entityId, -, aliases,
    -, -, created⟩ := made
  rw [created, displayed]
  exact ⟨rfl, requireIdentity_eq_ok.mp named⟩

/-- What a claim takes from its candidate. -/
theorem claimOf_ok {candidate : ExtractedGraphClaim} {subject object : GraphEntity}
    {claim : GraphClaim}
    (made : claimOf configuration candidate seriesId subject object = .ok claim) :
    claim.seriesId = seriesId ∧ claim.subjectEntityId = subject.entityId ∧
      claim.objectEntityId = object.entityId ∧
      claim.extractionRevision = configuration.revision ∧
      IdentifierGenerator.graphClaimId configuration.revision seriesId claim.subjectEntityId
        claim.predicate claim.objectEntityId claim.polarity = some claim.claimId := by
  unfold claimOf at made
  simp only [bind_eq_ok, reject_eq_ok, orRaise_eq_ok, exists_const,
    GraphClaimFields.create_eq_ok] at made
  obtain ⟨predicate, -, -, claimId, identified, created⟩ := made
  rw [created]
  exact ⟨rfl, rfl, rfl, rfl, identified⟩

/-- Claims with one key are one claim. -/
theorem claim_eq_of_key {candidate other : ExtractedGraphClaim}
    {subject object subject' object' : GraphEntity} {claim claim' : GraphClaim}
    (made : claimOf configuration candidate seriesId subject object = .ok claim)
    (made' : claimOf configuration other seriesId subject' object' = .ok claim')
    (same : claimKey claim = claimKey claim') : claim = claim' := by
  obtain ⟨series, -, -, revision, id⟩ := claimOf_ok made
  obtain ⟨series', -, -, revision', id'⟩ := claimOf_ok made'
  obtain ⟨fields, valid⟩ := claim
  obtain ⟨fields', valid'⟩ := claim'
  obtain ⟨claimId, seriesId, subjectId, predicate, objectId, polarity, revision⟩ := fields
  obtain ⟨claimId', seriesId', subjectId', predicate', objectId', polarity', revision'⟩ := fields'
  simp only [claimKey, Prod.mk.injEq] at same
  obtain ⟨rfl, rfl, rfl, rfl⟩ := same
  simp only at series series' revision revision' id id'
  subst series series' revision revision'
  rw [id] at id'
  cases id'
  rfl

/-- A candidate with its entities and its claim. -/
structure Prepared (configuration : GraphClaimExtractionConfiguration) (seriesId : UUID)
    (candidate : ExtractedGraphClaim) (subject object : GraphEntity) (claim : GraphClaim) :
    Prop where
  subject_made : entity configuration candidate.subject seriesId = .ok subject
  object_made : entity configuration candidate.object seriesId = .ok object
  claim_made : claimOf configuration candidate seriesId subject object = .ok claim

section Offers

variable (configuration source seriesId chunksById)

/-- The entities of a candidate under their keys. -/
def entityOffers (candidate : ExtractedGraphClaim) :
    Set ((GraphEntityKind × String) × GraphEntity) :=
  {o | ∃ reference ∈ [candidate.subject, candidate.object],
    entity configuration reference seriesId = .ok o.2 ∧ keyOf o.2 = o.1}

def spellingOffers (candidate : ExtractedGraphClaim) : Set ((GraphEntityKind × String) × String) :=
  {o | ∃ reference ∈ [candidate.subject, candidate.object],
    ∃ item, entity configuration reference seriesId = .ok item ∧ keyOf item = o.1 ∧
      o.2 ∈ reference.name :: reference.aliases}

def claimOffers (candidate : ExtractedGraphClaim) :
    Set ((UUID × String × UUID × GraphClaimPolarity) × GraphClaim) :=
  {o | (∃ subject object, Prepared configuration seriesId candidate subject object o.2) ∧
    claimKey o.2 = o.1}

def evidenceOffers (candidate : ExtractedGraphClaim) : Set (UUID × GraphClaimEvidence) :=
  {o | ∃ subject object claim, Prepared configuration seriesId candidate subject object claim ∧
    ∃ chunkId ∈ candidate.evidenceChunkIds, ∃ chunk, chunksById.get? chunkId = some chunk ∧
      evidenceOf configuration source claim candidate.confidence chunkId chunk = .ok o.2 ∧
      o.2.evidenceId = o.1}

/-- What the state keeps of the candidates. -/
structure Gathered (candidates : List ExtractedGraphClaim) (state : GraphState) : Prop where
  entities : Best (fun item => OrderDual.toDual item.displayName)
    (gathered (entityOffers configuration seriesId) candidates) state.entitiesByKey.get?
  headed : ∀ {key item}, state.entitiesByKey.get? key = some item → keyOf item = key ∧
    item.seriesId = seriesId ∧ IdentifierGenerator.graphEntityId seriesId item.kind
      item.normalizedKey = some item.entityId
  spellings : ∀ key spelling, spelling ∈ (state.aliases.get? key).getD [] ↔
    (key, spelling) ∈ gathered (spellingOffers configuration seriesId) candidates
  claims : ∀ key claim, state.claimMap.get? key = some claim ↔
    (key, claim) ∈ gathered (claimOffers configuration seriesId) candidates
  evidence : Best (fun item => item.confidence.toRat)
    (gathered (evidenceOffers configuration source seriesId chunksById) candidates)
    state.evidenceMap.get?
  offered : ∀ {id item}, state.evidenceMap.get? id = some item →
    (id, item) ∈ gathered (evidenceOffers configuration source seriesId chunksById) candidates

theorem Gathered.empty : Gathered configuration source seriesId chunksById [] {} where
  entities := by
    rw [gathered_nil]
    exact .empty
  headed := by rintro key item ⟨⟩
  spellings key spelling := by
    rw [gathered_nil]
    exact iff_of_false List.not_mem_nil (Set.notMem_empty _)
  claims key claim := by
    rw [gathered_nil]
    exact iff_of_false (fun h => by cases h) (Set.notMem_empty _)
  evidence := by
    rw [gathered_nil]
    exact .empty
  offered := by rintro id item ⟨⟩

end Offers

section Turn

/-- What a state holds of the entities: `offers` and `spelled` came in. -/
structure Headed (seriesId : UUID) (offers : Set ((GraphEntityKind × String) × GraphEntity))
    (spelled : Set ((GraphEntityKind × String) × String)) (state : GraphState) : Prop where
  entities : Best (fun item => OrderDual.toDual item.displayName) offers state.entitiesByKey.get?
  headed : ∀ {key item}, state.entitiesByKey.get? key = some item → keyOf item = key ∧
    item.seriesId = seriesId ∧ IdentifierGenerator.graphEntityId seriesId item.kind
      item.normalizedKey = some item.entityId
  spellings : ∀ key spelling, spelling ∈ (state.aliases.get? key).getD [] ↔ (key, spelling) ∈ spelled

/-- A reference never raises, and leaves the least display name under the key. -/
theorem Headed.addReference {offers : Set ((GraphEntityKind × String) × GraphEntity)}
    {spelled : Set ((GraphEntityKind × String) × String)} {state : GraphState}
    (before : Headed seriesId offers spelled state) {reference : ExtractedEntityReference}
    {item : GraphEntity} (made : entity configuration reference seriesId = .ok item) :
    ∃ after, ExtractAndReplaceGraphClaimsService.addReference state item reference = .ok after ∧
      Headed seriesId (insert (keyOf item, item) offers)
        ({o | o.1 = keyOf item ∧ o.2 ∈ reference.name :: reference.aliases} ∪ spelled) after ∧
      after.claimMap = state.claimMap ∧ after.evidenceMap = state.evidenceMap := by
  obtain ⟨series, identified⟩ := entity_ok made
  have spellings : ∀ key spelling, spelling ∈ ((state.aliases.set (keyOf item)
      ((state.aliases.get? (keyOf item)).getD [] ∪ (reference.name :: reference.aliases))).get?
        key).getD [] ↔
      (key, spelling) ∈ ({o | o.1 = keyOf item ∧ o.2 ∈ reference.name :: reference.aliases} ∪
        spelled : Set ((GraphEntityKind × String) × String)) := by
    intro key spelling
    rw [Dict.get?_set]
    split
    · rename_i same
      rw [Option.getD_some, List.mem_union_iff, before.spellings, same, or_comm]
      simp only [Set.mem_union, Set.mem_ofPred_eq, true_and]
    · rename_i other
      rw [before.spellings]
      simp only [Set.mem_union, Set.mem_ofPred_eq, other, false_and, false_or]
  unfold ExtractAndReplaceGraphClaimsService.addReference
  dsimp only
  cases found : state.entitiesByKey.get? (keyOf item) with
  | none =>
      refine ⟨_, rfl, ⟨?_, ?_, spellings⟩, rfl, rfl⟩
      · dsimp only
        rw [Dict.get?_set_eq_update]
        exact before.entities.take (fun old present => by rw [found] at present; cases present) rfl
      · intro key other present
        rw [Dict.get?_set] at present
        split at present
        · rename_i same
          cases present
          exact ⟨same.symm, series, identified⟩
        · exact before.headed present
  | some existing =>
      obtain ⟨same, existing_series, existing_id⟩ := before.headed found
      have key_eq : existing.normalizedKey = item.normalizedKey := congrArg Prod.snd same
      have named := item.checked.named
      have present : normalizeGraphIdentity existing.displayName = some item.normalizedKey :=
        key_eq ▸ existing.checked.named
      dsimp only
      rw [requireIdentity_eq_ok.mpr named, requireIdentity_eq_ok.mpr present, ok_bind, ok_bind]
      by_cases less : item.displayName < existing.displayName
      · obtain ⟨renamed, created, fields⟩ :=
          (existing.checked.rename item.checked.display (key_eq ▸ named)).create
        have lex : toLex (item.normalizedKey, item.displayName) <
            toLex (item.normalizedKey, existing.displayName) :=
          Prod.Lex.toLex_lt_toLex.mpr (Or.inr ⟨rfl, less⟩)
        rw [if_pos lex, created]
        refine ⟨_, rfl, ⟨?_, ?_, spellings⟩, rfl, rfl⟩
        · dsimp only
          rw [Dict.get?_set_eq_update]
          refine before.entities.take (fun old kept => ?_) ?_
          · rw [found] at kept
            cases kept
            exact OrderDual.toDual_le_toDual.mpr less.le
          · rw [fields]
        · intro key other kept
          rw [Dict.get?_set] at kept
          split at kept
          · rename_i here
            cases kept
            refine ⟨?_, ?_, ?_⟩
            · rw [here, ← same, keyOf, keyOf, fields]
            · rw [fields]
              exact existing_series
            · rw [fields]
              exact existing_id
          · exact before.headed kept
      · have lex : ¬toLex (item.normalizedKey, item.displayName) <
            toLex (item.normalizedKey, existing.displayName) := by
          rw [Prod.Lex.toLex_lt_toLex]
          exact fun h => h.elim (lt_irrefl _) fun h => less h.2
        rw [if_neg lex]
        refine ⟨_, rfl, ⟨?_, before.headed, spellings⟩, rfl, rfl⟩
        exact before.entities.leave found (OrderDual.toDual_le_toDual.mpr (not_lt.mp less))

/-- A source that may be quoted. -/
def Governed (source : SourceVersion) : Prop :=
  source.rightsStatus = .allowed ∧ source.status = .active ∧
    isSourceVersionApproved source.reviewStatus = true

variable (configuration) in
/-- Evidence of a governed source in a current chunk is built. -/
theorem evidenceOf_total (governed : Governed source) (claim : GraphClaim) {confidence : FloatValue}
    (probable : isProbability confidence = true) (chunkId : UUID) {chunk : TranscriptRetrievalChunk}
    (current : chunk.indexRevision = TRANSCRIPT_INDEX_REVISION) :
    ∃ item, evidenceOf configuration source claim confidence chunkId chunk = .ok item := by
  obtain ⟨rights, status, approved⟩ := governed
  obtain ⟨start, after⟩ := chunk.timing
  unfold evidenceOf
  refine ⟨⟨_, ?_⟩, GraphEvidenceFields.extract_eq_ok.mpr rfl⟩
  simp only [GraphEvidenceFields.validate, reject_bind_eq_ok, reject_eq_ok, not_or, not_not,
    Bool.not_eq_false, Int.not_lt, Int.not_le]
  exact ⟨⟨start, after⟩, probable, ⟨current, configuration.current⟩, rights, status, approved⟩

/-- What a state holds of the evidence: `offers` came in. -/
structure Evidenced (offers : Set (UUID × GraphClaimEvidence)) (state : GraphState) : Prop where
  evidence : Best (fun item => item.confidence.toRat) offers state.evidenceMap.get?
  offered : ∀ {id item}, state.evidenceMap.get? id = some item → (id, item) ∈ offers

/-- The state without its evidence. -/
def SameBut (after state : GraphState) : Prop :=
  after.entitiesByKey = state.entitiesByKey ∧ after.aliases = state.aliases ∧
    after.claimMap = state.claimMap

theorem Evidenced.addEvidence {offers : Set (UUID × GraphClaimEvidence)} {state : GraphState}
    (before : Evidenced offers state) {claim : GraphClaim} {confidence : FloatValue} {chunkId : UUID}
    {chunk : TranscriptRetrievalChunk} {item : GraphClaimEvidence}
    (found : chunksById.get? chunkId = some chunk)
    (made : evidenceOf configuration source claim confidence chunkId chunk = .ok item) :
    ∃ after, ExtractAndReplaceGraphClaimsService.addEvidence configuration source chunksById claim
        confidence state chunkId = .ok after ∧
      Evidenced (insert (item.evidenceId, item) offers) after ∧ SameBut after state := by
  have fields := GraphEvidenceFields.extract_eq_ok.mp made
  have id : IdentifierGenerator.graphEvidenceId claim.claimId source.sourceVersionId chunkId =
      item.evidenceId := by rw [fields]
  have sure : item.confidence = confidence := by rw [fields]
  have taken (better : ∀ old, state.evidenceMap.get? item.evidenceId = some old →
      old.confidence.toRat ≤ item.confidence.toRat) :
      Evidenced (insert (item.evidenceId, item) offers)
        { state with evidenceMap := state.evidenceMap.set item.evidenceId item } := by
    refine ⟨?_, ?_⟩
    · dsimp only
      rw [Dict.get?_set_eq_update]
      exact before.evidence.take better rfl
    · intro key other kept
      rw [Dict.get?_set] at kept
      split at kept
      · rename_i here
        cases kept
        rw [here]
        exact Set.mem_insert _ _
      · exact Set.mem_insert_of_mem _ (before.offered kept)
  unfold ExtractAndReplaceGraphClaimsService.addEvidence
  rw [orRaise_eq_ok.mpr found, ok_bind]
  dsimp only
  rw [id]
  cases held : state.evidenceMap.get? item.evidenceId with
  | none =>
      dsimp only
      rw [made]
      exact ⟨_, rfl, taken (fun old present => by rw [held] at present; cases present), rfl, rfl, rfl⟩
  | some old =>
      dsimp only
      by_cases better : old.confidence.toRat < confidence.toRat
      · rw [if_pos better, made]
        refine ⟨_, rfl, taken (fun other present => ?_), rfl, rfl, rfl⟩
        rw [held] at present
        cases present
        rw [sure]
        exact better.le
      · rw [if_neg better]
        refine ⟨_, rfl, ⟨before.evidence.leave held ?_, fun kept => ?_⟩, rfl, rfl, rfl⟩
        · rw [sure]
          exact not_lt.mp better
        · exact Set.mem_insert_of_mem _ (before.offered kept)

/-- The evidence of a claim in some chunks. -/
def evidenceIn (configuration : GraphClaimExtractionConfiguration) (source : SourceVersion)
    (chunksById : Dict UUID TranscriptRetrievalChunk) (claim : GraphClaim) (confidence : FloatValue)
    (chunkIds : List UUID) : Set (UUID × GraphClaimEvidence) :=
  {o | ∃ chunkId ∈ chunkIds, ∃ chunk, chunksById.get? chunkId = some chunk ∧
    evidenceOf configuration source claim confidence chunkId chunk = .ok o.2 ∧
    o.2.evidenceId = o.1}

variable (configuration) in
theorem Evidenced.addAll (governed : Governed source) (claim : GraphClaim) {confidence : FloatValue}
    (probable : isProbability confidence = true) {chunkIds : List UUID}
    (known : ∀ chunkId ∈ chunkIds, ∃ chunk, chunksById.get? chunkId = some chunk ∧
      chunk.indexRevision = TRANSCRIPT_INDEX_REVISION)
    {offers : Set (UUID × GraphClaimEvidence)} {state : GraphState} (before : Evidenced offers state) :
    ∃ after, chunkIds.foldlM (ExtractAndReplaceGraphClaimsService.addEvidence configuration source
        chunksById claim confidence) state = .ok after ∧
      Evidenced (evidenceIn configuration source chunksById claim confidence chunkIds ∪ offers)
        after ∧ SameBut after state := by
  induction chunkIds generalizing offers state with
  | nil =>
      refine ⟨state, rfl, ?_, rfl, rfl, rfl⟩
      have none_in : evidenceIn configuration source chunksById claim confidence [] = ∅ := by
        ext o
        exact iff_of_false (fun ⟨_, member, _⟩ => List.not_mem_nil member) (Set.notMem_empty o)
      rw [none_in, Set.empty_union]
      exact before
  | cons chunkId rest ih =>
      obtain ⟨chunk, found, current⟩ := known chunkId List.mem_cons_self
      obtain ⟨item, made⟩ := evidenceOf_total configuration governed claim probable chunkId current
      obtain ⟨next, stepped, kept, same⟩ := before.addEvidence found made
      obtain ⟨after, ran, all, same_rest⟩ := ih (fun other member =>
        known other (List.mem_cons_of_mem _ member)) kept
      refine ⟨after, ?_, ?_, same_rest.1.trans same.1, same_rest.2.1.trans same.2.1,
        same_rest.2.2.trans same.2.2⟩
      · rw [List.foldlM_cons, stepped]
        exact ran
      · have whole : evidenceIn configuration source chunksById claim confidence (chunkId :: rest) ∪
            offers = evidenceIn configuration source chunksById claim confidence rest ∪
              insert (item.evidenceId, item) offers := by
          ext o
          simp only [evidenceIn, List.mem_cons, exists_eq_or_imp, Set.mem_union, Set.mem_ofPred_eq,
            Set.mem_insert_iff]
          constructor
          · rintro ((⟨other, other_found, other_made, id⟩ | later) | old)
            · rw [found] at other_found
              cases other_found
              rw [made] at other_made
              have item_eq : item = o.2 := Except.ok.inj other_made
              rw [item_eq]
              exact Or.inr (Or.inl (Prod.ext id.symm rfl))
            · exact Or.inl later
            · exact Or.inr (Or.inr old)
          · rintro (later | here | old)
            · exact Or.inl (Or.inr later)
            · rw [here]
              exact Or.inl (Or.inl ⟨chunk, found, made, rfl⟩)
            · exact Or.inr old
        rw [whole]
        exact all

section Prepared

variable {candidate : ExtractedGraphClaim} {subject object : GraphEntity} {claim : GraphClaim}

theorem Prepared.unique
    (prepared : Prepared configuration seriesId candidate subject object claim)
    {subject' object' : GraphEntity} {claim' : GraphClaim}
    (again : Prepared configuration seriesId candidate subject' object' claim') :
    subject' = subject ∧ object' = object ∧ claim' = claim := by
  have subject_eq : subject' = subject :=
    Except.ok.inj (again.subject_made.symm.trans prepared.subject_made)
  have object_eq : object' = object :=
    Except.ok.inj (again.object_made.symm.trans prepared.object_made)
  refine ⟨subject_eq, object_eq, ?_⟩
  have made := again.claim_made
  rw [subject_eq, object_eq] at made
  exact Except.ok.inj (made.symm.trans prepared.claim_made)

theorem Prepared.entityOffers_eq
    (prepared : Prepared configuration seriesId candidate subject object claim) :
    entityOffers configuration seriesId candidate =
      {(keyOf subject, subject), (keyOf object, object)} := by
  ext ⟨key, item⟩
  simp only [entityOffers, List.mem_cons, List.not_mem_nil, or_false, exists_eq_or_imp,
    exists_eq_left, prepared.subject_made, prepared.object_made, Except.ok.injEq,
    Set.mem_ofPred_eq, Set.mem_insert_iff, Set.mem_singleton_iff, Prod.mk.injEq]
  constructor
  · rintro (⟨rfl, same⟩ | ⟨rfl, same⟩)
    · exact Or.inl ⟨same.symm, rfl⟩
    · exact Or.inr ⟨same.symm, rfl⟩
  · rintro (⟨same, rfl⟩ | ⟨same, rfl⟩)
    · exact Or.inl ⟨rfl, same.symm⟩
    · exact Or.inr ⟨rfl, same.symm⟩

theorem Prepared.spellingOffers_eq
    (prepared : Prepared configuration seriesId candidate subject object claim) :
    spellingOffers configuration seriesId candidate =
      {o | o.1 = keyOf subject ∧ o.2 ∈ candidate.subject.name :: candidate.subject.aliases} ∪
        {o | o.1 = keyOf object ∧ o.2 ∈ candidate.object.name :: candidate.object.aliases} := by
  ext ⟨key, spelling⟩
  simp only [spellingOffers, List.mem_pair, exists_eq_or_imp, exists_eq_left,
    prepared.subject_made, prepared.object_made, Except.ok.injEq, Set.mem_ofPred_eq, Set.mem_union,
    exists_eq_left', eq_comm (a := key)]

theorem Prepared.claimOffers_eq
    (prepared : Prepared configuration seriesId candidate subject object claim) :
    claimOffers configuration seriesId candidate = {(claimKey claim, claim)} := by
  ext ⟨key, other⟩
  constructor
  · rintro ⟨⟨s, o, again⟩, same⟩
    obtain ⟨-, -, rfl⟩ := prepared.unique again
    exact Prod.ext same.symm rfl
  · intro here
    cases here
    exact ⟨⟨subject, object, prepared⟩, rfl⟩

theorem Prepared.evidenceOffers_eq
    (prepared : Prepared configuration seriesId candidate subject object claim) :
    evidenceOffers configuration source seriesId chunksById candidate =
      evidenceIn configuration source chunksById claim candidate.confidence
        candidate.evidenceChunkIds := by
  ext o
  constructor
  · rintro ⟨s, t, other, again, offered⟩
    obtain ⟨-, -, rfl⟩ := prepared.unique again
    exact offered
  · intro offered
    exact ⟨subject, object, claim, prepared, offered⟩

end Prepared

omit [Normalization] in
/-- A chunk that a checked candidate cites is known. -/
theorem chunk_of_cited {candidate : ExtractedGraphClaim}
    (cited : validateCandidate candidate chunksById.keys = .ok ()) {chunkId : UUID}
    (mentioned : chunkId ∈ candidate.evidenceChunkIds) :
    ∃ chunk, chunksById.get? chunkId = some chunk := by
  rw [validateCandidate, reject_eq_ok, not_or, not_or] at cited
  refine Dict.get?_of_mem_keys ?_
  by_contra absent
  exact cited.2.2 ⟨chunkId, mentioned, absent⟩

/-- A candidate that is prepared goes in, and the state keeps it with the others. -/
theorem Gathered.add (governed : Governed source)
    (current : ∀ {id chunk}, chunksById.get? id = some chunk →
      chunk.indexRevision = TRANSCRIPT_INDEX_REVISION)
    {candidates : List ExtractedGraphClaim} {state : GraphState}
    (before : Gathered configuration source seriesId chunksById candidates state)
    {candidate : ExtractedGraphClaim} (cited : validateCandidate candidate chunksById.keys = .ok ())
    {subject object : GraphEntity} {claim : GraphClaim}
    (prepared : Prepared configuration seriesId candidate subject object claim) :
    ∃ after, addCandidate configuration source (some seriesId) chunksById state candidate =
        .ok after ∧
      Gathered configuration source seriesId chunksById (candidates ++ [candidate]) after := by
  have known : ∀ chunkId ∈ candidate.evidenceChunkIds, ∃ chunk,
      chunksById.get? chunkId = some chunk ∧ chunk.indexRevision = TRANSCRIPT_INDEX_REVISION := by
    intro chunkId member
    obtain ⟨chunk, found⟩ := chunk_of_cited cited member
    exact ⟨chunk, found, current found⟩
  have headed : Headed seriesId _ _ state := ⟨before.entities, before.headed, before.spellings⟩
  obtain ⟨first, first_added, headed, first_claims, first_evidence⟩ :=
    headed.addReference prepared.subject_made
  obtain ⟨second, second_added, headed, second_claims, second_evidence⟩ :=
    headed.addReference prepared.object_made
  have claims : second.claimMap = state.claimMap := second_claims.trans first_claims
  have evidence : second.evidenceMap = state.evidenceMap := second_evidence.trans first_evidence
  -- a claim that is there under the key is the claim of the candidate
  have kept : (second.claimMap.get? (claimKey claim)).getD claim = claim := by
    rw [claims]
    cases found : state.claimMap.get? (claimKey claim) with
    | none => rfl
    | some old =>
        obtain ⟨other, -, ⟨s, o, of_other⟩, same⟩ := (before.claims _ _).mp found
        exact claim_eq_of_key of_other.claim_made prepared.claim_made same
  have evidenced : Evidenced (gathered (evidenceOffers configuration source seriesId chunksById)
      candidates)
      { second with claimMap := second.claimMap.set (claimKey claim) claim } := by
    refine ⟨?_, ?_⟩
    · dsimp only
      rw [evidence]
      exact before.evidence
    · intro id item found
      dsimp only at found
      rw [evidence] at found
      exact before.offered found
  obtain ⟨after, ran, all, same⟩ :=
    evidenced.addAll configuration governed claim candidate.probable known
  refine ⟨after, ?_, ?_⟩
  · unfold addCandidate
    rw [cited, ok_bind, orRaise_eq_ok.mpr rfl, ok_bind, prepared.subject_made, ok_bind,
      prepared.object_made, ok_bind, first_added, ok_bind, second_added, ok_bind,
      prepared.claim_made, ok_bind]
    dsimp only
    rw [kept]
    exact ran
  · obtain ⟨entities, aliases, claim_map⟩ := same
    refine ⟨?_, ?_, ?_, ?_, ?_, ?_⟩
    · rw [gathered_concat, prepared.entityOffers_eq, entities, Set.insert_union, Set.singleton_union,
        Set.insert_comm]
      exact headed.entities
    · rw [entities]
      exact headed.headed
    · intro key spelling
      rw [gathered_concat, prepared.spellingOffers_eq, aliases]
      refine (headed.spellings key spelling).trans ?_
      rw [Set.union_left_comm, Set.union_assoc]
    · intro key other
      rw [gathered_concat, prepared.claimOffers_eq, claim_map, Set.singleton_union,
        Set.mem_insert_iff, ← before.claims key other, ← claims]
      exact Dict.get?_set_eq_some_of_kept kept key other
    · rw [gathered_concat, prepared.evidenceOffers_eq]
      exact all.evidence
    · rw [gathered_concat, prepared.evidenceOffers_eq]
      exact all.offered

/-- A candidate that goes in was prepared. -/
theorem prepared_of_add {state after : GraphState} {candidate : ExtractedGraphClaim}
    (added : addCandidate configuration source (some seriesId) chunksById state candidate =
      .ok after) :
    ∃ subject object claim, Prepared configuration seriesId candidate subject object claim := by
  unfold addCandidate at added
  rw [unit_bind_eq_ok, bind_eq_ok] at added
  obtain ⟨-, given, same, added⟩ := added
  cases same
  rw [bind_eq_ok] at added
  obtain ⟨subject, subject_made, added⟩ := added
  rw [bind_eq_ok] at added
  obtain ⟨object, object_made, added⟩ := added
  rw [bind_eq_ok] at added
  obtain ⟨first, -, added⟩ := added
  rw [bind_eq_ok] at added
  obtain ⟨second, -, added⟩ := added
  rw [bind_eq_ok] at added
  obtain ⟨claim, claim_made, -⟩ := added
  exact ⟨subject, object, claim, subject_made, object_made, claim_made⟩

/-- The state of a loop that comes to its end keeps all candidates, and each was prepared. -/
theorem gathered_of_loop (governed : Governed source)
    (current : ∀ {id chunk}, chunksById.get? id = some chunk →
      chunk.indexRevision = TRANSCRIPT_INDEX_REVISION) {candidates : List ExtractedGraphClaim}
    (cited : ∀ candidate ∈ candidates, validateCandidate candidate chunksById.keys = .ok ())
    {before : List ExtractedGraphClaim} {state last : GraphState}
    (gathered : Gathered configuration source seriesId chunksById before state)
    (ran : candidates.foldlM (addCandidate configuration source (some seriesId) chunksById) state =
      .ok last) :
    Gathered configuration source seriesId chunksById (before ++ candidates) last ∧
      ∀ candidate ∈ candidates, ∃ subject object claim,
        Prepared configuration seriesId candidate subject object claim := by
  induction candidates generalizing before state with
  | nil =>
      cases ran
      rw [List.append_nil]
      exact ⟨gathered, fun candidate member => absurd member List.not_mem_nil⟩
  | cons candidate rest ih =>
      rw [List.foldlM_cons, bind_eq_ok] at ran
      obtain ⟨next, added, ran⟩ := ran
      obtain ⟨subject, object, claim, prepared⟩ := prepared_of_add added
      obtain ⟨after, added_after, kept⟩ :=
        gathered.add governed current (cited candidate List.mem_cons_self) prepared
      rw [added] at added_after
      cases added_after
      obtain ⟨all, each⟩ :=
        ih (fun other member => cited other (List.mem_cons_of_mem _ member)) kept ran
      rw [List.append_assoc] at all
      exact ⟨all, List.forall_mem_cons.mpr ⟨⟨subject, object, claim, prepared⟩, each⟩⟩

/-- The loop over candidates that can be prepared comes to its end. -/
theorem loop_total (governed : Governed source)
    (current : ∀ {id chunk}, chunksById.get? id = some chunk →
      chunk.indexRevision = TRANSCRIPT_INDEX_REVISION) {candidates : List ExtractedGraphClaim}
    (cited : ∀ candidate ∈ candidates, validateCandidate candidate chunksById.keys = .ok ())
    (each : ∀ candidate ∈ candidates, ∃ subject object claim,
      Prepared configuration seriesId candidate subject object claim)
    {before : List ExtractedGraphClaim} {state : GraphState}
    (gathered : Gathered configuration source seriesId chunksById before state) :
    ∃ last, candidates.foldlM (addCandidate configuration source (some seriesId) chunksById) state =
      .ok last := by
  induction candidates generalizing before state with
  | nil => exact ⟨state, rfl⟩
  | cons candidate rest ih =>
      obtain ⟨subject, object, claim, prepared⟩ := each candidate List.mem_cons_self
      obtain ⟨next, added, kept⟩ :=
        gathered.add governed current (cited candidate List.mem_cons_self) prepared
      obtain ⟨last, ran⟩ := ih (fun other member => cited other (List.mem_cons_of_mem _ member))
        (fun other member => each other (List.mem_cons_of_mem _ member)) kept
      exact ⟨last, by rw [List.foldlM_cons, added]; exact ran⟩

end Turn

end ExtractAndReplaceGraphClaimsService

end Merged

end Cinegraph
