import Cinegraph.Graph.ExtractionMerge
import Cinegraph.Graph.Replacement

/-!
The batch that an extraction hands to the store depends on the set of the extracted claims only,
and the store accepts it.
-/

namespace Cinegraph

open Library

open GraphErrorMessages

section Batch

variable [Normalization]

namespace ExtractAndReplaceGraphClaimsService

variable {configuration : GraphClaimExtractionConfiguration} {source : SourceVersion}
  {seriesId : UUID} {chunksById : Dict UUID TranscriptRetrievalChunk}

section Spellings

variable {β : Type} [LinearOrder β] {rank : String → β}

/-- The spellings depend on the set of the values only. -/
theorem spellings_eq (injective : Function.Injective rank) {left right result : List String}
    (same : ∀ value, value ∈ left ↔ value ∈ right) (made : spellings rank left = .ok result) :
    spellings rank right = .ok result := by
  unfold spellings at made ⊢
  rw [bind_eq_ok] at made
  obtain ⟨keyed, read, made⟩ := made
  have mem_keyed {values : List String} {keyed : List (String × String)}
      (read : values.mapM (fun value => do
        let key ← requireIdentity value
        return (key, value)) = .ok keyed) (item : String × String) :
      item ∈ keyed ↔ item.2 ∈ values ∧ requireIdentity item.2 = .ok item.1 := by
    constructor
    · intro member
      obtain ⟨value, inside, one⟩ := exists_of_mem_mapM read member
      obtain ⟨key, found, one⟩ := (bind_eq_ok _).mp one
      cases one
      exact ⟨inside, found⟩
    · rintro ⟨inside, found⟩
      obtain ⟨other, member, one⟩ := exists_mem_of_mapM read inside
      rw [found] at one
      cases one
      exact member
  obtain ⟨keyed_right, read_right⟩ : ∃ keyed_right, right.mapM (fun value => do
      let key ← requireIdentity value
      return (key, value)) = .ok keyed_right := by
    refine mapM_total fun value member => ?_
    obtain ⟨item, -, one⟩ := exists_mem_of_mapM read ((same value).mpr member)
    exact ⟨item, one⟩
  have members : ∀ item, item ∈ keyed ↔ item ∈ keyed_right := by
    intro item
    rw [mem_keyed read, mem_keyed read_right, same]
  have apart : Function.Injective fun item : String × String => toLex (item.1, rank item.2) := by
    intro a b equal
    obtain ⟨key, ranked⟩ := Prod.mk.inj (toLex.injective equal)
    exact Prod.ext key (injective ranked)
  have thinned : firstOfEach Prod.fst [] (sortedBy (fun item : String × String =>
      toLex (item.1, rank item.2)) keyed) = firstOfEach Prod.fst [] (sortedBy _ keyed_right) :=
    firstOfEach_sortedBy_eq members apart.injOn
  rw [read_right, ok_bind, ← made]
  dsimp only
  rw [← thinned]

/-- Values of one normal form come down to the one of the least rank. -/
theorem spellings_alone (injective : Function.Injective rank) {values : List String} {key first : String}
    (named : ∀ value ∈ values, normalizeGraphIdentity value = some key) (member : first ∈ values)
    (least : ∀ value ∈ values, rank first ≤ rank value) : spellings rank values = .ok [first] := by
  have read {values : List String}
      (named : ∀ value ∈ values, normalizeGraphIdentity value = some key) :
      (values.mapM fun value => do
        let key ← requireIdentity value
        return (key, value)) = .ok (values.map fun value => (key, value)) := by
    induction values with
    | nil => rfl
    | cons value rest ih =>
        rw [List.forall_mem_cons] at named
        rw [List.mapM_cons, requireIdentity_eq_ok.mpr named.1, ok_bind, ih named.2]
        rfl
  have apart : Function.Injective fun item : String × String => toLex (item.1, rank item.2) := by
    intro a b equal
    obtain ⟨key, ranked⟩ := Prod.mk.inj (toLex.injective equal)
    exact Prod.ext key (injective ranked)
  have head : (sortedBy (fun item : String × String => toLex (item.1, rank item.2))
      (values.map fun value => (key, value))).head? = some (key, first) := by
    refine head?_sortedBy apart.injOn (List.mem_map_of_mem member) fun item inside => ?_
    obtain ⟨value, among, rfl⟩ := List.mem_map.mp inside
    exact Prod.Lex.toLex_le_toLex.mpr (Or.inr ⟨rfl, least value among⟩)
  have one : ∀ item ∈ sortedBy (fun item : String × String => toLex (item.1, rank item.2))
      (values.map fun value => (key, value)), item.1 = key := by
    intro item inside
    obtain ⟨value, -, rfl⟩ := List.mem_map.mp (mem_sortedBy.mp inside)
    rfl
  rw [spellings, read named, ok_bind]
  dsimp only
  rw [firstOfEach_of_one one, head]
  rfl

/-- An entity is completed by spellings that are all its own. -/
theorem finalEntity_total {item : GraphEntity} {collected : List String}
    (own : ∀ spelling ∈ collected,
      normalizeGraphIdentity (Text.strip spelling) = some item.normalizedKey) :
    ∃ result, finalEntity configuration item collected = .ok result := by
  have checked := item.checked
  have injective : Function.Injective fun value =>
      toLex (decide (value ≠ item.displayName), value) := by
    intro a b equal
    exact (Prod.mk.inj (toLex.injective equal)).2
  have spelled : spellings (fun value => toLex (decide (value ≠ item.displayName), value))
      (item.displayName :: collected.map Text.strip) = .ok [item.displayName] := by
    have named : ∀ value ∈ item.displayName :: collected.map Text.strip,
        normalizeGraphIdentity value = some item.normalizedKey := by
      rw [List.forall_mem_cons, List.forall_mem_map]
      exact ⟨checked.named, own⟩
    refine spellings_alone injective named List.mem_cons_self fun value _ => ?_
    by_cases same : value = item.displayName
    · rw [same]
    · apply Prod.Lex.toLex_le_toLex.mpr
      simp [same]
  have few : ¬configuration.maxAliases < [item.displayName].length :=
    Nat.not_lt.mpr configuration.positive.2.2.1
  have alone : ({ item.toGraphEntityFields with aliases := [item.displayName] } :
      GraphEntityFields).Checked := by
    refine ⟨checked.display, checked.normal, checked.short, checked.named,
      ⟨List.cons_ne_nil _ _, (by decide : 1 ≤ MAX_GRAPH_ALIASES)⟩, by simpa using checked.display,
      [item.normalizedKey], ?_,
      List.nodup_singleton _, List.mem_singleton_self _⟩
    rw [List.mapM_cons, requireIdentity_eq_ok.mpr checked.named]
    rfl
  obtain ⟨result, made, -⟩ := alone.create
  exact ⟨result, by rw [finalEntity, spelled, ok_bind, reject_of_not few, ok_bind, made]⟩

/-- A reference by a single spelling makes the entity that is known by it alone. -/
theorem entity_alone {reference : ExtractedEntityReference} (item : GraphEntity)
    (kind : reference.kind = item.kind) (name : reference.name = item.displayName)
    (single : reference.aliases = []) (alone : item.aliases = [item.displayName])
    (display : normalizeGraphDisplay item.displayName = some item.displayName)
    (short : item.displayName.length ≤ configuration.maxNameLength)
    (identified : IdentifierGenerator.graphEntityId item.seriesId item.kind item.normalizedKey =
      some item.entityId) :
    entity configuration reference item.seriesId = .ok item := by
  have checked := item.checked
  have filled : Text.strip reference.name ≠ "" := by
    have trimmed := reference.name_trimmed
    rw [Trimmed] at trimmed
    exact fun empty => trimmed.1 (trimmed.2.symm.trans empty)
  have spelled : spellings (fun value => value) ([item.displayName].dedup) = .ok [item.displayName] :=
    spellings_alone Function.injective_id (by simpa using checked.named) (by simp) (by simp)
  have few : ¬configuration.maxAliases < 1 := Nat.not_lt.mpr configuration.positive.2.2.1
  rw [entity, single, name, kind]
  rw [name] at filled
  simp only [orRaise, display, requireIdentity_eq_ok.mpr checked.named, identified, reject, filled,
    if_false, ok_bind, List.mapM_nil, List.length_nil, Nat.not_lt_zero, List.not_mem_nil, false_and,
    exists_false, or_false, Nat.not_lt.mpr short, pure, Except.pure, spelled, List.length_singleton,
    few]
  rw [GraphEntityFields.create_eq_ok, ← alone]

/-- An entity is completed by the set of its spellings only. -/
theorem finalEntity_eq {item other result : GraphEntity} {collected collected' : List String}
    (heads : ∀ aliases, ({ item.toGraphEntityFields with aliases } : GraphEntityFields) =
      { other.toGraphEntityFields with aliases })
    (same : ∀ spelling, spelling ∈ collected ↔ spelling ∈ collected')
    (made : finalEntity configuration item collected = .ok result) :
    finalEntity configuration other collected' = .ok result := by
  have display : item.displayName = other.displayName :=
    congrArg (fun fields => fields.displayName) (heads [])
  unfold finalEntity at made ⊢
  rw [bind_eq_ok] at made
  obtain ⟨aliases, spelled, made⟩ := made
  have injective : Function.Injective fun value =>
      toLex (decide (value ≠ item.displayName), value) := by
    intro a b equal
    exact (Prod.mk.inj (toLex.injective equal)).2
  have members : ∀ value, value ∈ item.displayName :: collected.map Text.strip ↔
      value ∈ other.displayName :: collected'.map Text.strip := by
    intro value
    simp only [List.mem_cons, List.mem_map, same, display]
  have again := spellings_eq injective members spelled
  rw [display] at again
  rw [again, ok_bind, ← heads aliases]
  exact made

theorem finalEntity_ok {item result : GraphEntity} {collected : List String}
    (made : finalEntity configuration item collected = .ok result) :
    keyOf result = keyOf item ∧ result.entityId = item.entityId ∧
      result.seriesId = item.seriesId := by
  unfold finalEntity at made
  simp only [bind_eq_ok, reject_eq_ok, exists_const, GraphEntityFields.create_eq_ok] at made
  obtain ⟨aliases, -, -, created⟩ := made
  rw [keyOf, keyOf, created]
  exact ⟨rfl, rfl, rfl⟩

end Spellings

section Finish

variable (configuration source seriesId chunksById)

/-- The identifier functions tell the entities, the claims and the evidence of the candidates
apart. -/
structure Identified (candidates : List ExtractedGraphClaim) : Prop where
  entities : Set.InjOn (fun key : GraphEntityKind × String =>
      IdentifierGenerator.graphEntityId seriesId key.1 key.2)
    (Prod.fst '' gathered (entityOffers configuration seriesId) candidates)
  claims : Set.InjOn (fun key : UUID × String × UUID × GraphClaimPolarity =>
      IdentifierGenerator.graphClaimId configuration.revision seriesId key.1 key.2.1 key.2.2.1
        key.2.2.2)
    (Prod.fst '' gathered (claimOffers configuration seriesId) candidates)
  evidence : Set.InjOn (fun pair : UUID × UUID =>
      IdentifierGenerator.graphEvidenceId pair.1 source.sourceVersionId pair.2)
    ((fun o => (o.2.claimId, o.2.transcriptChunkId)) ''
      gathered (evidenceOffers configuration source seriesId chunksById) candidates)

variable {configuration source seriesId chunksById} {candidates : List ExtractedGraphClaim}
  {state other : GraphState}

theorem Gathered.congr {others : List ExtractedGraphClaim}
    (same : ∀ candidate, candidate ∈ candidates ↔ candidate ∈ others)
    (kept : Gathered configuration source seriesId chunksById candidates state) :
    Gathered configuration source seriesId chunksById others state where
  entities := gathered_congr (entityOffers configuration seriesId) same ▸ kept.entities
  headed := kept.headed
  spellings := gathered_congr (spellingOffers configuration seriesId) same ▸ kept.spellings
  claims := gathered_congr (claimOffers configuration seriesId) same ▸ kept.claims
  evidence :=
    gathered_congr (evidenceOffers configuration source seriesId chunksById) same ▸ kept.evidence
  offered :=
    gathered_congr (evidenceOffers configuration source seriesId chunksById) same ▸ kept.offered

theorem Identified.congr {others : List ExtractedGraphClaim}
    (same : ∀ candidate, candidate ∈ candidates ↔ candidate ∈ others)
    (identified : Identified configuration source seriesId chunksById candidates) :
    Identified configuration source seriesId chunksById others where
  entities := gathered_congr (entityOffers configuration seriesId) same ▸ identified.entities
  claims := gathered_congr (claimOffers configuration seriesId) same ▸ identified.claims
  evidence := gathered_congr (evidenceOffers configuration source seriesId chunksById) same ▸
    identified.evidence

/-- The entity under a key has the head that the candidates give it. -/
theorem Gathered.heads_eq
    (kept : Gathered configuration source seriesId chunksById candidates state)
    (kept_other : Gathered configuration source seriesId chunksById candidates other)
    {key : GraphEntityKind × String} {item : GraphEntity}
    (found : state.entitiesByKey.get? key = some item) :
    ∃ item', other.entitiesByKey.get? key = some item' ∧ ∀ aliases,
      ({ item.toGraphEntityFields with aliases } : GraphEntityFields) =
        { item'.toGraphEntityFields with aliases } := by
  have ranks := kept.entities.rank_eq kept_other.entities key
  rw [found, Option.map_some] at ranks
  obtain ⟨item', found', named⟩ := Option.map_eq_some_iff.mp ranks.symm
  refine ⟨item', found', fun aliases => ?_⟩
  obtain ⟨key_eq, series, id⟩ := kept.headed found
  obtain ⟨key_eq', series', id'⟩ := kept_other.headed found'
  have display : item'.displayName = item.displayName := OrderDual.toDual.injective named
  have heads : keyOf item = keyOf item' := key_eq.trans key_eq'.symm
  have kind : item.kind = item'.kind := congrArg Prod.fst heads
  have key_same : item.normalizedKey = item'.normalizedKey := congrArg Prod.snd heads
  have entity_id : item.entityId = item'.entityId := by
    rw [kind, key_same, id'] at id
    exact (Option.some.inj id).symm
  dsimp only
  rw [entity_id, series, series', kind, key_same, display]

theorem evidenceOf_ok {claim : GraphClaim} {confidence : FloatValue} {chunkId : UUID}
    {chunk : TranscriptRetrievalChunk} {item : GraphClaimEvidence}
    (made : evidenceOf configuration source claim confidence chunkId chunk = .ok item) :
    item.evidenceId = IdentifierGenerator.graphEvidenceId item.claimId source.sourceVersionId
        item.transcriptChunkId ∧
      item.claimId = claim.claimId ∧ item.sourceVersionId = source.sourceVersionId ∧
      item.transcriptChunkId = chunkId ∧ item.episode = chunk.episode ∧
      item.extractionRevision = configuration.revision := by
  rw [evidenceOf, GraphEvidenceFields.extract_eq_ok] at made
  rw [made]
  exact ⟨rfl, rfl, rfl, rfl, rfl, rfl⟩

/-- Evidence of the candidates under one identifier is of one claim in one chunk. -/
theorem Identified.evidence_place
    (identified : Identified configuration source seriesId chunksById candidates)
    {id : UUID} {item item' : GraphClaimEvidence}
    (offered : (id, item) ∈
      gathered (evidenceOffers configuration source seriesId chunksById) candidates)
    (offered' : (id, item') ∈
      gathered (evidenceOffers configuration source seriesId chunksById) candidates) :
    item.claimId = item'.claimId ∧ item.transcriptChunkId = item'.transcriptChunkId := by
  have own {item : GraphClaimEvidence} (offered : (id, item) ∈
      gathered (evidenceOffers configuration source seriesId chunksById) candidates) :
      IdentifierGenerator.graphEvidenceId item.claimId source.sourceVersionId
        item.transcriptChunkId = id := by
    obtain ⟨candidate, -, s, o, claim, -, chunkId, -, chunk, -, made, same⟩ := offered
    rw [← (evidenceOf_ok made).1]
    exact same
  have equal := identified.evidence ⟨_, offered, rfl⟩ ⟨_, offered', rfl⟩
    ((own offered).trans (own offered').symm)
  exact ⟨congrArg Prod.fst equal, congrArg Prod.snd equal⟩

omit [Normalization] in
theorem finite_eq_of_toRat {a b : FloatValue} (probable : isProbability a = true)
    (probable' : isProbability b = true) (same : a.toRat = b.toRat) : a = b := by
  cases a with
  | finite x =>
      cases b with
      | finite y => exact congrArg FloatValue.finite same
      | infinity negative => cases probable'
      | nan => cases probable'
  | infinity negative => cases probable
  | nan => cases probable

/-- The evidence under an identifier is settled by the candidates. -/
theorem Gathered.evidence_eq
    (identified : Identified configuration source seriesId chunksById candidates)
    (kept : Gathered configuration source seriesId chunksById candidates state)
    (kept_other : Gathered configuration source seriesId chunksById candidates other)
    {id : UUID} {item : GraphClaimEvidence} (found : state.evidenceMap.get? id = some item) :
    other.evidenceMap.get? id = some item := by
  have ranks := kept.evidence.rank_eq kept_other.evidence id
  rw [found, Option.map_some] at ranks
  obtain ⟨item', found', sure⟩ := Option.map_eq_some_iff.mp ranks.symm
  have offered := kept.offered found
  have offered' := kept_other.offered found'
  obtain ⟨claim_same, chunk_same⟩ := identified.evidence_place offered offered'
  have confidence : item.confidence = item'.confidence :=
    finite_eq_of_toRat item.governed.2.2.1 item'.governed.2.2.1 sure.symm
  obtain ⟨candidate, -, s, o, claim, -, chunkId, -, chunk, known, made, same⟩ := offered
  obtain ⟨candidate', -, s', o', claim', -, chunkId', -, chunk', known', made', same'⟩ := offered'
  have fields := GraphEvidenceFields.extract_eq_ok.mp made
  have fields' := GraphEvidenceFields.extract_eq_ok.mp made'
  have chunk_id : chunkId = chunkId' := by
    rw [fields, fields'] at chunk_same
    exact chunk_same
  rw [chunk_id, known'] at known
  cases known
  have claim_id : claim.claimId = claim'.claimId := by
    rw [fields, fields'] at claim_same
    exact claim_same
  have sure_candidate : candidate.confidence = candidate'.confidence := by
    rw [fields, fields'] at confidence
    exact confidence
  have equal : item.toGraphEvidenceFields = item'.toGraphEvidenceFields := by
    rw [fields, fields', claim_id, chunk_id, sure_candidate]
  rw [found']
  obtain ⟨fields, valid⟩ := item
  obtain ⟨fields', valid'⟩ := item'
  cases equal
  rfl

/-- The completed entities of a state, in whatever order they come. -/
theorem Gathered.finalEntities
    (identified : Identified configuration source seriesId chunksById candidates)
    (kept : Gathered configuration source seriesId chunksById candidates state)
    {entities : List GraphEntity}
    (completed : state.entitiesByKey.entries.mapM (fun (key, item) =>
      finalEntity configuration item ((state.aliases.get? key).getD [])) = .ok entities) :
    (∀ result, result ∈ entities ↔ ∃ key item, state.entitiesByKey.get? key = some item ∧
        finalEntity configuration item ((state.aliases.get? key).getD []) = .ok result) ∧
      (entities.map keyOf).Nodup ∧ (entities.map fun item => item.entityId).Nodup := by
  have members : ∀ result, result ∈ entities ↔ ∃ key item,
      state.entitiesByKey.get? key = some item ∧
        finalEntity configuration item ((state.aliases.get? key).getD []) = .ok result := by
    intro result
    constructor
    · intro member
      obtain ⟨⟨key, item⟩, inside, made⟩ := exists_of_mem_mapM completed member
      exact ⟨key, item, (state.entitiesByKey.mem_entries_iff key item).mp inside, made⟩
    · rintro ⟨key, item, found, made⟩
      obtain ⟨other, member, made_other⟩ := exists_mem_of_mapM completed
        ((state.entitiesByKey.mem_entries_iff key item).mpr found)
      cases made.symm.trans made_other
      exact member
  have keys : entities.map keyOf = state.entitiesByKey.keys := by
    refine map_of_mapM completed fun entry inside result made => ?_
    have found := (state.entitiesByKey.mem_entries_iff entry.1 entry.2).mp inside
    exact (finalEntity_ok made).1.trans (kept.headed found).1
  have once : (entities.map keyOf).Nodup := keys ▸ state.entitiesByKey.nodup_keys
  refine ⟨members, once, nodup_map_of_determined once fun a member b member_b same => ?_⟩
  have offered {result : GraphEntity} (member : result ∈ entities) :
      keyOf result ∈ Prod.fst '' gathered (entityOffers configuration seriesId) candidates ∧
        IdentifierGenerator.graphEntityId seriesId (keyOf result).1 (keyOf result).2 =
          some result.entityId := by
    obtain ⟨key, item, found, made⟩ := (members result).mp member
    obtain ⟨head, id, -⟩ := finalEntity_ok made
    obtain ⟨key_eq, -, identifier⟩ := kept.headed found
    obtain ⟨w, offer, -⟩ := (kept.entities.greatest found).1
    rw [head, id]
    exact ⟨⟨(key, w), offer, key_eq.symm⟩, identifier⟩
  obtain ⟨offered_a, id_a⟩ := offered member
  obtain ⟨offered_b, id_b⟩ := offered member_b
  refine identified.entities offered_a offered_b ?_
  dsimp only
  rw [id_a, id_b, same]

/-- The claims of a state stand under their keys, each with an identifier of its own. -/
theorem Gathered.claimIds
    (identified : Identified configuration source seriesId chunksById candidates)
    (kept : Gathered configuration source seriesId chunksById candidates state) :
    (state.claimMap.values.map fun claim => claim.claimId).Nodup := by
  have own {key : UUID × String × UUID × GraphClaimPolarity} {claim : GraphClaim}
      (found : state.claimMap.get? key = some claim) : claimKey claim = key := by
    obtain ⟨-, -, -, same⟩ := (kept.claims key claim).mp found
    exact same
  have once : (state.claimMap.values.map claimKey).Nodup := by
    rw [Dict.map_values_eq_keys own]
    exact state.claimMap.nodup_keys
  refine nodup_map_of_determined once fun a member b member_b same => ?_
  have offered {claim : GraphClaim} (member : claim ∈ state.claimMap.values) :
      claimKey claim ∈ Prod.fst '' gathered (claimOffers configuration seriesId) candidates ∧
        IdentifierGenerator.graphClaimId configuration.revision seriesId (claimKey claim).1
          (claimKey claim).2.1 (claimKey claim).2.2.1 (claimKey claim).2.2.2 =
            some claim.claimId := by
    obtain ⟨key, found⟩ := (state.claimMap.mem_values_iff claim).mp member
    have offer := (kept.claims key claim).mp found
    obtain ⟨candidate, -, ⟨s, o, prepared⟩, same⟩ := offer
    exact ⟨⟨(key, claim), (kept.claims key claim).mp found, same.symm⟩,
      (claimOf_ok prepared.claim_made).2.2.2.2⟩
  obtain ⟨offered_a, id_a⟩ := offered member
  obtain ⟨offered_b, id_b⟩ := offered member_b
  refine identified.claims offered_a offered_b ?_
  dsimp only
  rw [id_a, id_b, same]

theorem Gathered.evidenceIds
    (kept : Gathered configuration source seriesId chunksById candidates state) :
    (state.evidenceMap.values.map fun item => item.evidenceId).Nodup := by
  have own {id : UUID} {item : GraphClaimEvidence}
      (found : state.evidenceMap.get? id = some item) : item.evidenceId = id := by
    obtain ⟨candidate, -, s, o, claim, -, chunkId, -, chunk, -, -, same⟩ := kept.offered found
    exact same
  rw [Dict.map_values_eq_keys own]
  exact state.evidenceMap.nodup_keys

omit [Normalization] in
theorem nodup_str {ι : Type} {id : ι → UUID} {items : List ι} (once : (items.map id).Nodup) :
    (items.map fun item => (id item).str).Nodup :=
  nodup_map_of_determined once fun _ _ _ _ same => UUID.str_injective same

/-- Two states that keep the same candidates finish in the same batch. -/
theorem finish_eq (identified : Identified configuration source seriesId chunksById candidates)
    (kept : Gathered configuration source seriesId chunksById candidates state)
    (kept_other : Gathered configuration source seriesId chunksById candidates other)
    {batch : GraphReplacement} (finished : finish configuration source state = .ok batch) :
    finish configuration source other = .ok batch := by
  unfold finish at finished ⊢
  rw [bind_eq_ok] at finished
  obtain ⟨entities, completed, finished⟩ := finished
  have collected (key : GraphEntityKind × String) : ∀ spelling,
      spelling ∈ (state.aliases.get? key).getD [] ↔ spelling ∈ (other.aliases.get? key).getD [] :=
    fun spelling => (kept.spellings key spelling).trans (kept_other.spellings key spelling).symm
  obtain ⟨entities', completed'⟩ : ∃ entities', other.entitiesByKey.entries.mapM
      (fun (key, item) => finalEntity configuration item ((other.aliases.get? key).getD [])) =
        .ok entities' := by
    refine mapM_total fun ⟨key, item⟩ inside => ?_
    have found := (other.entitiesByKey.mem_entries_iff key item).mp inside
    obtain ⟨item', found', heads⟩ := kept_other.heads_eq kept found
    obtain ⟨result, -, made⟩ := exists_mem_of_mapM completed
      ((state.entitiesByKey.mem_entries_iff key item').mpr found')
    exact ⟨result, finalEntity_eq (fun aliases => (heads aliases).symm) (collected key) made⟩
  obtain ⟨members, -, once⟩ := kept.finalEntities identified completed
  obtain ⟨members', -, once'⟩ := kept_other.finalEntities identified completed'
  have same_entities : ∀ result, result ∈ entities ↔ result ∈ entities' := by
    intro result
    rw [members, members']
    constructor
    · rintro ⟨key, item, found, made⟩
      obtain ⟨item', found', heads⟩ := kept.heads_eq kept_other found
      exact ⟨key, item', found', finalEntity_eq heads (collected key) made⟩
    · rintro ⟨key, item, found, made⟩
      obtain ⟨item', found', heads⟩ := kept_other.heads_eq kept found
      exact ⟨key, item', found', finalEntity_eq heads (fun s => (collected key s).symm) made⟩
  have same_claims : ∀ claim, claim ∈ state.claimMap.values ↔ claim ∈ other.claimMap.values := by
    intro claim
    rw [Dict.mem_values_iff, Dict.mem_values_iff]
    exact exists_congr fun key =>
      (kept.claims key claim).trans (kept_other.claims key claim).symm
  have same_evidence : ∀ item, item ∈ state.evidenceMap.values ↔ item ∈ other.evidenceMap.values := by
    intro item
    rw [Dict.mem_values_iff, Dict.mem_values_iff]
    exact exists_congr fun id => ⟨kept.evidence_eq identified kept_other,
      kept_other.evidence_eq identified kept⟩
  rw [completed', ok_bind, ← finished,
    sortedBy_eq (nodup_str once) (nodup_str once') same_entities,
    sortedBy_eq (nodup_str (kept.claimIds identified)) (nodup_str (kept_other.claimIds identified))
      same_claims,
    sortedBy_eq (nodup_str kept.evidenceIds) (nodup_str kept_other.evidenceIds) same_evidence]

variable (configuration source seriesId chunksById) in
/-- A batch that says what the candidates offer. -/
structure Finished (candidates : List ExtractedGraphClaim) (batch : GraphReplacement) : Prop where
  versions : batch.newSourceVersionId = source.sourceVersionId ∧
    batch.retiredSourceVersionId = source.parentSourceVersionId
  entity_own : ∀ {result}, result ∈ batch.entities → result.seriesId = seriesId ∧
    IdentifierGenerator.graphEntityId seriesId (keyOf result).1 (keyOf result).2 =
      some result.entityId ∧
    ∃ item, (keyOf result, item) ∈ gathered (entityOffers configuration seriesId) candidates
  entity_offered : ∀ {key item}, (key, item) ∈
    gathered (entityOffers configuration seriesId) candidates →
      ∃ result ∈ batch.entities, keyOf result = key
  claims : ∀ claim, claim ∈ batch.claims ↔
    ∃ key, (key, claim) ∈ gathered (claimOffers configuration seriesId) candidates
  evidence_own : ∀ {item}, item ∈ batch.evidence → (item.evidenceId, item) ∈
    gathered (evidenceOffers configuration source seriesId chunksById) candidates
  evidence_offered : ∀ {id item}, (id, item) ∈
    gathered (evidenceOffers configuration source seriesId chunksById) candidates →
      ∃ kept ∈ batch.evidence, kept.evidenceId = id
  once : (batch.entities.map fun item => item.entityId).Nodup ∧
    (batch.claims.map fun claim => claim.claimId).Nodup ∧
    (batch.evidence.map fun item => item.evidenceId).Nodup

/-- The batch of a state says what the candidates offer. -/
theorem Gathered.finished
    (identified : Identified configuration source seriesId chunksById candidates)
    (kept : Gathered configuration source seriesId chunksById candidates state)
    {batch : GraphReplacement} (finished : finish configuration source state = .ok batch) :
    Finished configuration source seriesId chunksById candidates batch := by
  unfold finish at finished
  rw [bind_eq_ok] at finished
  obtain ⟨entities, completed, finished⟩ := finished
  cases finished
  obtain ⟨members, -, once⟩ := kept.finalEntities identified completed
  have evidence_id {id : UUID} {item : GraphClaimEvidence}
      (offered : (id, item) ∈
        gathered (evidenceOffers configuration source seriesId chunksById) candidates) :
      item.evidenceId = id := by
    obtain ⟨candidate, -, s, o, claim, -, chunkId, -, chunk, -, -, same⟩ := offered
    exact same
  refine ⟨⟨rfl, rfl⟩, ?_, ?_, ?_, ?_, ?_, ?_, ?_, ?_⟩
  · intro result member
    obtain ⟨key, item, found, made⟩ := (members result).mp (mem_sortedBy.mp member)
    obtain ⟨head, id, series⟩ := finalEntity_ok made
    obtain ⟨item_key, item_series, identifier⟩ := kept.headed found
    obtain ⟨w, offered, -⟩ := (kept.entities.greatest found).1
    rw [head, id, series]
    exact ⟨item_series, identifier, w, item_key ▸ offered⟩
  · intro key item offered
    obtain ⟨kept_item, found⟩ := Option.isSome_iff_exists.mp (kept.entities.present offered)
    obtain ⟨result, -, made⟩ := exists_mem_of_mapM completed
      ((state.entitiesByKey.mem_entries_iff key kept_item).mpr found)
    exact ⟨result, mem_sortedBy.mpr ((members result).mpr ⟨key, kept_item, found, made⟩),
      (finalEntity_ok made).1.trans (kept.headed found).1⟩
  · intro claim
    rw [mem_sortedBy, Dict.mem_values_iff]
    exact exists_congr fun key => kept.claims key claim
  · intro item member
    obtain ⟨id, found⟩ := (Dict.mem_values_iff _ item).mp (mem_sortedBy.mp member)
    have offered := kept.offered found
    rw [evidence_id offered]
    exact offered
  · intro id item offered
    obtain ⟨kept_item, found⟩ := Option.isSome_iff_exists.mp (kept.evidence.present offered)
    exact ⟨kept_item, mem_sortedBy.mpr ((Dict.mem_values_iff _ kept_item).mpr ⟨id, found⟩),
      evidence_id (kept.offered found)⟩
  · exact ((sortedBy_perm _ _).map _).nodup_iff.mpr once
  · exact ((sortedBy_perm _ _).map _).nodup_iff.mpr (kept.claimIds identified)
  · exact ((sortedBy_perm _ _).map _).nodup_iff.mpr kept.evidenceIds

section Checked

variable {batch : GraphReplacement}
  (finished : Finished configuration source seriesId chunksById candidates batch)
include finished

/-- The entity of a reference is in the batch under its identifier. -/
theorem Finished.end_of {item : GraphEntity}
    (offered : (keyOf item, item) ∈ gathered (entityOffers configuration seriesId) candidates) :
    ∃ result ∈ batch.entities, result.entityId = item.entityId := by
  obtain ⟨result, member, key⟩ := finished.entity_offered offered
  refine ⟨result, member, ?_⟩
  obtain ⟨-, id, -⟩ := finished.entity_own member
  obtain ⟨candidate, -, reference, -, made, -⟩ := offered
  rw [key] at id
  exact Option.some.inj (id.symm.trans (entity_ok made).2)

/-- A claim of the batch has the identifier of its content and joins two entities of the batch. -/
theorem Finished.claimFits {claim : GraphClaim} (member : claim ∈ batch.claims) :
    batch.ClaimFits claim := by
  obtain ⟨key, candidate, inside, ⟨subject, object, prepared⟩, -⟩ := (finished.claims claim).mp member
  obtain ⟨series, subject_id, object_id, revision, id⟩ := claimOf_ok prepared.claim_made
  have subject_in := finished.end_of
    ⟨candidate, inside, candidate.subject, List.mem_cons_self, prepared.subject_made, rfl⟩
  have object_in := finished.end_of
    ⟨candidate, inside, candidate.object, List.mem_cons_of_mem _ List.mem_cons_self,
      prepared.object_made, rfl⟩
  refine ⟨by rw [revision, series]; exact id, fun endpoint end_of => ?_⟩
  rw [subject_id, object_id] at end_of
  rcases List.mem_pair.mp end_of with rfl | rfl
  · obtain ⟨result, listed, same⟩ := subject_in
    exact ⟨result, listed, same, (finished.entity_own listed).1.trans series.symm⟩
  · obtain ⟨result, listed, same⟩ := object_in
    exact ⟨result, listed, same, (finished.entity_own listed).1.trans series.symm⟩

/-- Evidence of the batch has the identifier of its content and supports a claim of the batch. -/
theorem Finished.evidenceFits
    (of_series : ∀ {id chunk}, chunksById.get? id = some chunk → chunk.episode.seriesId = seriesId)
    {item : GraphClaimEvidence} (member : item ∈ batch.evidence) : batch.EvidenceFits item := by
  obtain ⟨candidate, inside, subject, object, claim, prepared, chunkId, -, chunk, known, made, -⟩ :=
    finished.evidence_own member
  obtain ⟨own_id, claim_id, version, -, episode, revision⟩ := evidenceOf_ok made
  obtain ⟨series, -, -, claim_revision, -⟩ := claimOf_ok prepared.claim_made
  refine ⟨by rw [version]; exact own_id, version.trans finished.versions.1.symm, claim,
    (finished.claims claim).mpr ⟨claimKey claim, candidate, inside, ⟨subject, object, prepared⟩, rfl⟩,
    claim_id.symm, ?_, revision.trans claim_revision.symm⟩
  rw [episode, series]
  exact of_series known

/-- An entity of the batch is an end of a claim of the batch. -/
theorem Finished.referenced
    (each : ∀ candidate ∈ candidates, ∃ subject object claim,
      Prepared configuration seriesId candidate subject object claim)
    {result : GraphEntity} (member : result ∈ batch.entities) :
    ∃ claim ∈ batch.claims, result.entityId ∈ [claim.subjectEntityId, claim.objectEntityId] := by
  obtain ⟨-, id, item, candidate, inside, reference, of_candidate, made, key⟩ :=
    finished.entity_own member
  obtain ⟨subject, object, claim, prepared⟩ := each candidate inside
  obtain ⟨-, subject_id, object_id, -⟩ := claimOf_ok prepared.claim_made
  have same : result.entityId = item.entityId := by
    have key_same : keyOf item = keyOf result := key
    rw [← key_same] at id
    exact Option.some.inj (id.symm.trans (entity_ok made).2)
  refine ⟨claim, (finished.claims claim).mpr
    ⟨claimKey claim, candidate, inside, ⟨subject, object, prepared⟩, rfl⟩, ?_⟩
  rw [same, subject_id, object_id]
  rcases List.mem_pair.mp of_candidate with rfl | rfl
  · cases made.symm.trans prepared.subject_made
    exact List.mem_cons_self
  · cases made.symm.trans prepared.object_made
    exact List.mem_cons_of_mem _ List.mem_cons_self

/-- A claim of the batch is supported by evidence of the batch. -/
theorem Finished.supported (governed : Governed source)
    (current : ∀ {id chunk}, chunksById.get? id = some chunk →
      chunk.indexRevision = TRANSCRIPT_INDEX_REVISION)
    (cited : ∀ candidate ∈ candidates, validateCandidate candidate chunksById.keys = .ok ())
    (identified : Identified configuration source seriesId chunksById candidates)
    {claim : GraphClaim} (member : claim ∈ batch.claims) :
    ∃ item ∈ batch.evidence, item.claimId = claim.claimId := by
  obtain ⟨key, candidate, inside, ⟨subject, object, prepared⟩, -⟩ := (finished.claims claim).mp member
  obtain ⟨chunkId, mentioned⟩ := List.exists_mem_of_ne_nil _ candidate.evidence_ids.1
  obtain ⟨chunk, found⟩ := chunk_of_cited (cited candidate inside) mentioned
  obtain ⟨item, made⟩ := evidenceOf_total configuration governed claim candidate.probable chunkId
    (current found)
  have offered : (item.evidenceId, item) ∈
      gathered (evidenceOffers configuration source seriesId chunksById) candidates :=
    ⟨candidate, inside, subject, object, claim, prepared, chunkId, mentioned, chunk, found, made, rfl⟩
  obtain ⟨kept, listed, same⟩ := finished.evidence_offered offered
  refine ⟨kept, listed, ?_⟩
  have place := identified.evidence_place (same ▸ finished.evidence_own listed) offered
  exact place.1.trans (evidenceOf_ok made).2.1

/-- The store accepts a batch of candidates that are prepared and cite known chunks. -/
theorem Finished.checked (governed : Governed source)
    (own : source.parentSourceVersionId ≠ some source.sourceVersionId)
    (current : ∀ {id chunk}, chunksById.get? id = some chunk →
      chunk.indexRevision = TRANSCRIPT_INDEX_REVISION ∧ chunk.episode.seriesId = seriesId)
    (cited : ∀ candidate ∈ candidates, validateCandidate candidate chunksById.keys = .ok ())
    (each : ∀ candidate ∈ candidates, ∃ subject object claim,
      Prepared configuration seriesId candidate subject object claim)
    (identified : Identified configuration source seriesId chunksById candidates) :
    batch.check = .ok () := by
  have fits {item : GraphClaimEvidence} (member : item ∈ batch.evidence) : batch.EvidenceFits item :=
    finished.evidenceFits (fun found => (current found).2) member
  refine GraphReplacement.check_ok.mpr ⟨?_, finished.once.1, ?_, finished.once.2.1,
    fun claim => finished.claimFits, ?_, finished.once.2.2, fun _ => fits, ?_, ?_⟩
  · rw [finished.versions.1, finished.versions.2]
    exact own
  · intro result member
    obtain ⟨series, id, -⟩ := finished.entity_own member
    rw [series]
    exact id
  · intro id
    constructor
    · intro member
      obtain ⟨claim, listed, end_of⟩ := List.mem_flatMap.mp member
      obtain ⟨result, inside, same, -⟩ := (finished.claimFits listed).2 id end_of
      exact List.mem_map.mpr ⟨result, inside, same⟩
    · intro member
      obtain ⟨result, listed, rfl⟩ := List.mem_map.mp member
      obtain ⟨claim, known, end_of⟩ := finished.referenced each listed
      exact List.mem_flatMap.mpr ⟨claim, known, end_of⟩
  · refine nodup_map_of_determined finished.once.2.2 fun a member b member_b same => ?_
    simp only [Prod.mk.injEq] at same
    obtain ⟨claim_id, version, chunk_id⟩ := same
    rw [(fits member).1, (fits member_b).1, claim_id, version, chunk_id]
  · intro id
    constructor
    · intro member
      obtain ⟨item, listed, rfl⟩ := List.mem_map.mp member
      obtain ⟨-, -, claim, known, same, -⟩ := fits listed
      exact List.mem_map.mpr ⟨claim, known, same⟩
    · intro member
      obtain ⟨claim, listed, rfl⟩ := List.mem_map.mp member
      obtain ⟨item, known, same⟩ := finished.supported governed (fun found => (current found).1) cited
        identified listed
      exact List.mem_map.mpr ⟨item, known, same⟩

end Checked

end Finish

section Service

variable {command : ExtractAndReplaceGraphClaimsCommand}

omit [Normalization] in
/-- Chunks that are checked are current and of one series. -/
theorem chunks_ok {chunks : List TranscriptRetrievalChunk} {sourceId : UUID}
    {known last : List UUID × Option UUID}
    (checked : chunks.foldlM (validateChunk sourceId) known = .ok last) :
    ∀ chunk ∈ chunks, chunk.indexRevision = TRANSCRIPT_INDEX_REVISION ∧
      known.2.or (seriesOf chunks) = some chunk.episode.seriesId := by
  induction chunks generalizing known with
  | nil => exact fun chunk member => absurd member List.not_mem_nil
  | cons head rest ih =>
      rw [List.foldlM_cons, bind_eq_ok] at checked
      obtain ⟨next, one, checked⟩ := checked
      rw [validateChunk, reject_bind_eq_ok, reject_bind_eq_ok] at one
      obtain ⟨fresh, one_series, one⟩ := one
      cases one
      simp only [not_or, not_not, not_exists, not_and] at fresh one_series
      have first : known.2.or (seriesOf (head :: rest)) =
          some (known.2.getD head.episode.seriesId) := by
        cases known.2 <;> rfl
      rw [first]
      intro chunk member
      rcases List.mem_cons.mp member with rfl | inside
      · refine ⟨fresh.2.2.1, ?_⟩
        cases series : known.2 with
        | none => rfl
        | some s => rw [Option.getD_some, ← one_series s series]
      · exact ih checked chunk inside

omit [Normalization] in
/-- What the checks of a command leave. -/
theorem checkCommand_ok (checked : checkCommand configuration command = .ok ()) :
    Governed command.sourceVersion ∧
      command.sourceVersion.parentSourceVersionId ≠ some command.sourceVersion.sourceVersionId ∧
      ∀ chunk ∈ command.chunks, chunk.indexRevision = TRANSCRIPT_INDEX_REVISION ∧
        seriesOf command.chunks = some chunk.episode.seriesId := by
  unfold checkCommand validateChunks at checked
  simp only [bind_eq_ok, reject_eq_ok, not_or, not_not, exists_const] at checked
  obtain ⟨⟨rights, status, approved⟩, own, -, last, ran, -⟩ := checked
  exact ⟨⟨rights, status, Bool.not_eq_false _ ▸ approved⟩, own,
    fun chunk member => chunks_ok ran chunk member⟩

section Collected

variable (configuration) (extract other : List TranscriptRetrievalChunk → List ExtractedGraphClaim)

/-- The claims that an extractor says of the batches. -/
def extracted (chunks : List TranscriptRetrievalChunk) : List ExtractedGraphClaim :=
  (batches configuration chunks).flatMap extract

/-- What an extractor says of a batch cites chunks of the batch. -/
def CitesBatches (chunks : List TranscriptRetrievalChunk) : Prop :=
  ∀ batch ∈ batches configuration chunks, ∀ candidate ∈ extract batch,
    ∀ chunkId ∈ candidate.evidenceChunkIds, chunkId ∈ chunkIds batch

variable {configuration extract other}

omit [Normalization] in
theorem validateCandidate_ok {candidate : ExtractedGraphClaim} {known : List UUID}
    (cited : ∀ chunkId ∈ candidate.evidenceChunkIds, chunkId ∈ known) :
    validateCandidate candidate known = .ok () := by
  rw [validateCandidate, reject_eq_ok, not_or, not_or, not_exists]
  exact ⟨candidate.evidence_ids.1, not_not.mpr candidate.evidence_ids.2,
    fun chunkId h => h.2 (cited chunkId h.1)⟩

omit [Normalization] in
/-- Within the limit the candidates of all batches are collected. -/
theorem collect_ok {chunks : List TranscriptRetrievalChunk}
    (cites : CitesBatches configuration extract chunks)
    (within : (extracted configuration extract chunks).length ≤ configuration.maxCandidates) :
    collect configuration extract chunks = .ok (extracted configuration extract chunks) := by
  have loop (parts : List (List TranscriptRetrievalChunk)) (before : List ExtractedGraphClaim)
      (cites : ∀ batch ∈ parts, ∀ candidate ∈ extract batch,
        ∀ chunkId ∈ candidate.evidenceChunkIds, chunkId ∈ chunkIds batch)
      (within : (before ++ parts.flatMap extract).length ≤ configuration.maxCandidates) :
      parts.foldlM (fun candidates batch => do
        (extract batch).forM fun candidate => validateCandidate candidate (chunkIds batch)
        reject (configuration.maxCandidates < (candidates ++ extract batch).length)
          BATCH_OUTPUT_INVALID .invalidModel
        return candidates ++ extract batch) before =
          (.ok (before ++ parts.flatMap extract) : Except Raised _) := by
    induction parts generalizing before with
    | nil => exact congrArg Except.ok (List.append_nil before).symm
    | cons batch rest ih =>
        rw [List.flatMap_cons, ← List.append_assoc] at within ⊢
        have fits : ¬configuration.maxCandidates < (before ++ extract batch).length := by
          rw [List.length_append] at within
          omega
        have valid : ((extract batch).forM fun candidate =>
            validateCandidate candidate (chunkIds batch)) = .ok () :=
          forM_eq_ok.mpr fun candidate member =>
            validateCandidate_ok (cites batch List.mem_cons_self candidate member)
        rw [List.foldlM_cons, valid, ok_bind, reject_of_not fits, ok_bind]
        exact ih (before ++ extract batch)
          (fun later member => cites later (List.mem_cons_of_mem _ member)) within
  exact loop (batches configuration chunks) [] cites within

omit [Normalization] in
/-- Cited chunks of a batch are chunks of the command. -/
theorem cited_of_extracted {chunks : List TranscriptRetrievalChunk}
    (cites : CitesBatches configuration extract chunks) {candidate : ExtractedGraphClaim}
    (member : candidate ∈ extracted configuration extract chunks) :
    validateCandidate candidate (indexChunks chunks).keys = .ok () := by
  obtain ⟨batch, listed, said⟩ := List.mem_flatMap.mp member
  refine validateCandidate_ok fun chunkId mentioned => Dict.mem_keys_ofList ?_
  obtain ⟨chunk, inside, same⟩ := List.mem_map.mp (cites batch listed candidate said chunkId mentioned)
  obtain ⟨i, -, slice⟩ := List.mem_map.mp listed
  rw [← slice] at inside
  rw [List.map_map]
  exact List.mem_map.mpr ⟨chunk, List.mem_of_mem_drop (List.mem_of_mem_take inside), same⟩

/-- The batch that an extraction hands to the store, if it comes so far. -/
def handed (configuration : GraphClaimExtractionConfiguration)
    (extract : List TranscriptRetrievalChunk → List ExtractedGraphClaim)
    (command : ExtractAndReplaceGraphClaimsCommand) : Option GraphReplacement :=
  (batchOf configuration extract command).toOption.map Prod.snd

/-- The service succeeds when the store accepts what it is handed. -/
theorem execute_ok {replace : GraphReplacement → Except Raised Unit} :
    (∃ result, execute configuration extract replace command = .ok result) ↔
      ∃ batch, handed configuration extract command = some batch ∧ replace batch = .ok () := by
  unfold execute handed
  cases batchOf configuration extract command with
  | error error => exact iff_of_false (fun ⟨_, h⟩ => by cases h) fun ⟨_, h, _⟩ => by cases h
  | ok made =>
      rw [ok_bind]
      dsimp only
      constructor
      · rintro ⟨result, ran⟩
        exact ⟨made.2, rfl, ((unit_bind_eq_ok _).mp ran).1⟩
      · rintro ⟨batch, same, stored⟩
        cases same
        exact ⟨_, (unit_bind_eq_ok _).mpr ⟨stored, rfl⟩⟩

/-- What is handed is merged from the candidates of a command that passes its checks. -/
theorem handed_eq_some {batch : GraphReplacement}
    (cites : CitesBatches configuration extract command.chunks)
    (within : (extracted configuration extract command.chunks).length ≤
      configuration.maxCandidates) :
    handed configuration extract command = some batch ↔
      checkCommand configuration command = .ok () ∧
        merge configuration command (extracted configuration extract command.chunks) =
          .ok batch := by
  unfold handed batchOf
  rw [collect_ok cites within, ok_bind]
  cases checkCommand configuration command with
  | error error => exact iff_of_false (fun h => by cases h) fun h => by cases h.1
  | ok u =>
      rw [ok_bind]
      cases merge configuration command (extracted configuration extract command.chunks) with
      | error error => exact iff_of_false (fun h => by cases h) fun h => by cases h.2
      | ok made => exact ⟨fun h => ⟨rfl, congrArg Except.ok (Option.some.inj h)⟩,
          fun h => congrArg some (Except.ok.inj h.2)⟩

end Collected

section Merge

variable {candidates others : List ExtractedGraphClaim}

/-- The candidates of a command with the index of its chunks. -/
structure Candidates (configuration : GraphClaimExtractionConfiguration)
    (command : ExtractAndReplaceGraphClaimsCommand) (candidates : List ExtractedGraphClaim) :
    Prop where
  cited : ∀ candidate ∈ candidates,
    validateCandidate candidate (indexChunks command.chunks).keys = .ok ()
  identified : ∀ seriesId, seriesOf command.chunks = some seriesId →
    Identified configuration command.sourceVersion seriesId (indexChunks command.chunks) candidates

/-- The series of the chunks, which candidates have where there are any. -/
theorem Candidates.series (checked : checkCommand configuration command = .ok ())
    (fit : Candidates configuration command candidates) :
    ∃ seriesId, (seriesOf command.chunks = some seriesId ∨ candidates = []) ∧
      (∀ {id chunk}, (indexChunks command.chunks).get? id = some chunk →
        chunk.indexRevision = TRANSCRIPT_INDEX_REVISION ∧ chunk.episode.seriesId = seriesId) ∧
      Identified configuration command.sourceVersion seriesId (indexChunks command.chunks)
        candidates := by
  obtain ⟨-, -, chunks⟩ := checkCommand_ok checked
  have listed {id : UUID} {chunk : TranscriptRetrievalChunk}
      (found : (indexChunks command.chunks).get? id = some chunk) : chunk ∈ command.chunks := by
    obtain ⟨other, member, same⟩ := List.mem_map.mp (Dict.mem_of_get?_ofList found)
    cases same
    exact member
  cases series : seriesOf command.chunks with
  | some seriesId =>
      refine ⟨seriesId, Or.inl rfl, fun found => ?_, fit.identified seriesId series⟩
      obtain ⟨current, same⟩ := chunks _ (listed found)
      rw [series] at same
      exact ⟨current, (Option.some.inj same).symm⟩
  | none =>
      have no_chunks : command.chunks = [] := by
        cases none_left : command.chunks with
        | nil => rfl
        | cons chunk rest =>
            rw [none_left] at series
            cases series
      have no_candidates : candidates = [] := by
        refine List.eq_nil_iff_forall_not_mem.mpr fun candidate member => ?_
        obtain ⟨chunkId, mentioned⟩ := List.exists_mem_of_ne_nil _ candidate.evidence_ids.1
        have cited := fit.cited candidate member
        rw [no_chunks, validateCandidate, reject_eq_ok, not_or, not_or] at cited
        exact cited.2.2 ⟨chunkId, mentioned, List.not_mem_nil⟩
      refine ⟨command.sourceVersion.sourceVersionId, Or.inr no_candidates, fun found => ?_, ?_⟩
      · have member := listed found
        rw [no_chunks] at member
        cases member
      · rw [no_candidates]
        refine ⟨?_, ?_, ?_⟩ <;>
          (rw [gathered_nil, Set.image_empty]; exact Set.injOn_empty _)

/-- The loop of a command, over the series that its candidates have. -/
theorem loop_series {seriesId : UUID}
    (series : seriesOf command.chunks = some seriesId ∨ candidates = []) :
    candidates.foldlM (addCandidate configuration command.sourceVersion (seriesOf command.chunks)
        (indexChunks command.chunks)) {} =
      candidates.foldlM (addCandidate configuration command.sourceVersion (some seriesId)
        (indexChunks command.chunks)) {} := by
  rcases series with same | rfl
  · rw [same]
  · rfl

/-- The merged batch depends on the set of the candidates only. -/
theorem merge_eq (checked : checkCommand configuration command = .ok ())
    (fit : Candidates configuration command candidates)
    (fit_others : Candidates configuration command others)
    (same : ∀ candidate, candidate ∈ candidates ↔ candidate ∈ others) {batch : GraphReplacement}
    (merged : merge configuration command candidates = .ok batch) :
    merge configuration command others = .ok batch := by
  obtain ⟨governed, -, -⟩ := checkCommand_ok checked
  obtain ⟨seriesId, series, known, identified⟩ := fit.series checked
  have series_others : seriesOf command.chunks = some seriesId ∨ others = [] := by
    refine series.imp_right fun none_left => List.eq_nil_iff_forall_not_mem.mpr ?_
    intro candidate member
    rw [none_left] at same
    exact List.not_mem_nil ((same candidate).mpr member)
  unfold merge at merged ⊢
  rw [loop_series series, bind_eq_ok] at merged
  obtain ⟨state, ran, finished⟩ := merged
  obtain ⟨kept, each⟩ :=
    gathered_of_loop governed (fun found => (known found).1) fit.cited (.empty ..) ran
  obtain ⟨state', ran'⟩ := loop_total governed (fun found => (known found).1) fit_others.cited
    (fun candidate member => each candidate ((same candidate).mpr member)) (.empty ..)
  obtain ⟨kept', -⟩ :=
    gathered_of_loop governed (fun found => (known found).1) fit_others.cited (.empty ..) ran'
  rw [loop_series series_others, ran', ok_bind]
  exact finish_eq identified kept (kept'.congr fun candidate => (same candidate).symm) finished

/-- The store accepts a merged batch. -/
theorem merge_checked (checked : checkCommand configuration command = .ok ())
    (fit : Candidates configuration command candidates) {batch : GraphReplacement}
    (merged : merge configuration command candidates = .ok batch) : batch.check = .ok () := by
  obtain ⟨governed, own, -⟩ := checkCommand_ok checked
  obtain ⟨seriesId, series, known, identified⟩ := fit.series checked
  unfold merge at merged
  rw [loop_series series, bind_eq_ok] at merged
  obtain ⟨state, ran, finished⟩ := merged
  obtain ⟨kept, each⟩ :=
    gathered_of_loop governed (fun found => (known found).1) fit.cited (.empty ..) ran
  exact (kept.finished identified finished).checked governed own known fit.cited each identified

/-- Candidates that can be prepared and call each entity by spellings of its own are merged. -/
theorem merge_total {seriesId : UUID} (checked : checkCommand configuration command = .ok ())
    (series : seriesOf command.chunks = some seriesId)
    (cited : ∀ candidate ∈ candidates,
      validateCandidate candidate (indexChunks command.chunks).keys = .ok ())
    (each : ∀ candidate ∈ candidates, ∃ subject object claim,
      Prepared configuration seriesId candidate subject object claim)
    (own : ∀ candidate ∈ candidates, ∀ reference ∈ [candidate.subject, candidate.object],
      ∀ item, entity configuration reference seriesId = .ok item →
        ∀ spelling ∈ reference.name :: reference.aliases,
          normalizeGraphIdentity (Text.strip spelling) = some item.normalizedKey) :
    ∃ batch, merge configuration command candidates = .ok batch := by
  obtain ⟨governed, -, chunks⟩ := checkCommand_ok checked
  have current {id : UUID} {chunk : TranscriptRetrievalChunk}
      (found : (indexChunks command.chunks).get? id = some chunk) :
      chunk.indexRevision = TRANSCRIPT_INDEX_REVISION := by
    obtain ⟨other, member, same⟩ := List.mem_map.mp (Dict.mem_of_get?_ofList found)
    cases same
    exact (chunks _ member).1
  obtain ⟨state, ran⟩ := loop_total governed current cited each (.empty ..)
  obtain ⟨kept, -⟩ := gathered_of_loop governed current cited (.empty ..) ran
  obtain ⟨entities, completed⟩ : ∃ entities, state.entitiesByKey.entries.mapM
      (fun (key, item) => finalEntity configuration item ((state.aliases.get? key).getD [])) =
        .ok entities := by
    refine mapM_total fun ⟨key, item⟩ inside => finalEntity_total fun spelling collected => ?_
    have found := (state.entitiesByKey.mem_entries_iff key item).mp inside
    obtain ⟨candidate, member, reference, among, named, made, keyed, spelled⟩ :=
      (kept.spellings key spelling).mp collected
    have same : keyOf named = keyOf item := keyed.trans (kept.headed found).1.symm
    rw [own candidate member reference among named made spelling spelled]
    exact congrArg some (Prod.mk.inj same).2
  exact ⟨_, by rw [merge, loop_series (Or.inl series), ran, ok_bind, finish, completed]; rfl⟩

end Merge

/-- **Independence of order and repetition**: two extractors that say the same set of claims of the
chunks of a command, each within the limit and of the chunks it was asked about, lead to the same
batch or both to none, and the store accepts it. -/
theorem extraction_of_claims (configuration : GraphClaimExtractionConfiguration)
    (command : ExtractAndReplaceGraphClaimsCommand)
    (extract other : List TranscriptRetrievalChunk → List ExtractedGraphClaim)
    (same : ∀ claim, claim ∈ extracted configuration extract command.chunks ↔
      claim ∈ extracted configuration other command.chunks)
    (within : (extracted configuration extract command.chunks).length ≤
      configuration.maxCandidates)
    (within_other : (extracted configuration other command.chunks).length ≤
      configuration.maxCandidates)
    (cites : CitesBatches configuration extract command.chunks)
    (cites_other : CitesBatches configuration other command.chunks)
    (identified : ∀ seriesId, seriesOf command.chunks = some seriesId →
      Identified configuration command.sourceVersion seriesId (indexChunks command.chunks)
        (extracted configuration extract command.chunks)) :
    handed configuration extract command = handed configuration other command ∧
      ∀ batch, handed configuration extract command = some batch → batch.check = .ok () := by
  have fit : Candidates configuration command (extracted configuration extract command.chunks) :=
    ⟨fun candidate => cited_of_extracted cites, identified⟩
  have fit_other : Candidates configuration command (extracted configuration other command.chunks) :=
    ⟨fun candidate => cited_of_extracted cites_other, fun seriesId series =>
      (identified seriesId series).congr same⟩
  constructor
  · refine Option.ext fun batch => ?_
    rw [handed_eq_some cites within, handed_eq_some cites_other within_other]
    exact and_congr_right fun checked => ⟨merge_eq checked fit fit_other same,
      merge_eq checked fit_other fit fun claim => (same claim).symm⟩
  · intro batch found
    obtain ⟨checked, merged⟩ := (handed_eq_some cites within).mp found
    exact merge_checked checked fit merged

end Service

end ExtractAndReplaceGraphClaimsService

end Batch

namespace ExtractAndReplaceGraphClaimsService

section Sample

attribute [local instance] Normalization.ascii

open CatalogueSamples GraphSamples

def sampleSource : SourceVersion where
  sourceVersionId := ⟨30⟩
  sourceDocumentId := ⟨31⟩
  contentHash := String.ofList (List.replicate 64 '0')
  rightsStatus := .allowed
  acquisitionMethod := .userUpload
  reviewStatus := .reviewed
  status := .active
  acquiredAt := ⟨.utc, 0⟩
  parentSourceVersionId := none
  reviewedBy := some "reviewer"
  reviewedAt := some ⟨.utc, 0⟩
  valid := by decide +kernel

def sampleChunk : TranscriptRetrievalChunk where
  chunkId := ⟨50⟩
  sourceVersionId := ⟨30⟩
  episode := pilot
  ordinal := 0
  memberSegmentIds := [⟨60⟩]
  startMs := 1000
  endMs := 2000
  text := "Asha stands on the bridge."
  language := .english
  rightsStatus := .allowed
  indexRevision := TRANSCRIPT_INDEX_REVISION
  members_unique := by decide
  timing := by decide
  text_trimmed := by decide +kernel

def laterChunk : TranscriptRetrievalChunk := { sampleChunk with chunkId := ⟨51⟩, ordinal := 1 }

def sampleCommand : ExtractAndReplaceGraphClaimsCommand := ⟨sampleSource, [sampleChunk, laterChunk]⟩

/-- Every chunk is a batch. -/
def oneByOne : GraphClaimExtractionConfiguration where
  batchSize := 1
  current := rfl
  positive := by decide
  bounded := by decide

/-- Asha stands on the bridge, under a spelling of her name. -/
def sampleClaim (name : String) (trimmed : Trimmed name) (confidence : FloatValue)
    (probable : isProbability confidence = true) (chunkId : UUID) : ExtractedGraphClaim where
  subject := ⟨asha.kind, name, [], trimmed⟩
  predicate := "stands on"
  object := ⟨bridge.kind, "Bridge", [], by decide +kernel⟩
  polarity := .asserted
  confidence
  evidenceChunkIds := [chunkId]
  predicate_filled := by decide +kernel
  probable
  evidence_ids := ⟨List.cons_ne_nil _ _, List.nodup_singleton _⟩

def quiet : ExtractedGraphClaim :=
  sampleClaim "Asha" (by decide +kernel) (.finite (1 / 2)) (by decide +kernel) ⟨50⟩

def loud : ExtractedGraphClaim :=
  sampleClaim "ASHA" (by decide +kernel) (.finite 1) (by decide +kernel) ⟨50⟩

def late : ExtractedGraphClaim :=
  sampleClaim "Asha" (by decide +kernel) (.finite (1 / 4)) (by decide +kernel) ⟨51⟩

/-- What is said of the two batches. -/
def speaks (first later : List ExtractedGraphClaim) (batch : List TranscriptRetrievalChunk) :
    List ExtractedGraphClaim :=
  if ⟨50⟩ ∈ chunkIds batch then first else later

def loudAsha : GraphEntity :=
  { asha with displayName := "ASHA", aliases := ["ASHA"], valid := by decide +kernel }

/-- The candidates join the two entities and are the claim between them. -/
theorem sample_prepared {candidate : ExtractedGraphClaim} (member : candidate ∈ [quiet, loud, late]) :
    ∃ subject ∈ [asha, loudAsha], Prepared oneByOne ⟨1⟩ candidate subject bridge standsOn := by
  have spoken (item : GraphEntity) (known : item ∈ [asha, loudAsha, bridge]) :
      normalizeGraphDisplay item.displayName = some item.displayName ∧
        item.aliases = [item.displayName] ∧ item.displayName.length ≤ oneByOne.maxNameLength ∧
        item.seriesId = ⟨1⟩ := by
    fin_cases known <;> decide
  have made (item : GraphEntity) (known : item ∈ [asha, loudAsha, bridge])
      (reference : ExtractedEntityReference) (kind : reference.kind = item.kind)
      (name : reference.name = item.displayName) (single : reference.aliases = []) :
      entity oneByOne reference ⟨1⟩ = .ok item := by
    obtain ⟨display, alone, short, series⟩ := spoken item known
    have identified : IdentifierGenerator.graphEntityId item.seriesId item.kind item.normalizedKey =
        some item.entityId := by
      simp only [List.mem_cons, List.not_mem_nil, or_false] at known
      rcases known with rfl | rfl | rfl
      · exact asha_id
      · exact asha_id
      · exact bridge_id
    exact series ▸ entity_alone item kind name single alone display short identified
  have claimed (candidate : ExtractedGraphClaim) (predicate : candidate.predicate = "stands on")
      (polarity : candidate.polarity = .asserted) (subject : GraphEntity)
      (own : subject.entityId = asha.entityId) :
      claimOf oneByOne candidate ⟨1⟩ subject bridge = .ok standsOn := by
    have normal : requirePredicate "stands on" = .ok "stands_on" := by decide
    have identified : IdentifierGenerator.graphClaimId oneByOne.revision ⟨1⟩ asha.entityId "stands_on"
        bridge.entityId .asserted = some standsOn.claimId := standsOn_id
    rw [claimOf, predicate, normal, ok_bind, reject_of_not (by decide), ok_bind, polarity, own,
      identified, orRaise, ok_bind]
    exact GraphClaimFields.create_eq_ok.mpr rfl
  simp only [List.mem_cons, List.not_mem_nil, or_false] at member
  rcases member with rfl | rfl | rfl
  · exact ⟨asha, by simp, made _ (by simp) _ rfl rfl rfl, made _ (by simp) _ rfl rfl rfl,
      claimed _ rfl rfl _ rfl⟩
  · exact ⟨loudAsha, by simp, made _ (by simp) _ rfl rfl rfl, made _ (by simp) _ rfl rfl rfl,
      claimed _ rfl rfl _ rfl⟩
  · exact ⟨asha, by simp, made _ (by simp) _ rfl rfl rfl, made _ (by simp) _ rfl rfl rfl,
      claimed _ rfl rfl _ rfl⟩

theorem sample_made {candidate : ExtractedGraphClaim} (member : candidate ∈ [quiet, loud, late])
    {subject object : GraphEntity} {claim : GraphClaim}
    (prepared : Prepared oneByOne ⟨1⟩ candidate subject object claim) :
    subject ∈ [asha, loudAsha] ∧ object = bridge ∧ claim = standsOn := by
  obtain ⟨expected, known, made⟩ := sample_prepared member
  obtain ⟨rfl, rfl, rfl⟩ := made.unique prepared
  exact ⟨known, rfl, rfl⟩

theorem sample_key {candidate : ExtractedGraphClaim} (member : candidate ∈ [quiet, loud, late])
    {reference : ExtractedEntityReference} (among : reference ∈ [candidate.subject, candidate.object])
    {item : GraphEntity} (made : entity oneByOne reference ⟨1⟩ = .ok item) :
    item ∈ [asha, loudAsha, bridge] := by
  obtain ⟨subject, known, prepared⟩ := sample_prepared member
  rcases List.mem_pair.mp among with rfl | rfl
  · have same : item = subject := Except.ok.inj (made.symm.trans prepared.subject_made)
    rw [same]
    exact List.mem_append_left [bridge] known
  · have same : item = bridge := Except.ok.inj (made.symm.trans prepared.object_made)
    simp [same]

theorem sample_identified : Identified oneByOne sampleSource ⟨1⟩ (indexChunks sampleCommand.chunks)
    [quiet, loud, late] where
  entities := by
    have keys : ∀ key ∈ Prod.fst '' gathered (entityOffers oneByOne ⟨1⟩) [quiet, loud, late],
        key = keyOf asha ∨ key = keyOf bridge := by
      rintro key ⟨offer, ⟨candidate, member, reference, among, made, own⟩, rfl⟩
      have known := sample_key member among made
      simp only [List.mem_cons, List.not_mem_nil, or_false] at known
      rw [← own]
      rcases known with same | same | same <;> rw [same]
      · exact Or.inl rfl
      · exact Or.inl rfl
      · exact Or.inr rfl
    have apart : some asha.entityId ≠ some bridge.entityId := by decide
    have first : IdentifierGenerator.graphEntityId ⟨1⟩ (keyOf asha).1 (keyOf asha).2 =
        some asha.entityId := asha_id
    have second : IdentifierGenerator.graphEntityId ⟨1⟩ (keyOf bridge).1 (keyOf bridge).2 =
        some bridge.entityId := bridge_id
    intro key member key' member' same
    rcases keys key member with rfl | rfl <;> rcases keys key' member' with rfl | rfl
    · rfl
    · exact absurd (first.symm.trans (same.trans second)) apart
    · exact absurd (first.symm.trans (same.symm.trans second)) apart
    · rfl
  claims := by
    refine Set.Subsingleton.injOn ?_ _
    have keys : ∀ offer ∈ gathered (claimOffers oneByOne ⟨1⟩) [quiet, loud, late],
        offer.1 = claimKey standsOn := by
      rintro offer ⟨candidate, member, ⟨s, o, prepared⟩, own⟩
      rw [← own, (sample_made member prepared).2.2]
    rintro - ⟨offer, offered, rfl⟩ - ⟨other, offered_other, rfl⟩
    exact (keys offer offered).trans (keys other offered_other).symm
  evidence := by
    have places : ∀ place ∈ (fun o : UUID × GraphClaimEvidence => (o.2.claimId, o.2.transcriptChunkId)) ''
        gathered (evidenceOffers oneByOne sampleSource ⟨1⟩ (indexChunks sampleCommand.chunks))
          [quiet, loud, late], place ∈ [(standsOn.claimId, ⟨50⟩), (standsOn.claimId, ⟨51⟩)] := by
      rintro - ⟨⟨id, item⟩, ⟨candidate, member, s, o, claim, prepared, chunkId, mentioned, chunk, -,
        made, -⟩, rfl⟩
      dsimp only
      obtain ⟨-, claim_id, -, chunk_id, -⟩ := evidenceOf_ok made
      have one : chunkId ∈ [⟨50⟩, ⟨51⟩] := by
        simp only [List.mem_cons, List.not_mem_nil, or_false] at member
        rcases member with rfl | rfl | rfl <;>
          (cases List.mem_singleton.mp mentioned; decide)
      rw [claim_id, chunk_id, (sample_made member prepared).2.2]
      rcases List.mem_pair.mp one with rfl | rfl <;> simp
    have apart : first.evidenceId ≠ second.evidenceId := by decide
    intro place here place' there same
    rcases List.mem_pair.mp (places place here) with rfl | rfl <;>
      rcases List.mem_pair.mp (places place' there) with rfl | rfl
    · rfl
    · exact absurd (first_id.trans (same.trans second_id.symm)) apart
    · exact absurd (first_id.trans (same.symm.trans second_id.symm)) apart
    · rfl

theorem extracted_sample (first later : List ExtractedGraphClaim) :
    extracted oneByOne (speaks first later) sampleCommand.chunks = first ++ later := by
  have two_batches : batches oneByOne sampleCommand.chunks = [[sampleChunk], [laterChunk]] := rfl
  have opening : speaks first later [sampleChunk] = first := rfl
  have closing : speaks first later [laterChunk] = later := rfl
  rw [extracted, two_batches, List.flatMap_cons, List.flatMap_singleton, opening, closing]

/-- Three claims over two batches, in either order and with some of them said twice. -/
theorem extraction_of_claims_sample :
    handed oneByOne (speaks [quiet, loud] [late]) sampleCommand =
        handed oneByOne (speaks [loud, quiet, loud] [late, late]) sampleCommand ∧
      ∃ batch, handed oneByOne (speaks [quiet, loud] [late]) sampleCommand = some batch ∧
        batch.check = .ok () := by
  have cites (before after : List ExtractedGraphClaim) (opening : ∀ claim ∈ before, claim ∈ [quiet, loud])
      (closing : ∀ claim ∈ after, claim = late) :
      CitesBatches oneByOne (speaks before after) sampleCommand.chunks := by
    have two_batches : batches oneByOne sampleCommand.chunks = [[sampleChunk], [laterChunk]] := rfl
    intro batch listed candidate member chunkId mentioned
    rw [two_batches] at listed
    rcases List.mem_pair.mp listed with rfl | rfl
    · rcases List.mem_pair.mp (opening candidate member) with rfl | rfl <;> exact mentioned
    · rw [closing candidate member] at mentioned
      exact mentioned
  have own : CitesBatches oneByOne (speaks [quiet, loud] [late]) sampleCommand.chunks :=
    cites [quiet, loud] [late] (fun _ member => member) (by simp)
  have again : CitesBatches oneByOne (speaks [loud, quiet, loud] [late, late]) sampleCommand.chunks :=
    cites [loud, quiet, loud] [late, late] (by simp) (by simp)
  have within : (extracted oneByOne (speaks [quiet, loud] [late]) sampleCommand.chunks).length ≤
      oneByOne.maxCandidates := by decide
  obtain ⟨independent, accepted⟩ := extraction_of_claims oneByOne sampleCommand
    (speaks [quiet, loud] [late]) (speaks [loud, quiet, loud] [late, late]) (by
      intro claim
      rw [extracted_sample, extracted_sample]
      simp only [List.cons_append, List.nil_append, List.mem_cons, List.not_mem_nil, or_false]
      tauto) within (by decide) own again (by
      intro seriesId series
      cases series
      rw [extracted_sample]
      exact sample_identified)
  obtain ⟨batch, merged⟩ : ∃ batch, merge oneByOne sampleCommand
      (extracted oneByOne (speaks [quiet, loud] [late]) sampleCommand.chunks) = .ok batch := by
    refine merge_total (by rfl) rfl (fun candidate => cited_of_extracted own) ?_ ?_ <;>
      rw [extracted_sample]
    · intro candidate member
      obtain ⟨subject, -, prepared⟩ := sample_prepared member
      exact ⟨subject, bridge, standsOn, prepared⟩
    · intro candidate member reference among item made spelling spelled
      rw [← (entity_key made).2]
      simp only [List.cons_append, List.nil_append, List.mem_cons, List.not_mem_nil, or_false] at member
      rcases member with rfl | rfl | rfl <;> rcases List.mem_pair.mp among with rfl | rfl <;>
        (cases List.mem_singleton.mp spelled; decide)
  have found := (handed_eq_some own within).mpr ⟨by rfl, merged⟩
  exact ⟨independent, batch, found, accepted batch found⟩

end Sample

end ExtractAndReplaceGraphClaimsService

end Cinegraph
