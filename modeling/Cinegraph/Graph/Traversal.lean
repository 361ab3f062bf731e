import Cinegraph.Graph.Reader

/-!
The traversal of the claim graph as two queries: with at most two hops, the loop over the hops
selects the claims at the seeds, and then those at the entities that it met there.
-/

namespace Cinegraph.SqlAlchemyGraphClaimReader

open Library

variable {db : GraphDatabase} {request : GraphRagReadRequest} {seeds : List UUID}

/-- The claims at the seeds. -/
def firstHop (db : GraphDatabase) (request : GraphRagReadRequest) (seeds : List UUID) :
    List JoinedClaim :=
  loadFrontierClaims db request.scope seeds [] request.predicates request.claimLimit.toNat

/-- The entities that are met at the claims of the first hop, as long as there is room. -/
def metEntities (db : GraphDatabase) (request : GraphRagReadRequest) (seeds : List UUID) :
    List UUID :=
  ((firstHop db request seeds).foldl (visit request 1) ⟨[], seeds, []⟩).nextFrontier

/-- The claims at the entities that were met, as many as there is room for. -/
def secondHop (db : GraphDatabase) (request : GraphRagReadRequest) (seeds : List UUID) :
    List JoinedClaim :=
  loadFrontierClaims db request.scope (metEntities db request seeds)
    ((firstHop db request seeds).map fun row => row.claim.claimId) request.predicates
    (request.claimLimit - (firstHop db request seeds).length).toNat

section Loading

variable {scope : RetrievalScope} {frontier selected : List UUID} {predicates : List String}
  {limit : Nat}

theorem load_nil : loadFrontierClaims db scope [] selected predicates limit = [] := by
  unfold loadFrontierClaims
  dsimp only
  rw [List.filter_eq_nil_iff.mpr]
  · exact List.take_nil
  · intro claim _ matching
    rw [decide_eq_true_eq] at matching
    exact matching.2.2.1.elim List.not_mem_nil List.not_mem_nil

theorem joinEntities_ids_sublist (claims : List GraphClaimFields) :
    ((claims.filterMap (joinEntities db)).map fun row => row.claim.claimId).Sublist
      (claims.map GraphClaimFields.claimId) := by
  induction claims with
  | nil => exact List.Sublist.slnil
  | cons claim rest ih =>
      cases joined : joinEntities db claim with
      | none =>
          rw [List.filterMap_cons_none joined, List.map_cons]
          exact ih.cons _
      | some row =>
          rw [List.filterMap_cons_some joined, List.map_cons, List.map_cons,
            (joinEntities_eq_some.mp joined).1]
          exact ih.cons_cons _

theorem nodup_load : ((loadFrontierClaims db scope frontier selected predicates limit).map
    fun row => row.claim.claimId).Nodup := by
  unfold loadFrontierClaims
  refine List.Nodup.sublist ((List.take_sublist _ _).map _) ?_
  refine List.Nodup.sublist (joinEntities_ids_sublist _) ?_
  exact db.claims.nodup_keys.sublist (List.filter_sublist.map _)

theorem length_load_le :
    (loadFrontierClaims db scope frontier selected predicates limit).length ≤ limit :=
  List.length_take_le _ _

/-- What the query says of a claim: it was not selected, and touches the frontier. -/
theorem mem_load {row : JoinedClaim}
    (member : row ∈ loadFrontierClaims db scope frontier selected predicates limit) :
    row.claim.claimId ∉ selected ∧
      (row.claim.subjectEntityId ∈ frontier ∨ row.claim.objectEntityId ∈ frontier) := by
  have joined := List.mem_of_mem_take member
  rw [List.mem_filterMap] at joined
  obtain ⟨claim, matching, joined⟩ := joined
  obtain ⟨rfl, -, -⟩ := joinEntities_eq_some.mp joined
  rw [List.mem_filter, decide_eq_true_iff] at matching
  exact ⟨matching.2.2.2.2.2.2, matching.2.2.2.1⟩

theorem revision_of_mem_load {row : JoinedClaim}
    (member : row ∈ loadFrontierClaims db scope frontier selected predicates limit) :
    row.claim.extractionRevision = GRAPH_CLAIM_EXTRACTION_REVISION := by
  obtain ⟨claim, matching, joined⟩ := List.mem_filterMap.mp (List.mem_of_mem_take member)
  obtain ⟨rfl, -, -⟩ := joinEntities_eq_some.mp joined
  exact (of_decide_eq_true (List.mem_filter.mp matching).2).2.1

/-- A claim at the frontier is loaded, unless there is no room left. -/
theorem mem_load_or_full {row : JoinedClaim} (found : Found db request row)
    (revision : row.claim.extractionRevision = GRAPH_CLAIM_EXTRACTION_REVISION)
    (touches : row.claim.subjectEntityId ∈ frontier ∨ row.claim.objectEntityId ∈ frontier)
    (new : row.claim.claimId ∉ selected) :
    row ∈ loadFrontierClaims db request.scope frontier selected request.predicates limit ∨
      (loadFrontierClaims db request.scope frontier selected request.predicates limit).length =
        limit := by
  unfold loadFrontierClaims
  dsimp only
  refine Classical.or_iff_not_imp_right.mpr fun room => ?_
  rw [List.length_take] at room
  rw [List.take_of_length_le (by omega), List.mem_filterMap]
  refine ⟨row.claim, List.mem_filter.mpr ⟨found.claim, decide_eq_true ?_⟩,
    joinEntities_eq_some.mpr ⟨rfl, found.subject, found.object⟩⟩
  exact ⟨found.series, revision, touches, found.visible, found.predicate, new⟩

end Loading

section Seeds

variable {seriesId entityId : UUID} {names : List String} {limit : Nat}

/-- The spellings of entities of the series that are among the given ones. -/
def seedRows (db : GraphDatabase) (seriesId : UUID) (names : List String) :
    List GraphEntityAliasRow :=
  db.aliases.rows.filter fun row => row.normalizedAlias ∈ names ∧
    (db.entities.get? row.entityId).any fun entity => entity.seriesId = seriesId

theorem resolveSeedEntities_subset (member : entityId ∈ resolveSeedEntities db seriesId names limit) :
    ∃ row ∈ seedRows db seriesId names, row.entityId = entityId := by
  unfold resolveSeedEntities at member
  have sorted := List.mem_of_mem_take (List.mem_dedup.mp member)
  exact List.mem_map.mp (List.mem_mergeSort.mp sorted)

theorem mem_resolveSeedEntities (room : (seedRows db seriesId names).length ≤ limit)
    {row : GraphEntityAliasRow} (member : row ∈ seedRows db seriesId names) :
    row.entityId ∈ resolveSeedEntities db seriesId names limit := by
  unfold resolveSeedEntities
  rw [List.mem_dedup, List.take_of_length_le]
  · exact List.mem_mergeSort.mpr (List.mem_map_of_mem member)
  · rw [List.length_mergeSort, List.length_map]
    exact room

end Seeds

section Visiting

/-- Claims that are new are selected in their order. -/
theorem foldl_visit_selected {distance : Nat} {rows : List JoinedClaim} {t : Traversal}
    (once : (rows.map fun row => row.claim.claimId).Nodup)
    (fresh : ∀ row ∈ rows, row.claim.claimId ∉ t.claimIds) :
    (rows.foldl (visit request distance) t).selected =
      t.selected ++ rows.map fun row => ⟨row, distance⟩ := by
  induction rows generalizing t with
  | nil => exact (List.append_nil _).symm
  | cons row rest ih =>
      rw [List.map_cons, List.nodup_cons] at once
      obtain ⟨new, later⟩ := List.forall_mem_cons.mp fresh
      have selected : (visit request distance t row).selected = _ := visit_selected distance t row
      rw [if_neg new] at selected
      have ids : (visit request distance t row).claimIds = t.claimIds ++ [row.claim.claimId] := by
        rw [Traversal.claimIds, selected, List.map_append]
        rfl
      rw [List.foldl_cons, ih once.2, selected, List.map_cons, List.append_assoc]
      · rfl
      · intro other member
        rw [ids, List.mem_append, not_or]
        refine ⟨later other member, fun same => once.1 ?_⟩
        exact List.mem_map.mpr ⟨other, member, List.mem_singleton.mp same⟩

theorem meet_frontier {maxFrontier : Int} {t : Traversal} {entityId met : UUID}
    (member : met ∈ (meet maxFrontier t entityId).nextFrontier) :
    met ∈ t.nextFrontier ∨ met = entityId := by
  unfold meet at member
  split at member
  · exact (List.mem_append.mp member).imp_right List.mem_singleton.mp
  · exact Or.inl member

theorem visit_frontier {distance : Nat} {t : Traversal} {row : JoinedClaim} {met : UUID}
    (member : met ∈ (visit request distance t row).nextFrontier) :
    met ∈ t.nextFrontier ∨ met ∈ [row.subject.entityId, row.object.entityId] := by
  unfold visit at member
  simp only at member
  split at member
  · rw [List.foldl_cons, List.foldl_cons, List.foldl_nil] at member
    rcases meet_frontier member with before | rfl
    · rcases meet_frontier before with before | rfl
      · exact Or.inl before
      · exact Or.inr List.mem_cons_self
    · exact Or.inr (List.mem_cons_of_mem _ List.mem_cons_self)
  · exact Or.inl member

/-- An entity that is met is an end of a claim. -/
theorem mem_frontier {distance : Nat} {rows : List JoinedClaim} {t : Traversal} {met : UUID}
    (member : met ∈ (rows.foldl (visit request distance) t).nextFrontier) :
    met ∈ t.nextFrontier ∨
      ∃ row ∈ rows, met ∈ [row.subject.entityId, row.object.entityId] := by
  induction rows generalizing t with
  | nil => exact Or.inl member
  | cons row rest ih =>
      rcases ih member with before | ⟨other, inside, endpoint⟩
      · rcases visit_frontier before with before | endpoint
        · exact Or.inl before
        · exact Or.inr ⟨row, List.mem_cons_self, endpoint⟩
      · exact Or.inr ⟨other, List.mem_cons_of_mem _ inside, endpoint⟩

/-- On the last hop no entity is met. -/
theorem frontier_of_last {distance : Nat} (last : ¬(distance : Int) < request.hops)
    (rows : List JoinedClaim) (t : Traversal) :
    (rows.foldl (visit request distance) t).nextFrontier = t.nextFrontier := by
  induction rows generalizing t with
  | nil => rfl
  | cons row rest ih =>
      rw [List.foldl_cons, ih]
      unfold visit
      rw [if_neg last]

end Visiting

theorem mem_metEntities {met : UUID} (member : met ∈ metEntities db request seeds) :
    ∃ row ∈ firstHop db request seeds, met ∈ [row.subject.entityId, row.object.entityId] := by
  rcases mem_frontier member with none_yet | found
  · exact absurd none_yet List.not_mem_nil
  · exact found

/-- The state behind the first hop. -/
theorem hop_first : hop db request 1 ⟨[], seeds, seeds⟩ =
    (firstHop db request seeds).foldl (visit request 1) ⟨[], seeds, []⟩ := by
  unfold hop firstHop
  simp [Traversal.claimIds]

theorem firstHop_selected : (hop db request 1 ⟨[], seeds, seeds⟩).selected =
    (firstHop db request seeds).map fun row => ⟨row, 1⟩ := by
  have once : ((firstHop db request seeds).map fun row => row.claim.claimId).Nodup := nodup_load
  rw [hop_first, foldl_visit_selected once fun row _ => List.not_mem_nil]
  rfl

theorem firstHop_claimIds : (hop db request 1 ⟨[], seeds, seeds⟩).claimIds =
    (firstHop db request seeds).map fun row => row.claim.claimId := by
  rw [Traversal.claimIds, firstHop_selected, List.map_map]
  rfl

theorem secondHop_selected :
    (hop db request 2 (hop db request 1 ⟨[], seeds, seeds⟩)).selected =
      (hop db request 1 ⟨[], seeds, seeds⟩).selected ++
        (secondHop db request seeds).map fun row => ⟨row, 2⟩ := by
  have loaded : loadFrontierClaims db request.scope
      (hop db request 1 ⟨[], seeds, seeds⟩).nextFrontier
      (hop db request 1 ⟨[], seeds, seeds⟩).claimIds request.predicates
      (request.claimLimit - (hop db request 1 ⟨[], seeds, seeds⟩).selected.length).toNat =
        secondHop db request seeds := by
    rw [firstHop_claimIds, firstHop_selected, List.length_map, hop_first]
    rfl
  generalize hop db request 1 ⟨[], seeds, seeds⟩ = behind at loaded ⊢
  unfold hop
  dsimp only
  rw [loaded, foldl_visit_selected]
  · rw [← loaded]
    exact nodup_load
  · intro row member
    rw [← loaded] at member
    exact (mem_load member).1

/-- There is no second hop without an entity that was met, and none without room. -/
theorem secondHop_eq_nil (blocked : metEntities db request seeds = [] ∨
    request.claimLimit - (firstHop db request seeds).length ≤ 0) :
    secondHop db request seeds = [] := by
  unfold secondHop
  rcases blocked with none_met | full
  · rw [none_met]
    exact load_nil
  · have none_left := Int.toNat_of_nonpos full
    exact List.length_eq_zero_iff.mp (Nat.le_zero.mp (none_left ▸ length_load_le))

theorem secondHop_of_one (one : request.hops = 1) : secondHop db request seeds = [] := by
  refine secondHop_eq_nil (Or.inl ?_)
  unfold metEntities
  exact frontier_of_last (by omega) _ _

/-- With one or two hops the loop is two queries. -/
theorem selectClaims_eq (room : 1 ≤ request.claimLimit)
    (hops : 1 ≤ request.hops ∧ request.hops ≤ 2) : selectClaims db request seeds =
      (firstHop db request seeds).map (fun row => (⟨row, 1⟩ : SelectedClaim)) ++
        (secondHop db request seeds).map fun row => ⟨row, 2⟩ := by
  have count : request.hops.toNat = 1 ∨ request.hops.toNat = 2 := by omega
  have free : ¬request.claimLimit - (([] : List SelectedClaim).length : Int) ≤ 0 := by
    rw [List.length_nil]
    omega
  by_cases some_seed : seeds = []
  · have no_first : firstHop db request seeds = [] := by
      rw [some_seed]
      exact load_nil
    have no_second : secondHop db request seeds = [] := by
      refine secondHop_eq_nil (Or.inl ?_)
      rw [metEntities, no_first]
      rfl
    rw [no_first, no_second, selectClaims, some_seed]
    rcases count with count | count <;> rw [count, traverse, if_pos (Or.inl rfl)] <;> rfl
  · unfold selectClaims
    rcases count with count | count
    · rw [count, traverse, if_neg (not_or.mpr ⟨some_seed, free⟩), traverse, firstHop_selected,
        secondHop_of_one (by omega), List.map_nil, List.append_nil]
    · rw [count, traverse, if_neg (not_or.mpr ⟨some_seed, free⟩), traverse]
      split
      · rename_i blocked
        rw [firstHop_selected, List.length_map, hop_first] at blocked
        rw [firstHop_selected, secondHop_eq_nil blocked, List.map_nil, List.append_nil]
      · rw [traverse, secondHop_selected, firstHop_selected]

/-- The claims that are selected have identifiers of their own, and there are not too many. -/
theorem nodup_selectClaims (room : 1 ≤ request.claimLimit)
    (hops : 1 ≤ request.hops ∧ request.hops ≤ 2) :
    ((selectClaims db request seeds).map fun item => item.claim.claimId).Nodup := by
  rw [selectClaims_eq room hops, List.map_append, List.map_map, List.map_map, List.nodup_append]
  refine ⟨nodup_load, nodup_load, ?_⟩
  intro id first other second same
  obtain ⟨row, member, rfl⟩ := List.mem_map.mp second
  rw [same] at first
  exact (mem_load member).1 first

theorem length_selectClaims (room : 1 ≤ request.claimLimit)
    (hops : 1 ≤ request.hops ∧ request.hops ≤ 2) :
    ((selectClaims db request seeds).length : Int) ≤ request.claimLimit := by
  rw [selectClaims_eq room hops, List.length_append, List.length_map, List.length_map]
  have first : (firstHop db request seeds).length ≤ request.claimLimit.toNat := length_load_le
  have second : (secondHop db request seeds).length ≤
      (request.claimLimit - (firstHop db request seeds).length).toNat := length_load_le
  omega

/-- A claim of the second hop touches one of the first. -/
theorem secondHop_touches {row : JoinedClaim} (member : row ∈ secondHop db request seeds) :
    ∃ earlier ∈ firstHop db request seeds, ∃ met ∈ [earlier.subject.entityId,
      earlier.object.entityId], met ∈ [row.claim.subjectEntityId, row.claim.objectEntityId] := by
  rcases (mem_load member).2 with met | met
  · obtain ⟨earlier, inside, endpoint⟩ := mem_metEntities met
    exact ⟨earlier, inside, _, endpoint, List.mem_cons_self⟩
  · obtain ⟨earlier, inside, endpoint⟩ := mem_metEntities met
    exact ⟨earlier, inside, _, endpoint, List.mem_cons_of_mem _ List.mem_cons_self⟩

end Cinegraph.SqlAlchemyGraphClaimReader
