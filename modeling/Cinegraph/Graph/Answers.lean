import Cinegraph.Graph.Readable
import Cinegraph.Graph.Traversal
import Mathlib.Data.List.ReduceOption

/-!
What the reader answers: one claim for each that was selected, between the entities as they are
stored, with its best evidence in order.
-/

namespace Cinegraph

open Library

namespace SqlAlchemyGraphClaimReader

theorem pairwise_ranked {db : GraphDatabase} {scope : RetrievalScope} {limit : Nat}
    {claimId : UUID} : (rankedEvidence db scope limit claimId).Pairwise fun a b =>
      GraphRagQueryService.evidenceRank a ≤ GraphRagQueryService.evidenceRank b :=
  (sortedBy_pairwise _ _).sublist (List.take_sublist _ _)

variable [Normalization]

/-- A claim is what the reader makes of a selected one. -/
structure Reads (db : GraphDatabase) (request : GraphRagReadRequest) (item : SelectedClaim)
    (claim : GraphRagReadClaim) : Prop where
  claimId : claim.claimId = item.claim.claimId
  seriesId : claim.seriesId = item.claim.seriesId
  subject : entityDto db item.subject = .ok claim.subject
  object : entityDto db item.object = .ok claim.object
  distance : claim.hopDistance = item.distance
  evidence : (claim.evidence.map fun row => row.toGraphEvidenceFields) =
    rankedEvidence db request.scope request.evidencePerClaim.toNat item.claim.claimId

section Building

variable {db : GraphDatabase} {request : GraphRagReadRequest} {item : SelectedClaim}

theorem claimDto_ok {evidence : List GraphRagReadEvidence} {made : Option GraphRagReadClaim}
    (some_evidence : evidence ≠ [])
    (rows : (evidence.map fun row => row.toGraphEvidenceFields) = rankedEvidence db request.scope
      request.evidencePerClaim.toNat item.claim.claimId)
    (built : claimDto db item evidence = .ok made) :
    ∃ claim, made = some claim ∧ Reads db request item claim := by
  unfold claimDto at built
  rw [if_neg some_evidence, bind_eq_ok] at built
  obtain ⟨subject, first, built⟩ := built
  rw [bind_eq_ok] at built
  obtain ⟨object, second, built⟩ := built
  rw [bind_eq_ok] at built
  obtain ⟨claim, created, built⟩ := built
  cases built
  have fields := GraphRagReadClaimFields.create_ok created
  refine ⟨claim, rfl, ?_⟩
  constructor <;> rw [fields]
  · exact first
  · exact second
  · exact rows

/-- Every selected claim is built. -/
theorem build_ok (readable : db.Readable) (some_limit : 1 ≤ request.evidencePerClaim.toNat)
    {selected : List SelectedClaim}
    (found : ∀ item ∈ selected, Found db request item.toJoinedClaim)
    {claims : List GraphRagReadClaim} (built : build db request selected = .ok claims)
    (few : selected.length ≤ request.claimLimit.toNat) :
    ∃ made, List.Forall₂ (Reads db request) selected made ∧ claims.Perm made := by
  unfold build at built
  rw [bind_eq_ok] at built
  obtain ⟨pairs, loaded, built⟩ := built
  rw [bind_eq_ok] at built
  obtain ⟨values, mapped, built⟩ := built
  have each : ∃ made, values = made.map some ∧ List.Forall₂ (Reads db request) selected made := by
    have first := forall₂_of_mapM loaded
    have second := forall₂_of_mapM mapped
    clear loaded mapped built few
    induction first generalizing values with
    | nil =>
        cases second
        exact ⟨[], rfl, .nil⟩
    | @cons item pair rest pairs one _ ih =>
        cases second with
        | cons made others =>
            obtain ⟨member, later⟩ := List.forall_mem_cons.mp found
            obtain ⟨other, same, own, rows⟩ := loadEvidence_total readable request item
            cases one.symm.trans same
            have some_evidence : pair.2 ≠ [] := by
              intro none_left
              rw [none_left] at rows
              exact ranked_ne_nil some_limit member.visible rows.symm
            change claimDto db pair.1 pair.2 = _ at made
            rw [own] at made
            obtain ⟨claim, rfl, reads⟩ := claimDto_ok some_evidence rows made
            obtain ⟨claims, rfl, beside⟩ := ih later _ others
            exact ⟨claim :: claims, rfl, .cons reads beside⟩
  obtain ⟨made, rfl, beside⟩ := each
  refine ⟨made, beside, ?_⟩
  cases built
  have whole : (made.map some).reduceOption = made := by
    rw [List.reduceOption, List.filterMap_map]
    exact List.filterMap_some
  rw [whole, List.take_of_length_le]
  · exact sortedBy_perm _ _
  · rw [length_sortedBy, ← beside.length_eq]
    exact few

/-- The answer to a valid request of a scope that is not empty. -/
theorem read_ok (readable : db.Readable) {claims : List GraphRagReadClaim}
    {normalized : List String} (spelled : request.seedTerms.mapM normalizeGraphIdentity = some normalized)
    (limits : 1 ≤ request.claimLimit ∧ 1 ≤ request.evidencePerClaim)
    (hops : 1 ≤ request.hops ∧ request.hops ≤ 2) (some_episode : request.scope.episodeScopes ≠ [])
    (answered : read db request = .ok claims) :
    ∃ made, List.Forall₂ (Reads db request) (selectClaims db request (resolveSeedEntities db
      request.scope.seriesId normalized request.maxFrontier.toNat)) made ∧ claims.Perm made := by
  unfold read at answered
  rw [unit_bind_eq_ok, if_neg some_episode, bind_eq_ok] at answered
  obtain ⟨-, again, spells, answered⟩ := answered
  cases spelled.symm.trans (orRaise_eq_ok.mp spells)
  have few : ((selectClaims db request (resolveSeedEntities db request.scope.seriesId normalized
    request.maxFrontier.toNat)).length : Int) ≤ request.claimLimit :=
    length_selectClaims limits.1 hops
  exact build_ok readable (by omega) (fun item member => (found_of_mem_select member).1) answered
    (by omega)

end Building

end SqlAlchemyGraphClaimReader

end Cinegraph
