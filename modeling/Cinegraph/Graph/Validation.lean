import Cinegraph.Graph.QueryService
import Cinegraph.Library.Distances

/-!
What the service checks of an answer. Where each claim is in order by itself, all that is left is
the distances: a claim is on the first hop exactly where a seed names one of its ends.
-/

namespace Cinegraph

open Library

namespace GraphRagQueryService

variable [Normalization]

variable {cfg : GraphRagConfiguration} {query : GraphRagQuery} {scope : RetrievalScope}
  {seeds : List String}

/-- A claim that passes the checks of its own. -/
structure InOrder (query : GraphRagQuery) (scope : RetrievalScope) (claim : GraphRagReadClaim) :
    Prop where
  series : claim.seriesId = query.seriesId
  hop : 1 ≤ claim.hopDistance ∧ claim.hopDistance ≤ query.hops
  few : claim.evidence.length ≤ query.evidencePerClaim
  ranked : sortedBy (fun row => evidenceRank row.toGraphEvidenceFields) claim.evidence =
    claim.evidence
  seen : ∀ item ∈ claim.evidence, scope.hides item.episode item.endMs = false

/-- The progress behind a claim that is accepted. -/
def Progress.next (query : GraphRagQuery) (progress : Progress) (claim : GraphRagReadClaim) :
    Progress :=
  let nearer (distances : Dict UUID Int) (entityId : UUID) : Dict UUID Int :=
    distances.set entityId (min ((distances.get? entityId).getD (query.hops + 1)) claim.hopDistance)
  ⟨claim.claimId :: progress.claimIds,
    nearer (nearer progress.entityDistance claim.subject.entityId) claim.object.entityId⟩

/-- The ends of a claim. -/
def ends (claim : GraphRagReadClaim) : UUID × UUID :=
  (claim.subject.entityId, claim.object.entityId)

theorem Progress.next_distance (progress : Progress) (claim : GraphRagReadClaim) :
    (progress.next query claim).distance query =
      nearer (progress.distance query) (ends claim).1 (ends claim).2 claim.hopDistance := by
  funext point
  unfold distance next nearer ends
  dsimp only
  rw [Dict.get?_set, Dict.get?_set, Dict.get?_set]
  by_cases object : point = claim.object.entityId
  · rw [if_pos object, if_pos (Or.inr object), Option.getD_some]
    by_cases subject : claim.object.entityId = claim.subject.entityId
    · rw [if_pos subject, Option.getD_some, object, subject, min_assoc, min_self]
    · rw [if_neg subject, object]
  · rw [if_neg object]
    by_cases subject : point = claim.subject.entityId
    · rw [if_pos subject, if_pos (Or.inl subject), Option.getD_some, subject]
    · rw [if_neg subject, if_neg (not_or.mpr ⟨subject, object⟩)]

/-- The loop over the evidence of a claim has no complaint. -/
theorem checkEvidence_total {claim : GraphRagReadClaim} {items : List GraphRagReadEvidence}
    {seen : List UUID} (own : ∀ item ∈ items, item.claimId = claim.claimId)
    (shown : ∀ item ∈ items, scope.hides item.episode item.endMs = false)
    (once : (items.map fun item => item.evidenceId).Nodup)
    (fresh : ∀ item ∈ items, item.evidenceId ∉ seen) :
    ∃ after, items.foldlM (checkEvidence scope claim) seen = .ok after := by
  induction items generalizing seen with
  | nil => exact ⟨seen, rfl⟩
  | cons item rest ih =>
      rw [List.map_cons, List.nodup_cons] at once
      obtain ⟨new, later⟩ := List.forall_mem_cons.mp fresh
      obtain ⟨visible, others⟩ := List.forall_mem_cons.mp shown
      obtain ⟨belongs, owned⟩ := List.forall_mem_cons.mp own
      have one : checkEvidence scope claim seen item = .ok (item.evidenceId :: seen) := by
        unfold checkEvidence
        rw [reject_bind_eq_ok, reject_bind_eq_ok, reject_bind_eq_ok, reject_bind_eq_ok]
        refine ⟨not_or.mpr ⟨new, not_not.mpr belongs⟩, ?_, not_not.mpr item.valid.2.2.2.1,
          not_not.mpr item.valid.2.2.2.2, rfl⟩
        rw [visible]
        exact Bool.false_ne_true
      rw [List.foldlM_cons, one, ok_bind]
      refine ih owned others once.2 fun other member => ?_
      rw [List.mem_cons, not_or]
      exact ⟨fun same => once.1 (List.mem_map.mpr ⟨other, member, same⟩), later other member⟩

/-- A claim in order is accepted exactly if it is new and as far from the seeds as it says. -/
theorem checkClaim_eq_ok {claim : GraphRagReadClaim} (ordered : InOrder query scope claim)
    {progress after : Progress} : checkClaim query scope progress claim = .ok after ↔
      claim.claimId ∉ progress.claimIds ∧
      min (progress.distance query (ends claim).1) (progress.distance query (ends claim).2) + 1 =
        claim.hopDistance ∧ progress.next query claim = after := by
  obtain ⟨subject_series, object_series, -, -, -, -, some_evidence, -, once, own, id⟩ := claim.valid
  have in_series : ∀ entity ∈ [claim.subject, claim.object], entity.seriesId = query.seriesId := by
    intro entity member
    rw [← ordered.series]
    rcases List.mem_pair.mp member with rfl | rfl
    · exact subject_series
    · exact object_series
  have some_ids : ∃ ids, claim.evidence.foldlM (checkEvidence scope claim) [] = .ok ids :=
    checkEvidence_total (fun item member => (own item member).1) ordered.seen once
      fun _ _ => List.not_mem_nil
  obtain ⟨ids, each⟩ := some_ids
  have hop := ordered.hop
  have few := ordered.few
  unfold checkClaim
  rw [reject_bind_eq_ok, reject_bind_eq_ok, reject_bind_eq_ok, reject_bind_eq_ok, each, ok_bind,
    reject_bind_eq_ok]
  constructor
  · rintro ⟨shape, -, -, -, near, made⟩
    exact ⟨fun seen => shape (Or.inl seen), not_not.mp near, Except.ok.inj made⟩
  · rintro ⟨new, near, made⟩
    refine ⟨?_, ?_, ?_, not_not.mpr ordered.ranked.symm, not_not.mpr near, congrArg Except.ok made⟩
    · rintro (seen | foreign | low | high | many)
      · exact new seen
      · exact foreign ordered.series
      · omega
      · omega
      · omega
    · rintro ⟨entity, member, foreign | other⟩
      · exact foreign (in_series entity member)
      · exact other entity.valid.2.2.2.2.2.2.2.2
    · rintro (other | none_left)
      · exact other id
      · exact some_evidence none_left

section Loop

variable {claims : List GraphRagReadClaim}

theorem foldlM_checkClaim {before : List GraphRagReadClaim} {first state : Progress}
    (ordered : ∀ claim ∈ before, InOrder query scope claim)
    (ran : before.foldlM (checkClaim query scope) first = .ok state) :
    before.foldl (Progress.next query) first = state := by
  induction before generalizing first with
  | nil => exact Except.ok.inj ran
  | cons claim rest ih =>
      obtain ⟨here, later⟩ := List.forall_mem_cons.mp ordered
      rw [List.foldlM_cons, bind_eq_ok] at ran
      obtain ⟨next, one, ran⟩ := ran
      obtain ⟨-, -, rfl⟩ := (checkClaim_eq_ok here).mp one
      exact ih later ran

theorem foldl_next_claimIds (before : List GraphRagReadClaim) (first : Progress)
    (id : UUID) : id ∈ (before.foldl (Progress.next query) first).claimIds ↔
      id ∈ first.claimIds ∨ ∃ claim ∈ before, claim.claimId = id := by
  induction before generalizing first with
  | nil => simp
  | cons claim rest ih =>
      rw [List.foldl_cons, ih, List.exists_mem_cons_iff, ← or_assoc]
      refine or_congr_left ?_
      change id ∈ claim.claimId :: first.claimIds ↔ _
      rw [List.mem_cons, or_comm, eq_comm]

theorem foldl_next_distances {named : Set UUID} {before : List GraphRagReadClaim}
    (ordered : ∀ claim ∈ before, InOrder query scope claim) {done : List GraphRagReadClaim}
    {first : Progress}
    (distances : Distances named ends (fun claim => claim.hopDistance) done (first.distance query)) :
    Distances named ends (fun claim => claim.hopDistance) (done ++ before)
      ((before.foldl (Progress.next query) first).distance query) := by
  induction before generalizing done first with
  | nil =>
      rw [List.append_nil]
      exact distances
  | cons claim rest ih =>
      obtain ⟨here, later⟩ := List.forall_mem_cons.mp ordered
      have next := distances.next here.hop.1
      rw [← Progress.next_distance] at next
      have whole := ih later next
      rw [List.append_assoc, List.singleton_append] at whole
      exact whole

/-- An entity of the answer is a seed where one of its spellings is. -/
theorem mem_seedEntityIds {entityId : UUID} : entityId ∈ seedEntityIds claims seeds ↔
    ∃ claim ∈ claims, ∃ entity ∈ [claim.subject, claim.object], entity.entityId = entityId ∧
      ∃ alias_ ∈ entity.aliases, ∃ seed ∈ seeds, normalizeGraphIdentity alias_ = some seed := by
  unfold seedEntityIds
  rw [List.mem_filterMap]
  constructor
  · rintro ⟨entity, member, found⟩
    obtain ⟨claim, inside, endpoint⟩ := List.mem_flatMap.mp member
    split at found
    · rename_i named
      exact ⟨claim, inside, entity, endpoint, Option.some.inj found, named⟩
    · cases found
  · rintro ⟨claim, inside, entity, endpoint, same, named⟩
    exact ⟨entity, List.mem_flatMap.mpr ⟨claim, inside, endpoint⟩, by rw [if_pos named, same]⟩

/-- The distances that the loop starts with. -/
theorem start_distances (named : List UUID) (hops : 1 ≤ query.hops) :
    Distances {entityId | entityId ∈ named} ends (fun claim => claim.hopDistance) []
      (Progress.distance ⟨[], Dict.ofList (named.map fun entityId => (entityId, 0))⟩ query) := by
  apply Distances.start
  · intro entityId member
    have key : entityId ∈ (named.map fun entityId => (entityId, (0 : Int))).map Prod.fst := by
      rw [List.map_map]
      exact List.mem_map.mpr ⟨entityId, member, rfl⟩
    obtain ⟨distance, found⟩ := Dict.get?_of_mem_keys (Dict.mem_keys_ofList key)
    obtain ⟨other, -, same⟩ := List.mem_map.mp (Dict.mem_of_get?_ofList found)
    cases same
    unfold Progress.distance
    rw [found, Option.getD_some]
  · intro entityId outside
    unfold Progress.distance
    cases found : (Dict.ofList (named.map fun entityId => (entityId, (0 : Int)))).get? entityId with
    | none =>
        rw [Option.getD_none]
        omega
    | some distance =>
        obtain ⟨other, member, same⟩ := List.mem_map.mp (Dict.mem_of_get?_ofList found)
        cases same
        exact absurd member outside

theorem pairwise_sorted : (sortedBy claimDistance claims).Pairwise fun a b =>
    a.hopDistance ≤ b.hopDistance := by
  refine (sortedBy_pairwise claimDistance claims).imp fun {a b} le => ?_
  rcases Prod.Lex.toLex_le_toLex.mp le with closer | ⟨same, -⟩
  · exact closer.le
  · exact same.le

/-- A claim of a later hop touches one of the first hop. -/
def Touches (claims : List GraphRagReadClaim) (claim : GraphRagReadClaim) : Prop :=
  ∃ earlier ∈ claims, earlier.hopDistance = 1 ∧
    ∃ met ∈ [(ends earlier).1, (ends earlier).2], met ∈ [(ends claim).1, (ends claim).2]

/-- A claim of the first hop stands before one of a later hop. -/
theorem mem_before_of_first {before after : List GraphRagReadClaim} {claim earlier : GraphRagReadClaim}
    (sorted : sortedBy claimDistance claims = before ++ claim :: after) (later : 1 < claim.hopDistance)
    (member : earlier ∈ claims) (first : earlier.hopDistance = 1) : earlier ∈ before := by
  have order : (sortedBy claimDistance claims).Pairwise _ := pairwise_sorted
  rw [sorted, List.pairwise_append, List.pairwise_cons] at order
  have inside : earlier ∈ before ++ claim :: after := sorted ▸ mem_sortedBy.mpr member
  rcases List.mem_append.mp inside with here | behind
  · exact here
  · rcases List.mem_cons.mp behind with rfl | behind
    · omega
    · have le := order.2.1.1 earlier behind
      omega

/-- Claims in order are accepted exactly if those on the first hop are the ones a seed touches. -/
theorem validateResults_total_iff (few : claims.length ≤ cfg.maxClaims)
    (once : (claims.map fun claim => claim.claimId).Nodup)
    (ordered : ∀ claim ∈ claims, InOrder query scope claim)
    (hops : 1 ≤ query.hops ∧ query.hops ≤ 2)
    (touches : ∀ claim ∈ claims, claim.hopDistance = 2 → Touches claims claim) :
    (∃ validated, validateResults cfg claims query scope seeds = .ok validated) ↔
      ∀ claim ∈ claims, (claim.hopDistance = 1 ↔ (ends claim).1 ∈ seedEntityIds claims seeds ∨
        (ends claim).2 ∈ seedEntityIds claims seeds) := by
  let sorted := sortedBy claimDistance claims
  let named := seedEntityIds sorted seeds
  let first : Progress := ⟨[], Dict.ofList (named.map fun entityId => (entityId, 0))⟩
  have same_named : ∀ entityId, entityId ∈ named ↔ entityId ∈ seedEntityIds claims seeds := by
    intro entityId
    rw [mem_seedEntityIds, mem_seedEntityIds]
    simp only [sorted, mem_sortedBy]
  have in_order : ∀ claim ∈ sorted, InOrder query scope claim :=
    fun claim member => ordered claim (mem_sortedBy.mp member)
  -- Behind any claims of the sorted answer the distances are known.
  have behind {before rest : List GraphRagReadClaim} (split : sorted = before ++ rest) :
      Distances {entityId | entityId ∈ named} ends (fun claim => claim.hopDistance) before
        ((before.foldl (Progress.next query) first).distance query) := by
    have start := start_distances named hops.1
    refine foldl_next_distances (fun claim member => in_order claim ?_) start
    rw [split]
    exact List.mem_append_left _ member
  have accepted : (∃ validated, validateResults cfg claims query scope seeds = .ok validated) ↔
      ∃ last, sorted.foldlM (checkClaim query scope) first = .ok last := by
    unfold validateResults
    rw [reject_of_not (Nat.not_lt.mpr few), ok_bind]
    simp only [bind_eq_ok]
    constructor
    · rintro ⟨validated, last, ran, -⟩
      exact ⟨last, ran⟩
    · rintro ⟨last, ran⟩
      exact ⟨sorted, last, ran, rfl⟩
  rw [accepted]
  constructor
  · rintro ⟨last, ran⟩ claim member
    have inside : claim ∈ sorted := mem_sortedBy.mpr member
    obtain ⟨before, after, split⟩ := List.append_of_mem inside
    have start := behind split
    rw [split, List.foldlM_append, bind_eq_ok] at ran
    obtain ⟨state, ran, rest⟩ := ran
    rw [List.foldlM_cons, bind_eq_ok] at rest
    obtain ⟨next, one, -⟩ := rest
    have reached := foldlM_checkClaim (fun claim inside => in_order claim
      (split ▸ List.mem_append_left _ inside)) ran
    obtain ⟨-, near, -⟩ := (checkClaim_eq_ok (ordered claim member)).mp one
    rw [← near, ← reached, start.first_iff]
    exact or_congr (same_named _) (same_named _)
  · intro agree
    rw [foldlM_total_iff]
    intro before claim after split state ran
    have inside : claim ∈ sorted := split ▸ List.mem_append_right _ List.mem_cons_self
    have member := mem_sortedBy.mp inside
    have start := behind split
    have reached := foldlM_checkClaim (fun claim inside => in_order claim
      (split ▸ List.mem_append_left _ inside)) ran
    have unique : (sorted.map fun claim => claim.claimId).Nodup :=
      ((sortedBy_perm claimDistance claims).map _).nodup_iff.mpr once
    refine ⟨_, (checkClaim_eq_ok (ordered claim member)).mpr ⟨?_, ?_, rfl⟩⟩
    · rw [← reached, foldl_next_claimIds]
      rintro (none_yet | ⟨other, earlier, same⟩)
      · exact List.not_mem_nil none_yet
      · rw [split, List.map_append, List.nodup_append] at unique
        exact unique.2.2 _ (List.mem_map_of_mem earlier) _ List.mem_cons_self same
    · have hop := (ordered claim member).hop
      rw [← reached]
      by_cases one : claim.hopDistance = 1
      · rw [one, start.first_iff]
        exact (or_congr (same_named _) (same_named _)).mpr ((agree claim member).mp one)
      · have two : claim.hopDistance = 2 := by omega
        have outside := mt (agree claim member).mpr one
        rw [not_or, ← same_named, ← same_named] at outside
        obtain ⟨earlier, known, near, touch⟩ := touches claim member two
        have before_it := mem_before_of_first split (by omega) known near
        rw [two]
        exact start.second outside before_it near touch

end Loop

end GraphRagQueryService

end Cinegraph
