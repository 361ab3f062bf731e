import Cinegraph.Graph.NormalForms
import Cinegraph.Graph.Readable
import Cinegraph.Graph.Traversal
import Cinegraph.Library.Distances

/-!
The query service and its own reader: when the reader accepts what the service asks of it, and when
the service accepts what the reader answers.
-/

namespace Cinegraph

open Library

open GraphRagErrorMessages

namespace GraphRagQueryService

open SqlAlchemyGraphClaimReader

variable [Normalization]

/-- What the service asks of the reader. -/
def requestOf (cfg : GraphRagConfiguration) (query : GraphRagQuery) (scope : RetrievalScope)
    (seeds predicates : List String) : GraphRagReadRequest :=
  ⟨scope, seeds, predicates, query.hops, cfg.maxClaims, query.evidencePerClaim, cfg.maxFrontier⟩

section Request

variable {cfg : GraphRagConfiguration} {query : GraphRagQuery} {scope : RetrievalScope}
  {seeds predicates : List String}

/-- The limits of a query that is accepted. -/
structure Limited (cfg : GraphRagConfiguration) (query : GraphRagQuery) : Prop where
  fewSeeds : query.seedTerms.length ≤ cfg.maxSeeds
  shortSeeds : ∀ term ∈ query.seedTerms, term.length ≤ MAX_GRAPH_NAME_LENGTH
  fewPredicates : query.predicates.length ≤ cfg.maxPredicates
  episodes : query.candidateEpisodes.length ≤ cfg.maxCandidateEpisodes
  hops : query.hops ≤ cfg.maxHops
  claims : query.claimLimit ≤ cfg.maxClaims
  evidence : query.evidencePerClaim ≤ cfg.maxEvidencePerClaim

/-- The names of a query that is accepted: it has normal forms, and each once. -/
structure Spelled (query : GraphRagQuery) (seeds predicates : List String) : Prop where
  spelled : query.seedTerms.mapM normalizeGraphIdentity = some seeds
  apart : seeds.Nodup
  named : query.predicates.mapM normalizeGraphPredicate = some predicates
  short : ∀ predicate ∈ predicates, predicate.length ≤ MAX_GRAPH_PREDICATE_LENGTH
  once : predicates.Nodup

theorem validateQuery_ok (valid : validateQuery cfg query = .ok ()) :
    Limited cfg query ∧ ∃ seeds predicates, Spelled query seeds predicates := by
  unfold validateQuery at valid
  simp only [bind_eq_ok, reject_eq_ok, normalizeAll, orRaise_eq_ok, not_or, exists_const] at valid
  obtain ⟨⟨few_seeds, filled⟩, seeds, spelled, apart, few_predicates, predicates, named, short, once,
    few_episodes, -, hops, claims, evidence⟩ := valid
  refine ⟨⟨Nat.not_lt.mp few_seeds, fun term member => ?_, Nat.not_lt.mp few_predicates,
    Nat.not_lt.mp few_episodes, Int.not_lt.mp hops, Int.not_lt.mp claims, Int.not_lt.mp evidence⟩,
    seeds, predicates, spelled, not_not.mp apart, named, fun predicate member => ?_,
    not_not.mp once⟩
  · exact Nat.not_lt.mp fun long => filled ⟨term, member, Or.inr long⟩
  · exact Nat.not_lt.mp fun long => short ⟨predicate, member, long⟩

/-- The scope of a query that is accepted compiles. -/
theorem scopeOf_total (valid : validateQuery cfg query = .ok ()) :
    ∃ scope, scopeOf query = .ok scope := by
  unfold validateQuery at valid
  simp only [bind_eq_ok, reject_eq_ok, not_or, exists_const] at valid
  obtain ⟨-, seeds, -, -, -, predicates, -, -, -, -, ⟨unique, own⟩, -⟩ := valid
  apply RetrievalScopeCompiler.compile_total
  · intro e member
    by_contra foreign
    exact own ⟨e, member, foreign⟩
  · exact not_not.mp unique

/-- The reader accepts the seeds: none is longer than a name, and their normal forms differ. -/
def SeedsAccepted (seeds : List String) : Prop :=
  (∀ seed ∈ seeds, seed.length ≤ MAX_GRAPH_NAME_LENGTH) ∧
    ∃ again, seeds.mapM normalizeGraphIdentity = some again ∧ again.Nodup

omit [Normalization] in
theorem length_mapM {α β : Type} {f : α → Option β} {items : List α} {values : List β}
    (mapped : items.mapM f = some values) : items.length = values.length := by
  induction items generalizing values with
  | nil =>
      cases mapped
      rfl
  | cons item rest ih =>
      rw [List.mapM_cons, Option.bind_eq_bind, Option.bind_eq_some_iff] at mapped
      obtain ⟨value, -, mapped⟩ := mapped
      rw [Option.bind_eq_bind, Option.bind_eq_some_iff] at mapped
      obtain ⟨others, later, same⟩ := mapped
      cases same
      exact congrArg Nat.succ (ih later)

omit [Normalization] in
theorem exists_of_mem_mapM_some {α β : Type} {f : α → Option β} {items : List α} {values : List β}
    (mapped : items.mapM f = some values) {value : β} (member : value ∈ values) :
    ∃ item ∈ items, f item = some value := by
  induction items generalizing values with
  | nil =>
      cases mapped
      cases member
  | cons item rest ih =>
      rw [List.mapM_cons, Option.bind_eq_bind, Option.bind_eq_some_iff] at mapped
      obtain ⟨first, one, mapped⟩ := mapped
      rw [Option.bind_eq_bind, Option.bind_eq_some_iff] at mapped
      obtain ⟨others, later, same⟩ := mapped
      cases same
      rcases List.mem_cons.mp member with rfl | inside
      · exact ⟨item, List.mem_cons_self, one⟩
      · obtain ⟨found, among, made⟩ := ih later inside
        exact ⟨found, List.mem_cons_of_mem _ among, made⟩

/-- The request of a query that is accepted is accepted if and only if its seeds are. -/
theorem validateRequest_iff (ascii : KeepsAscii) (limited : Limited cfg query)
    (spelled : Spelled query seeds predicates) (compiled : scopeOf query = .ok scope) :
    validateRequest (requestOf cfg query scope seeds predicates) = .ok () ↔
      SeedsAccepted seeds := by
  have bounded := cfg.bounded
  have positive := cfg.positive
  have limits := query.limits_pos
  have limits_max := limited
  obtain ⟨few_seeds, -, few_predicates, few_episodes, hops, -, evidence⟩ := limited
  have count_seeds := length_mapM spelled.spelled
  have count_predicates := length_mapM spelled.named
  have some_seed : seeds ≠ [] := by
    rintro rfl
    exact query.seeds_nonempty (List.length_eq_zero_iff.mp count_seeds)
  have few : scope.episodeScopes.length ≤ query.candidateEpisodes.length := by
    obtain ⟨-, -, episodes⟩ := RetrievalScopeCompiler.compile_ok compiled
    rw [episodes]
    exact List.length_filterMap_le _ _
  have filled : ∀ seed ∈ seeds, Text.strip seed ≠ "" := by
    intro seed member
    obtain ⟨term, -, spells⟩ := exists_of_mem_mapM_some spelled.spelled member
    exact strip_of_identity spells
  have own : ∀ predicate ∈ predicates, normalizeGraphPredicate predicate = some predicate := by
    intro predicate member
    obtain ⟨term, -, spells⟩ := exists_of_mem_mapM_some spelled.named member
    exact normalizeGraphPredicate_idem ascii spells
  unfold validateRequest requestOf
  simp only [bind_eq_ok, reject_eq_ok, normalizeAll, orRaise_eq_ok, not_or, not_not, exists_const]
  constructor
  · rintro ⟨-, short, again, spells, once, -⟩
    exact ⟨fun seed member => Nat.not_lt.mp fun long => short ⟨seed, member, Or.inr long⟩, again,
      spells, once⟩
  · rintro ⟨short, again, spells, once⟩
    refine ⟨⟨by omega, some_seed, by omega⟩, ?_, again, spells, once, by omega, ⟨?_, spelled.once⟩,
      ?_, by omega, by omega, by omega, by omega⟩
    · rintro ⟨seed, member, blank | long⟩
      · exact filled seed member blank
      · exact Nat.not_lt.mpr (short seed member) long
    · rintro ⟨predicate, member, long | other⟩
      · exact Nat.not_lt.mpr (spelled.short predicate member) long
      · exact other (own predicate member)
    · rintro ⟨value, member, small⟩
      simp only [List.mem_cons, List.not_mem_nil, or_false] at member
      omega

end Request

end GraphRagQueryService

end Cinegraph
