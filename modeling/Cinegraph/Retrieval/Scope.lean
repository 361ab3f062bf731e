import Cinegraph.Domain.SpoilerPolicy

/-!
The retrieval scope: which episodes of a series a request may read, and up to
which time. The compiler builds it from the watch state and the corpus grant.
-/

namespace Cinegraph

open Library

namespace RetrievalErrorMessages

def EPISODE_VISIBILITY_SCOPE_SAFE_UNTIL_MS_MUST_BE_NON_NEGATIVE : String :=
  "Episode visibility scope safe_until_ms must be non-negative."
def RETRIEVAL_SCOPE_EPISODES_MUST_MATCH_SERIES : String :=
  "Retrieval scope episodes must match the series."
def RETRIEVAL_SCOPE_CANNOT_HAVE_DUPLICATE_EPISODES : String :=
  "Retrieval scope cannot contain duplicate episode IDs."
def CANDIDATE_EPISODES_MUST_MATCH_SERIES : String :=
  "Candidate episodes must match the requested series."

end RetrievalErrorMessages

open RetrievalErrorMessages

structure EpisodeVisibilityScope where
  episode : EpisodeRef
  safeUntilMs : Option Int
  safe_nonneg : ∀ ms ∈ safeUntilMs, 0 ≤ ms
  deriving DecidableEq

namespace EpisodeVisibilityScope

def make (episode : EpisodeRef) (safeUntilMs : Option Int) :
    Except Raised EpisodeVisibilityScope :=
  if nonneg : ∀ ms ∈ safeUntilMs, 0 ≤ ms then .ok ⟨episode, safeUntilMs, nonneg⟩
  else .error ⟨.invalidModel, EPISODE_VISIBILITY_SCOPE_SAFE_UNTIL_MS_MUST_BE_NON_NEGATIVE⟩

/-- The whole of an episode. -/
def full (episode : EpisodeRef) : EpisodeVisibilityScope := ⟨episode, none, nofun⟩

end EpisodeVisibilityScope

structure RetrievalScope where
  seriesId : UUID
  episodeScopes : List EpisodeVisibilityScope
  episodes_series : ∀ s ∈ episodeScopes, s.episode.seriesId = seriesId
  episodes_unique : (episodeScopes.map fun s => s.episode.episodeId).Nodup

namespace RetrievalScope

/-- What the loop over the episode scopes says first. -/
def fault (seriesId : UUID) : List UUID → List EpisodeVisibilityScope → String
  | _, [] => RETRIEVAL_SCOPE_CANNOT_HAVE_DUPLICATE_EPISODES
  | episodeIds, s :: rest =>
      if s.episode.seriesId ≠ seriesId then RETRIEVAL_SCOPE_EPISODES_MUST_MATCH_SERIES
      else if s.episode.episodeId ∈ episodeIds then RETRIEVAL_SCOPE_CANNOT_HAVE_DUPLICATE_EPISODES
      else fault seriesId (s.episode.episodeId :: episodeIds) rest

def make (seriesId : UUID) (episodeScopes : List EpisodeVisibilityScope) :
    Except Raised RetrievalScope :=
  if valid : (∀ s ∈ episodeScopes, s.episode.seriesId = seriesId) ∧
      (episodeScopes.map fun s => s.episode.episodeId).Nodup then
    .ok ⟨seriesId, episodeScopes, valid.1, valid.2⟩
  else .error ⟨.invalidModel, fault seriesId [] episodeScopes⟩

theorem make_ok {seriesId : UUID} {episodeScopes : List EpisodeVisibilityScope}
    {scope : RetrievalScope} (made : make seriesId episodeScopes = .ok scope) :
    scope.seriesId = seriesId ∧ scope.episodeScopes = episodeScopes := by
  unfold make at made
  split at made
  · cases made
    exact ⟨rfl, rfl⟩
  · cases made

end RetrievalScope

namespace RetrievalScopeCompiler

/-- One turn of the loop over the candidates. -/
def compileEpisode (watchState : Option ProfileWatchState) (corpusAccessScope : CorpusAccessScope)
    (episodeScopes : List EpisodeVisibilityScope) (episode : EpisodeRef) :
    Except Raised (List EpisodeVisibilityScope) :=
  if !corpusAccessScope.allowsEpisode episode then .ok episodeScopes
  else if SpoilerPolicy.canAccess {episode} watchState then do
    let scope ← EpisodeVisibilityScope.make episode none
    .ok (episodeScopes ++ [scope])
  else
    match SpoilerPolicy.partialSafeUntilMsFor episode watchState with
    | none => .ok episodeScopes
    | some safeUntilMs => do
        let scope ← EpisodeVisibilityScope.make episode (some safeUntilMs)
        .ok (episodeScopes ++ [scope])

def compile (seriesId : UUID) (candidateEpisodes : List EpisodeRef)
    (watchState : Option ProfileWatchState) (corpusAccessScope : CorpusAccessScope) :
    Except Raised RetrievalScope := do
  reject (∃ episode ∈ candidateEpisodes, episode.seriesId ≠ seriesId)
    CANDIDATE_EPISODES_MUST_MATCH_SERIES
  let episodeScopes ← candidateEpisodes.foldlM (compileEpisode watchState corpusAccessScope) []
  RetrievalScope.make seriesId episodeScopes

/-- What the viewer may see of an episode. -/
def visibility (watchState : Option ProfileWatchState) (corpusAccessScope : CorpusAccessScope)
    (episode : EpisodeRef) : Option EpisodeVisibilityScope :=
  if corpusAccessScope.allowsEpisode episode = true then
    if SpoilerPolicy.canAccess {episode} watchState = true then some (.full episode)
    else
      match cutoff : SpoilerPolicy.partialSafeUntilMsFor episode watchState with
      | none => none
      | some ms => some ⟨episode, some ms, fun _ same => by
          cases same
          exact SpoilerPolicy.partialSafeUntilMsFor_nonneg cutoff⟩
  else none

variable {watchState : Option ProfileWatchState} {corpus : CorpusAccessScope}

theorem visibility_episode {episode : EpisodeRef} {scope : EpisodeVisibilityScope}
    (seen : visibility watchState corpus episode = some scope) : scope.episode = episode := by
  unfold visibility at seen
  split at seen
  · split at seen
    · cases seen
      rfl
    · split at seen
      · cases seen
      · cases seen
        rfl
  · cases seen

theorem visibility_ids_sublist (candidates : List EpisodeRef) :
    List.Sublist ((candidates.filterMap (visibility watchState corpus)).map
      fun s => s.episode.episodeId) (candidates.map EpisodeRef.episodeId) := by
  induction candidates with
  | nil => exact List.Sublist.slnil
  | cons e rest ih =>
      cases seen : visibility watchState corpus e with
      | none =>
          rw [List.filterMap_cons_none seen, List.map_cons]
          exact ih.cons _
      | some s =>
          rw [List.filterMap_cons_some seen, List.map_cons, List.map_cons, visibility_episode seen]
          exact ih.cons_cons _

theorem compileEpisode_eq (scopes : List EpisodeVisibilityScope) (episode : EpisodeRef) :
    compileEpisode watchState corpus scopes episode =
      .ok (scopes ++ (visibility watchState corpus episode).toList) := by
  unfold compileEpisode visibility
  cases allowed : corpus.allowsEpisode episode with
  | false => simp
  | true =>
      cases open_to : SpoilerPolicy.canAccess {episode} watchState with
      | true => simp [EpisodeVisibilityScope.make, EpisodeVisibilityScope.full]
      | false =>
          simp only [Bool.not_true, Bool.false_eq_true, if_false, if_true]
          split
          · rename_i cutoff
            split
            · simp
            · rename_i known
              rw [cutoff] at known
              cases known
          · rename_i ms cutoff
            split
            · rename_i known
              rw [cutoff] at known
              cases known
            · rename_i known
              rw [cutoff] at known
              cases known
              have nonneg := SpoilerPolicy.partialSafeUntilMsFor_nonneg cutoff
              simp [EpisodeVisibilityScope.make, nonneg]

theorem foldlM_compileEpisode (candidates : List EpisodeRef)
    (scopes : List EpisodeVisibilityScope) :
    candidates.foldlM (compileEpisode watchState corpus) scopes =
      .ok (scopes ++ candidates.filterMap (visibility watchState corpus)) := by
  induction candidates generalizing scopes with
  | nil => simp [pure, Except.pure]
  | cons episode rest ih =>
      rw [List.foldlM_cons, compileEpisode_eq, ok_bind, ih, List.append_assoc]
      cases seen : visibility watchState corpus episode <;> simp [seen]

/-- The episodes of the scope are candidates in their order, each as far as it may be seen. -/
theorem compile_ok {seriesId : UUID} {candidates : List EpisodeRef} {scope : RetrievalScope}
    (compiled : compile seriesId candidates watchState corpus = .ok scope) :
    (∀ e ∈ candidates, e.seriesId = seriesId) ∧ scope.seriesId = seriesId ∧
      scope.episodeScopes = candidates.filterMap (visibility watchState corpus) := by
  unfold compile at compiled
  rw [reject_bind_eq_ok, foldlM_compileEpisode, ok_bind] at compiled
  obtain ⟨own, made⟩ := compiled
  have parts := RetrievalScope.make_ok made
  refine ⟨?_, parts.1, parts.2⟩
  intro e member
  by_contra foreign
  exact own ⟨e, member, foreign⟩

/-- Candidates of the series with ids of their own always compile. -/
theorem compile_total {seriesId : UUID} {candidates : List EpisodeRef}
    (own : ∀ e ∈ candidates, e.seriesId = seriesId)
    (unique : (candidates.map EpisodeRef.episodeId).Nodup) :
    ∃ scope, compile seriesId candidates watchState corpus = .ok scope := by
  have seen_own : ∀ s ∈ candidates.filterMap (visibility watchState corpus),
      s.episode.seriesId = seriesId := by
    intro s member
    obtain ⟨e, candidate, seen⟩ := List.mem_filterMap.mp member
    rw [visibility_episode seen]
    exact own e candidate
  have seen_unique : ((candidates.filterMap (visibility watchState corpus)).map
      fun s => s.episode.episodeId).Nodup := by
    exact unique.sublist (visibility_ids_sublist candidates)
  have no_foreign : ¬∃ e ∈ candidates, e.seriesId ≠ seriesId := by
    rintro ⟨e, member, foreign⟩
    exact foreign (own e member)
  refine ⟨⟨seriesId, _, seen_own, seen_unique⟩, ?_⟩
  unfold compile
  rw [reject_bind_eq_ok, foldlM_compileEpisode, ok_bind]
  exact ⟨no_foreign, dif_pos ⟨seen_own, seen_unique⟩⟩

end RetrievalScopeCompiler

end Cinegraph
