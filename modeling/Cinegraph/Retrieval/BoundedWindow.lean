import Cinegraph.Retrieval.Scope

/-!
The window of episodes up to a boundary, as both protected spoiler modes encode
it and as the scope compiler reads it back.
-/

namespace Cinegraph

open Library AgentJobErrorMessages

namespace BoundedWindow

section Build

variable {profileId seriesId : UUID} {profileName : String} {candidates : List EpisodeRef}
  {spoilerMode : SpoilerMode} {boundary : EpisodeRef}

/-- The one series state of a window. -/
structure Encodes (watchState : ProfileWatchState) (series : SeriesWatchState) (seriesId : UUID)
    (candidates : List EpisodeRef) (spoilerMode : SpoilerMode) (boundary : EpisodeRef) : Prop where
  mode : watchState.spoilerMode = spoilerMode
  states : watchState.seriesWatchStates = [series]
  of_series : series.seriesId = seriesId
  no_progress : series.episodeProgress = []
  allowed : ∀ e ∈ candidates, e ∈ series.manuallyAllowedEpisodes ↔
    spoilerMode = .strict ∧ e.position ≤ boundary.position
  safe_boundary : series.sequentialSafeBoundary =
    if spoilerMode = .sequential then some boundary else none

theorem find_boundary (unique : (candidates.map EpisodeRef.episodeId).Nodup)
    (member : boundary ∈ candidates) :
    candidates.find? (fun e => some e.episodeId = some boundary.episodeId) = some boundary := by
  induction candidates with
  | nil => cases member
  | cons e rest ih =>
      rw [List.map_cons, List.nodup_cons] at unique
      rcases List.mem_cons.mp member with rfl | later
      · exact List.find?_cons_of_pos (decide_eq_true rfl)
      · have other : e.episodeId ≠ boundary.episodeId := by
          intro same
          exact unique.1 (same ▸ List.mem_map_of_mem later)
        rw [List.find?_cons_of_neg]
        · exact ih unique.2 later
        · simpa using other

theorem build_encodes (named : Trimmed profileName) (protected_mode : spoilerMode ≠ .relaxed)
    (own : ∀ e ∈ candidates, e.seriesId = seriesId)
    (unique : (candidates.map EpisodeRef.episodeId).Nodup) (member : boundary ∈ candidates) :
    ∃ watchState series, buildBoundedWatchState profileId profileName seriesId candidates
        spoilerMode (some boundary.episodeId) = .ok watchState ∧
      Encodes watchState series seriesId candidates spoilerMode boundary := by
  have boundary_own : ∀ e ∈ (if spoilerMode = .sequential then some boundary else none),
      e.seriesId = seriesId := by
    intro e chosen
    split at chosen
    · cases chosen
      exact own boundary member
    · cases chosen
  have allowed_own : ∀ e ∈ (if spoilerMode = .strict then
      (candidates.filter fun episode => episode.position ≤ boundary.position).toFinset else ∅),
      e.seriesId = seriesId := by
    intro e chosen
    split at chosen
    · rw [List.mem_toFinset, List.mem_filter] at chosen
      exact own e chosen.1
    · cases chosen
  obtain ⟨series, made, of_series, no_progress, allowed, safe_boundary⟩ :=
    SeriesWatchState.make_total boundary_own allowed_own
  refine ⟨⟨profileId, profileName, [series], spoilerMode, 0, named, List.nodup_singleton _,
    Int.le_refl 0⟩, series, ?_, ⟨rfl, rfl, of_series, no_progress, ?_, safe_boundary⟩⟩
  · unfold buildBoundedWatchState
    rw [if_neg protected_mode, find_boundary unique member]
    simp only [made, ok_bind, ProfileWatchState.make, dif_pos named]
    exact (dif_pos (List.nodup_singleton _)).trans (dif_pos (Int.le_refl 0))
  · intro e candidate
    rw [allowed]
    by_cases strict : spoilerMode = .strict
    · simp [strict, candidate]
    · simp [strict]

theorem Encodes.found {watchState : ProfileWatchState} {series : SeriesWatchState}
    (encodes : Encodes watchState series seriesId candidates spoilerMode boundary)
    {episode : EpisodeRef} (own : episode.seriesId = seriesId) :
    watchState.seriesWatchStateFor episode.seriesId = some series := by
  unfold ProfileWatchState.seriesWatchStateFor
  rw [encodes.states, List.find?_cons_of_pos]
  exact decide_eq_true (encodes.of_series.trans own.symm)

/-- Both encodings of a window open the episodes up to its boundary. -/
theorem canAccessEpisode_iff {watchState : ProfileWatchState} {series : SeriesWatchState}
    (encodes : Encodes watchState series seriesId candidates spoilerMode boundary)
    (protected_mode : spoilerMode ≠ .relaxed) {episode : EpisodeRef}
    (own : episode.seriesId = seriesId) (member : episode ∈ candidates) :
    SpoilerPolicy.canAccessEpisode episode watchState = true ↔
      episode.position ≤ boundary.position := by
  have unwatched : series.isFullyWatched episode = false := by
    simp [SeriesWatchState.isFullyWatched, SeriesWatchState.progressFor, encodes.no_progress]
  unfold SpoilerPolicy.canAccessEpisode
  rw [encodes.mode, if_neg protected_mode, encodes.found own]
  simp only [unwatched, encodes.allowed episode member, encodes.safe_boundary]
  cases spoilerMode with
  | relaxed => exact absurd rfl protected_mode
  | strict => simp
  | sequential => simp

theorem visibility_eq {watchState : ProfileWatchState} {series : SeriesWatchState}
    (encodes : Encodes watchState series seriesId candidates spoilerMode boundary)
    (protected_mode : spoilerMode ≠ .relaxed) {corpus : CorpusAccessScope} {episode : EpisodeRef}
    (own : episode.seriesId = seriesId) (member : episode ∈ candidates) :
    RetrievalScopeCompiler.visibility (some watchState) corpus episode =
      if episode.position ≤ boundary.position ∧ corpus.allowsEpisode episode = true then
        some (.full episode)
      else none := by
  have opened := canAccessEpisode_iff encodes protected_mode own member
  have no_cutoff : SpoilerPolicy.partialSafeUntilMsFor episode (some watchState) = none := by
    simp [SpoilerPolicy.partialSafeUntilMsFor, encodes.found own, SeriesWatchState.safeUntilMsFor,
      SeriesWatchState.progressFor, encodes.no_progress]
  unfold RetrievalScopeCompiler.visibility
  rw [SpoilerPolicy.canAccess_single]
  by_cases allowed : corpus.allowsEpisode episode = true
  · by_cases within : episode.position ≤ boundary.position
    · rw [if_pos allowed, if_pos (opened.mpr within), if_pos ⟨within, allowed⟩]
    · rw [if_pos allowed, if_neg fun h => within (opened.mp h), if_neg fun h => within h.1]
      split
      · rfl
      · rename_i cutoff
        rw [no_cutoff] at cutoff
        cases cutoff
  · rw [if_neg allowed, if_neg fun h => allowed h.2]

end Build

/-- The scope of a request bounded by the last episode its viewer has seen. -/
def boundedScope (profileId : UUID) (profileName : String) (seriesId : UUID)
    (candidates : List EpisodeRef) (corpus : CorpusAccessScope) (spoilerMode : SpoilerMode)
    (safeThroughEpisodeId : Option UUID) : Except Raised RetrievalScope := do
  let watchState ← buildBoundedWatchState profileId profileName seriesId candidates spoilerMode
    safeThroughEpisodeId
  RetrievalScopeCompiler.compile seriesId candidates (some watchState) corpus

/-- The candidates within the window that the corpus grants. -/
def window (candidates : List EpisodeRef) (corpus : CorpusAccessScope) (boundary : EpisodeRef) :
    List EpisodeRef :=
  candidates.filter fun e => e.position ≤ boundary.position ∧ corpus.allowsEpisode e = true

theorem window_mono {candidates : List EpisodeRef} {corpus : CorpusAccessScope}
    {first second : EpisodeRef} (within : first.position ≤ second.position) :
    window candidates corpus first ⊆ window candidates corpus second := by
  intro e member
  have ⟨candidate, seen⟩ := List.mem_filter.mp member
  have ⟨before, allowed⟩ := of_decide_eq_true seen
  exact List.mem_filter.mpr ⟨candidate, decide_eq_true ⟨le_trans before within, allowed⟩⟩

theorem boundedScope_eq {profileId seriesId : UUID} {profileName : String}
    {candidates : List EpisodeRef} {corpus : CorpusAccessScope} {spoilerMode : SpoilerMode}
    {boundary : EpisodeRef} (named : Trimmed profileName) (protected_mode : spoilerMode ≠ .relaxed)
    (own : ∀ e ∈ candidates, e.seriesId = seriesId)
    (unique : (candidates.map EpisodeRef.episodeId).Nodup) (member : boundary ∈ candidates) :
    ∃ scope, boundedScope profileId profileName seriesId candidates corpus spoilerMode
        (some boundary.episodeId) = .ok scope ∧ scope.seriesId = seriesId ∧
      scope.episodeScopes = (window candidates corpus boundary).map .full := by
  obtain ⟨watchState, series, built, encodes⟩ :=
    @build_encodes profileId _ _ _ _ _ named protected_mode own unique member
  obtain ⟨scope, compiled⟩ := @RetrievalScopeCompiler.compile_total (some watchState)
    corpus _ _ own unique
  have parts := RetrievalScopeCompiler.compile_ok compiled
  refine ⟨scope, ?_, parts.2.1, ?_⟩
  · unfold boundedScope
    rw [built, ok_bind, compiled]
  · have each : ∀ e ∈ candidates,
        RetrievalScopeCompiler.visibility (some watchState) corpus e =
          (Option.guard (fun e => decide (e.position ≤ boundary.position ∧
            corpus.allowsEpisode e = true)) e).map .full := by
      intro e candidate
      rw [visibility_eq encodes protected_mode (own e candidate) candidate, Option.guard]
      split <;> simp_all
    rw [parts.2.2, List.filterMap_congr each, window, ← List.filterMap_eq_filter,
      List.map_filterMap]

/-- In both protected modes the compiled scope is the window up to the boundary, an unknown
boundary is refused, and a later boundary keeps every episode. -/
theorem bounded_window_exact (profileId : UUID) (profileName : String) (seriesId : UUID)
    (candidates : List EpisodeRef) (corpus : CorpusAccessScope) (named : Trimmed profileName)
    (own : ∀ e ∈ candidates, e.seriesId = seriesId)
    (unique : (candidates.map EpisodeRef.episodeId).Nodup) :
    ∀ spoilerMode, spoilerMode = .strict ∨ spoilerMode = .sequential →
      (∀ boundary ∈ candidates, ∃ scope,
        boundedScope profileId profileName seriesId candidates corpus spoilerMode
          (some boundary.episodeId) = .ok scope ∧ scope.seriesId = seriesId ∧
        scope.episodeScopes = (candidates.filter fun e => e.position ≤ boundary.position ∧
          corpus.allowsEpisode e = true).map .full) ∧
      (∀ safeThroughEpisodeId, (∀ e ∈ candidates, some e.episodeId ≠ safeThroughEpisodeId) →
        boundedScope profileId profileName seriesId candidates corpus spoilerMode
          safeThroughEpisodeId = .error (valueError SPOILER_BOUNDARY_INVALID)) ∧
      (∀ first ∈ candidates, ∀ second ∈ candidates, first.position ≤ second.position →
        ∀ small large,
          boundedScope profileId profileName seriesId candidates corpus spoilerMode
            (some first.episodeId) = .ok small →
          boundedScope profileId profileName seriesId candidates corpus spoilerMode
            (some second.episodeId) = .ok large →
          small.episodeScopes ⊆ large.episodeScopes) := by
  intro spoilerMode mode
  have protected_mode : spoilerMode ≠ .relaxed := by
    rcases mode with rfl | rfl <;> exact fun h => by cases h
  refine ⟨?_, ?_, ?_⟩
  · intro boundary member
    exact boundedScope_eq named protected_mode own unique member
  · intro safeThroughEpisodeId unknown
    have not_found : candidates.find? (fun e => some e.episodeId = safeThroughEpisodeId) = none := by
      rw [List.find?_eq_none]
      intro e member found
      exact unknown e member (of_decide_eq_true found)
    unfold boundedScope buildBoundedWatchState
    rw [if_neg protected_mode, not_found]
    rfl
  · intro first first_member second second_member within small large small_ok large_ok
    obtain ⟨scope, ok_first, -, scopes_first⟩ :=
      @boundedScope_eq profileId _ _ _ corpus _ _ named protected_mode own unique first_member
    obtain ⟨scope', ok_second, -, scopes_second⟩ :=
      @boundedScope_eq profileId _ _ _ corpus _ _ named protected_mode own unique second_member
    cases small_ok.symm.trans ok_first
    cases large_ok.symm.trans ok_second
    rw [scopes_first, scopes_second]
    exact List.map_subset _ (window_mono within)

open CatalogueSamples

def finale : EpisodeRef := ⟨⟨1⟩, ⟨2⟩, ⟨4⟩, ⟨2, 1, EpisodePosition.second_pos, EpisodePosition.first_pos⟩⟩

theorem bounded_window_exact_sample :
    Trimmed "API session" ∧ (∀ e ∈ [pilot, finale], e.seriesId = ⟨1⟩) ∧
    ([pilot, finale].map EpisodeRef.episodeId).Nodup ∧
    ∃ scope, boundedScope ⟨7⟩ "API session" ⟨1⟩ [pilot, finale] wholeCorpus .strict
        (some pilot.episodeId) = .ok scope ∧ scope.seriesId = ⟨1⟩ ∧
      scope.episodeScopes = ([pilot, finale].filter fun e => e.position ≤ pilot.position ∧
        wholeCorpus.allowsEpisode e = true).map .full := by
  have named : Trimmed "API session" := by decide
  have own : ∀ e ∈ [pilot, finale], e.seriesId = ⟨1⟩ := by decide
  have unique : ([pilot, finale].map EpisodeRef.episodeId).Nodup := by decide
  have exact_window := bounded_window_exact ⟨7⟩ "API session" ⟨1⟩ [pilot, finale] wholeCorpus named
    own unique .strict (.inl rfl)
  exact ⟨named, own, unique, exact_window.1 pilot List.mem_cons_self⟩

end BoundedWindow

end Cinegraph
