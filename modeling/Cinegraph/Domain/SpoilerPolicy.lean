import Cinegraph.Domain.WatchState

/-!
Which episodes a profile may see, and the watch state that stands for a window
of episodes up to a boundary.
-/

namespace Cinegraph

namespace AgentJobErrorMessages

def SPOILER_BOUNDARY_INVALID : String :=
  "Agent job spoiler boundary must identify a candidate episode."

end AgentJobErrorMessages

open AgentJobErrorMessages

namespace SpoilerPolicy

def canAccessEpisode (episodeRef : EpisodeRef) (watchState : ProfileWatchState) : Bool :=
  if watchState.spoilerMode = .relaxed then true
  else
    match watchState.seriesWatchStateFor episodeRef.seriesId with
    | none => false
    | some seriesWatchState =>
        if seriesWatchState.isFullyWatched episodeRef then true
        else if episodeRef ∈ seriesWatchState.manuallyAllowedEpisodes then true
        else if watchState.spoilerMode = .strict then false
        else
          match seriesWatchState.sequentialSafeBoundary with
          | none => false
          | some boundary => decide (episodeRef.position ≤ boundary.position)

def accessibleEpisodeRefs (evidenceEpisodeRefs : Finset EpisodeRef) :
    Option ProfileWatchState → Finset EpisodeRef
  | none => ∅
  | some watchState => evidenceEpisodeRefs.filter fun e => canAccessEpisode e watchState

def canAccess (evidenceEpisodeRefs : Finset EpisodeRef) (watchState : Option ProfileWatchState) :
    Bool :=
  if evidenceEpisodeRefs = ∅ then false
  else decide (evidenceEpisodeRefs = accessibleEpisodeRefs evidenceEpisodeRefs watchState)

def partialSafeUntilMsFor (episodeRef : EpisodeRef) : Option ProfileWatchState → Option Int
  | none => none
  | some watchState =>
      if canAccessEpisode episodeRef watchState then none
      else
        match watchState.seriesWatchStateFor episodeRef.seriesId with
        | none => none
        | some seriesWatchState => seriesWatchState.safeUntilMsFor episodeRef

/-- Evidence of several episodes is open when each of them is. -/
theorem canAccess_iff {evidence : Finset EpisodeRef} {watchState : ProfileWatchState} :
    canAccess evidence (some watchState) = true ↔
      evidence ≠ ∅ ∧ ∀ e ∈ evidence, canAccessEpisode e watchState = true := by
  unfold canAccess accessibleEpisodeRefs
  split
  · rename_i empty
    exact iff_of_false (fun h => by cases h) fun h => h.1 empty
  · rename_i some_evidence
    rw [decide_eq_true_iff, eq_comm, Finset.filter_eq_self]
    exact (and_iff_right some_evidence).symm

theorem canAccess_single (episode : EpisodeRef) (watchState : ProfileWatchState) :
    canAccess {episode} (some watchState) = canAccessEpisode episode watchState := by
  rw [Bool.eq_iff_iff, canAccess_iff]
  simp

theorem not_canAccess_none (evidence : Finset EpisodeRef) : canAccess evidence none = false := by
  unfold canAccess accessibleEpisodeRefs
  split
  · rfl
  · rename_i some_evidence
    exact decide_eq_false some_evidence

theorem partialSafeUntilMsFor_nonneg {episode : EpisodeRef} {watchState : Option ProfileWatchState}
    {ms : Int} (cutoff : partialSafeUntilMsFor episode watchState = some ms) : 0 ≤ ms := by
  cases watchState with
  | none => cases cutoff
  | some watchState =>
      simp only [partialSafeUntilMsFor] at cutoff
      split at cutoff
      · cases cutoff
      · split at cutoff
        · cases cutoff
        · exact SeriesWatchState.safeUntilMsFor_nonneg cutoff

end SpoilerPolicy

def buildBoundedWatchState (profileId : Library.UUID) (profileName : String)
    (seriesId : Library.UUID) (episodeRefs : List EpisodeRef) (spoilerMode : SpoilerMode)
    (safeThroughEpisodeId : Option Library.UUID) : Except Raised ProfileWatchState :=
  if spoilerMode = .relaxed then do
    reject (safeThroughEpisodeId ≠ none) SPOILER_BOUNDARY_INVALID
    ProfileWatchState.make profileId profileName [] .relaxed 0
  else
    match episodeRefs.find? fun episode => some episode.episodeId = safeThroughEpisodeId with
    | none => .error (valueError SPOILER_BOUNDARY_INVALID)
    | some boundary => do
        let series ← SeriesWatchState.make seriesId []
          (if spoilerMode = .strict then
            (episodeRefs.filter fun episode => episode.position ≤ boundary.position).toFinset
          else ∅)
          (if spoilerMode = .sequential then some boundary else none)
        ProfileWatchState.make profileId profileName [series] spoilerMode 0

end Cinegraph
