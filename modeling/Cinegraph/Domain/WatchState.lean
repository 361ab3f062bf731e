import Cinegraph.Domain.Transcript
import Mathlib.Order.Defs.PartialOrder

/-!
What a profile has watched: progress of single episodes, grouped by series, and
the spoiler mode that says what the progress admits.
-/

namespace Cinegraph

namespace WatchErrorMessages

def SAFE_UNTIL_MS_MUST_BE_NON_NEGATIVE : String :=
  "safe_until_ms must be a non-negative integer or None."
def COMPLETED_EPISODE_CANNOT_HAVE_SAFE_UNTIL_MS : String :=
  "safe_until_ms must be None if is_completed is True."
def PARTIAL_EPISODE_REQUIRES_SAFE_UNTIL_MS : String :=
  "A partial episode watch requires a safe playback position."
def SERIES_WATCH_STATE_EPISODES_MUST_MATCH_SERIES : String :=
  "All EpisodeRefs must belong to the same series as the SeriesWatchState."
def SERIES_WATCH_STATE_CANNOT_HAVE_DUPLICATE_PROGRESS : String :=
  "Only one progress record per episode is allowed."
def PROFILE_NAME_MUST_BE_TRIMMED : String :=
  "Profile name cannot be empty or have leading/trailing whitespace."
def PROFILE_CANNOT_HAVE_DUPLICATE_SERIES_WATCH_STATES : String :=
  "Duplicate series IDs found in series_watch_states."
def PROFILE_WATCH_STATE_VERSION_CANNOT_BE_NEGATIVE : String :=
  "Profile watch-state version cannot be negative."

end WatchErrorMessages

open WatchErrorMessages

inductive SpoilerMode where
  | strict | sequential | relaxed
  deriving DecidableEq, Repr

def SpoilerMode.members : List SpoilerMode := [.strict, .sequential, .relaxed]

def SpoilerMode.value : SpoilerMode → String
  | .strict => "strict"
  | .sequential => "sequential"
  | .relaxed => "relaxed"

/-- `order=True` compares the fields in the order in which they are declared. -/
instance : Preorder EpisodePosition where
  le a b := a.seasonNumber < b.seasonNumber ∨
    a.seasonNumber = b.seasonNumber ∧ a.episodeNumber ≤ b.episodeNumber
  le_refl _ := by omega
  le_trans _ _ _ _ _ := by omega

instance (a b : EpisodePosition) : Decidable (a ≤ b) :=
  inferInstanceAs (Decidable (a.seasonNumber < b.seasonNumber ∨
    a.seasonNumber = b.seasonNumber ∧ a.episodeNumber ≤ b.episodeNumber))

structure EpisodeWatchProgress where
  episode : EpisodeRef
  isCompleted : Bool
  safeUntilMs : Option Int
  safe_nonneg : ∀ ms, safeUntilMs = some ms → 0 ≤ ms
  partial_iff : isCompleted = true ↔ safeUntilMs = none
  deriving DecidableEq

def EpisodeWatchProgress.make (episode : EpisodeRef) (isCompleted : Bool)
    (safeUntilMs : Option Int) : Except Raised EpisodeWatchProgress :=
  if safe : ∀ ms ∈ safeUntilMs, 0 ≤ ms then
    if completed : isCompleted = true → safeUntilMs = none then
      if part : safeUntilMs = none → isCompleted = true then
        .ok ⟨episode, isCompleted, safeUntilMs, safe, completed, part⟩
      else .error ⟨.invalidModel, PARTIAL_EPISODE_REQUIRES_SAFE_UNTIL_MS⟩
    else .error ⟨.invalidModel, COMPLETED_EPISODE_CANNOT_HAVE_SAFE_UNTIL_MS⟩
  else .error ⟨.invalidModel, SAFE_UNTIL_MS_MUST_BE_NON_NEGATIVE⟩

structure SeriesWatchState where
  seriesId : Library.UUID
  episodeProgress : List EpisodeWatchProgress
  manuallyAllowedEpisodes : Finset EpisodeRef
  sequentialSafeBoundary : Option EpisodeRef
  progress_series : ∀ p ∈ episodeProgress, p.episode.seriesId = seriesId
  boundary_series : ∀ e ∈ sequentialSafeBoundary, e.seriesId = seriesId
  allowed_series : ∀ e ∈ manuallyAllowedEpisodes, e.seriesId = seriesId
  progress_unique : (episodeProgress.map fun p => p.episode.episodeId).Nodup

namespace SeriesWatchState

def make (seriesId : Library.UUID) (episodeProgress : List EpisodeWatchProgress)
    (manuallyAllowedEpisodes : Finset EpisodeRef) (sequentialSafeBoundary : Option EpisodeRef) :
    Except Raised SeriesWatchState :=
  if series : (∀ p ∈ episodeProgress, p.episode.seriesId = seriesId) ∧
      (∀ e ∈ sequentialSafeBoundary, e.seriesId = seriesId) ∧
      (∀ e ∈ manuallyAllowedEpisodes, e.seriesId = seriesId) then
    if unique : (episodeProgress.map fun p => p.episode.episodeId).Nodup then
      .ok ⟨seriesId, episodeProgress, manuallyAllowedEpisodes, sequentialSafeBoundary,
        series.1, series.2.1, series.2.2, unique⟩
    else .error ⟨.invalidModel, SERIES_WATCH_STATE_CANNOT_HAVE_DUPLICATE_PROGRESS⟩
  else .error ⟨.invalidModel, SERIES_WATCH_STATE_EPISODES_MUST_MATCH_SERIES⟩

theorem make_total {seriesId : Library.UUID} {allowed : Finset EpisodeRef}
    {boundary : Option EpisodeRef} (boundary_series : ∀ e ∈ boundary, e.seriesId = seriesId)
    (allowed_series : ∀ e ∈ allowed, e.seriesId = seriesId) :
    ∃ state, make seriesId [] allowed boundary = .ok state ∧ state.seriesId = seriesId ∧
      state.episodeProgress = [] ∧ state.manuallyAllowedEpisodes = allowed ∧
      state.sequentialSafeBoundary = boundary := by
  unfold make
  rw [dif_pos ⟨nofun, boundary_series, allowed_series⟩]
  exact ⟨_, dif_pos List.nodup_nil, rfl, rfl, rfl, rfl⟩

def progressFor (state : SeriesWatchState) (episode : EpisodeRef) : Option EpisodeWatchProgress :=
  state.episodeProgress.find? fun progress => progress.episode = episode

def isFullyWatched (state : SeriesWatchState) (episode : EpisodeRef) : Bool :=
  match state.progressFor episode with
  | some progress => progress.isCompleted
  | none => false

def safeUntilMsFor (state : SeriesWatchState) (episode : EpisodeRef) : Option Int :=
  match state.progressFor episode with
  | some progress => if progress.isCompleted then none else progress.safeUntilMs
  | none => none

theorem safeUntilMsFor_nonneg {state : SeriesWatchState} {episode : EpisodeRef} {ms : Int}
    (cutoff : state.safeUntilMsFor episode = some ms) : 0 ≤ ms := by
  unfold safeUntilMsFor at cutoff
  split at cutoff
  · split at cutoff
    · cases cutoff
    · exact EpisodeWatchProgress.safe_nonneg _ ms cutoff
  · cases cutoff

end SeriesWatchState

structure ProfileWatchState where
  profileId : Library.UUID
  profileName : String
  seriesWatchStates : List SeriesWatchState
  spoilerMode : SpoilerMode
  version : Int
  name_trimmed : Trimmed profileName
  series_unique : (seriesWatchStates.map SeriesWatchState.seriesId).Nodup
  version_nonneg : 0 ≤ version

namespace ProfileWatchState

theorem first_version : (0 : Int) ≤ 0 := le_rfl

def make (profileId : Library.UUID) (profileName : String)
    (seriesWatchStates : List SeriesWatchState) (spoilerMode : SpoilerMode) (version : Int) :
    Except Raised ProfileWatchState :=
  if trimmed : Trimmed profileName then
    if unique : (seriesWatchStates.map SeriesWatchState.seriesId).Nodup then
      if nonneg : 0 ≤ version then
        .ok ⟨profileId, profileName, seriesWatchStates, spoilerMode, version, trimmed, unique,
          nonneg⟩
      else .error ⟨.invalidModel, PROFILE_WATCH_STATE_VERSION_CANNOT_BE_NEGATIVE⟩
    else .error ⟨.invalidModel, PROFILE_CANNOT_HAVE_DUPLICATE_SERIES_WATCH_STATES⟩
  else .error ⟨.invalidModel, PROFILE_NAME_MUST_BE_TRIMMED⟩

def seriesWatchStateFor (watchState : ProfileWatchState) (seriesId : Library.UUID) :
    Option SeriesWatchState :=
  watchState.seriesWatchStates.find? fun state => state.seriesId = seriesId

end ProfileWatchState

end Cinegraph
