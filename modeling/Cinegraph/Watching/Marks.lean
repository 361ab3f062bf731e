import Cinegraph.Domain.WatchState
import Cinegraph.Library.Keyed

/-!
Marking episodes watched and unwatched, one by one and a season at a time. The methods work on
immutable values and tell a change from a no-op by object identity.
-/

namespace Cinegraph

open Library

namespace WatchErrorMessages

def EPISODE_MUST_MATCH_SERIES_WATCH_STATE : String :=
  "EpisodeRef must belong to the same series as the SeriesWatchState."
def SEASON_OPERATION_REQUIRES_EPISODES : String :=
  "A season watch operation requires at least one episode."
def SEASON_OPERATION_EPISODES_MUST_SHARE_SERIES : String :=
  "All episodes in a season watch operation must belong to one series."
def SEASON_OPERATION_EPISODES_MUST_SHARE_SEASON : String :=
  "All episodes in a season watch operation must belong to one season."

end WatchErrorMessages

open WatchErrorMessages

/-- What a method returns, and whether it is the very object that the method was called on. -/
structure Returned (α : Type) where
  value : α
  isSelf : Bool

/-- The id of the episode that a progress record is about. -/
abbrev EpisodeWatchProgress.episodeId (progress : EpisodeWatchProgress) : UUID :=
  progress.episode.episodeId

namespace SeriesWatchState

variable (state : SeriesWatchState) (episode : EpisodeRef) (episodes : List EpisodeRef)

def hasProgressFor : Bool := (state.progressFor episode).isSome

def validateEpisodeSeries : Except Raised Unit :=
  reject (episode.seriesId ≠ state.seriesId) EPISODE_MUST_MATCH_SERIES_WATCH_STATE .invalidModel

/-- `replace(self, episode_progress=...)`, with the checks of the constructor. -/
def replaceProgress (episodeProgress : List EpisodeWatchProgress) : Except Raised SeriesWatchState :=
  make state.seriesId episodeProgress state.manuallyAllowedEpisodes state.sequentialSafeBoundary

def markEpisodeWatched : Except Raised (Returned SeriesWatchState) := do
  state.validateEpisodeSeries episode
  if state.isFullyWatched episode then return ⟨state, true⟩
  let completed ← EpisodeWatchProgress.make episode true none
  let updated ← state.replaceProgress
    ((state.episodeProgress.filter fun progress => progress.episodeId ≠ episode.episodeId) ++ [completed])
  return ⟨updated, false⟩

def markEpisodeUnwatched : Except Raised (Returned SeriesWatchState) := do
  state.validateEpisodeSeries episode
  if !state.hasProgressFor episode then return ⟨state, true⟩
  let updated ← state.replaceProgress
    (state.episodeProgress.filter fun progress => progress.episodeId ≠ episode.episodeId)
  return ⟨updated, false⟩

/-- The fold of `mark_episodes_watched`; what it returns is `self` if each step returned that. -/
def foldWatched (returned : Returned SeriesWatchState) :
    List EpisodeRef → Except Raised (Returned SeriesWatchState)
  | [] => .ok returned
  | episode :: rest => do
      let next ← returned.value.markEpisodeWatched episode
      foldWatched ⟨next.value, returned.isSelf && next.isSelf⟩ rest

def markEpisodesWatched : Except Raised (Returned SeriesWatchState) := do
  episodes.forM state.validateEpisodeSeries
  foldWatched ⟨state, true⟩ episodes

def markEpisodesUnwatched : Except Raised (Returned SeriesWatchState) := do
  episodes.forM state.validateEpisodeSeries
  let updatedProgress := state.episodeProgress.filter fun progress =>
    progress.episodeId ∉ episodes.map (·.episodeId)
  if updatedProgress = state.episodeProgress then return ⟨state, true⟩
  let updated ← state.replaceProgress updatedProgress
  return ⟨updated, false⟩

end SeriesWatchState

namespace ProfileWatchState

variable (watchState : ProfileWatchState) (episode : EpisodeRef) (episodes : List EpisodeRef)

def isEpisodeFullyWatched : Bool :=
  match watchState.seriesWatchStateFor episode.seriesId with
  | some seriesState => seriesState.isFullyWatched episode
  | none => false

def hasEpisodeProgress : Bool :=
  match watchState.seriesWatchStateFor episode.seriesId with
  | some seriesState => seriesState.hasProgressFor episode
  | none => false

/-- `replace(self, series_watch_states=..., version=self.version + 1)` -/
def replaceStates (seriesWatchStates : List SeriesWatchState) : Except Raised ProfileWatchState :=
  make watchState.profileId watchState.profileName seriesWatchStates watchState.spoilerMode
    (watchState.version + 1)

section Mark

variable (seriesId : UUID) (mark : SeriesWatchState → Except Raised (Returned SeriesWatchState))

/-- Mark in a new series state, and add it. -/
def addSeriesState : Except Raised ProfileWatchState := do
  let created ← SeriesWatchState.make seriesId [] ∅ none
  let updated ← mark created
  watchState.replaceStates (watchState.seriesWatchStates ++ [updated.value])

/-- Mark in an existing series state, and put what is returned in its place unless it is the same
object. -/
def replaceSeriesState (existing : SeriesWatchState) : Except Raised ProfileWatchState := do
  let updated ← mark existing
  if updated.isSelf then return watchState
  watchState.replaceStates (watchState.seriesWatchStates.map fun state =>
    if state.seriesId = seriesId then updated.value else state)

end Mark

def markEpisodeWatched : Except Raised ProfileWatchState :=
  match watchState.seriesWatchStateFor episode.seriesId with
  | none => watchState.addSeriesState episode.seriesId (·.markEpisodeWatched episode)
  | some existing =>
      watchState.replaceSeriesState episode.seriesId (·.markEpisodeWatched episode) existing

def markEpisodeUnwatched : Except Raised ProfileWatchState :=
  match watchState.seriesWatchStateFor episode.seriesId with
  | none => .ok watchState
  | some existing =>
      watchState.replaceSeriesState episode.seriesId (·.markEpisodeUnwatched episode) existing

/-- `_validate_season_episodes` -/
def validateSeasonEpisodes : Except Raised UUID :=
  match episodes with
  | [] => .error ⟨.invalidModel, SEASON_OPERATION_REQUIRES_EPISODES⟩
  | first :: _ => do
      reject ((episodes.map (·.seriesId)).dedup.length ≠ 1) SEASON_OPERATION_EPISODES_MUST_SHARE_SERIES
        .invalidModel
      reject ((episodes.map (·.seasonId)).dedup.length ≠ 1) SEASON_OPERATION_EPISODES_MUST_SHARE_SEASON
        .invalidModel
      return first.seriesId

def markSeasonWatched : Except Raised ProfileWatchState := do
  let seriesId ← validateSeasonEpisodes episodes
  match watchState.seriesWatchStateFor seriesId with
  | none => watchState.addSeriesState seriesId (·.markEpisodesWatched episodes)
  | some existing => watchState.replaceSeriesState seriesId (·.markEpisodesWatched episodes) existing

def markSeasonUnwatched : Except Raised ProfileWatchState := do
  let seriesId ← validateSeasonEpisodes episodes
  match watchState.seriesWatchStateFor seriesId with
  | none => return watchState
  | some existing => watchState.replaceSeriesState seriesId (·.markEpisodesUnwatched episodes) existing

end ProfileWatchState

/-! ### What the methods of a series state return -/

/-- The completed progress of an episode. -/
def EpisodeWatchProgress.completed (episode : EpisodeRef) : EpisodeWatchProgress where
  episode := episode
  isCompleted := true
  safeUntilMs := none
  safe_nonneg _ h := by cases h
  partial_iff := iff_of_true rfl rfl

theorem EpisodeWatchProgress.make_completed (episode : EpisodeRef) :
    make episode true none = .ok (completed episode) := by
  rw [make, dif_pos (by simp), dif_pos fun _ => rfl, dif_pos fun _ => rfl]
  rfl

theorem EpisodeWatchProgress.eq_completed {progress : EpisodeWatchProgress} {episode : EpisodeRef} :
    progress = completed episode ↔ progress.episode = episode ∧ progress.isCompleted = true := by
  constructor
  · rintro rfl
    exact ⟨rfl, rfl⟩
  · obtain ⟨_, _, ms, _, complete⟩ := progress
    rintro ⟨rfl, rfl⟩
    cases complete.mp rfl
    rfl

open EpisodeWatchProgress (completed episodeId)

/-- The progress after an episode was marked watched. -/
def watchedRows (rows : List EpisodeWatchProgress) (episode : EpisodeRef) :
    List EpisodeWatchProgress :=
  if Keyed.find episodeId rows episode.episodeId = some (completed episode) then rows
  else Keyed.moveLast episodeId rows (completed episode)

namespace SeriesWatchState

variable {state : SeriesWatchState} {episode : EpisodeRef} {episodes : List EpisodeRef}
  {rows : List EpisodeWatchProgress}

/-- The state is as another one, except for its progress. -/
structure With (state : SeriesWatchState) (rows : List EpisodeWatchProgress)
    (updated : SeriesWatchState) : Prop where
  seriesId : updated.seriesId = state.seriesId
  progress : updated.episodeProgress = rows
  allowed : updated.manuallyAllowedEpisodes = state.manuallyAllowedEpisodes
  boundary : updated.sequentialSafeBoundary = state.sequentialSafeBoundary

theorem With.self (state : SeriesWatchState) : state.With state.episodeProgress state :=
  ⟨rfl, rfl, rfl, rfl⟩

theorem With.trans {middle updated : SeriesWatchState} {last : List EpisodeWatchProgress}
    (first : state.With rows middle) (second : middle.With last updated) :
    state.With last updated :=
  ⟨second.seriesId.trans first.seriesId, second.progress, second.allowed.trans first.allowed,
    second.boundary.trans first.boundary⟩

theorem With.unique {updated other : SeriesWatchState} (first : state.With rows updated)
    (second : state.With rows other) : updated = other := by
  obtain ⟨_, _, _, _, _, _, _, _⟩ := updated
  obtain ⟨_, _, _, _, _, _, _, _⟩ := other
  cases first.seriesId.trans second.seriesId.symm
  cases first.progress.trans second.progress.symm
  cases first.allowed.trans second.allowed.symm
  cases first.boundary.trans second.boundary.symm
  rfl

theorem replaceProgress_ok (own : ∀ progress ∈ rows, progress.episode.seriesId = state.seriesId)
    (unique : (rows.map episodeId).Nodup) :
    ∃ updated, state.replaceProgress rows = .ok updated ∧ state.With rows updated := by
  rw [replaceProgress, make, dif_pos ⟨own, state.boundary_series, state.allowed_series⟩]
  exact ⟨_, dif_pos unique, rfl, rfl, rfl, rfl⟩

theorem progressFor_eq_some {progress : EpisodeWatchProgress} :
    state.progressFor episode = some progress ↔
      progress ∈ state.episodeProgress ∧ progress.episode = episode := by
  constructor
  · intro found
    have same := List.find?_some found
    exact ⟨List.mem_of_find?_eq_some found, of_decide_eq_true same⟩
  · rintro ⟨member, rfl⟩
    unfold progressFor
    cases found : state.episodeProgress.find? fun other => other.episode = progress.episode with
    | none => exact absurd (decide_eq_true rfl) (List.find?_eq_none.mp found progress member)
    | some other =>
        have here := List.find?_some found
        have same : other.episode = progress.episode := of_decide_eq_true here
        have inside := List.mem_of_find?_eq_some found
        rw [List.inj_on_of_nodup_map state.progress_unique inside member (congrArg _ same)]

theorem isFullyWatched_iff : state.isFullyWatched episode = true ↔
    completed episode ∈ state.episodeProgress := by
  unfold isFullyWatched
  split
  · rename_i progress found
    obtain ⟨member, same⟩ := progressFor_eq_some.mp found
    constructor
    · intro complete
      rw [← EpisodeWatchProgress.eq_completed.mpr ⟨same, complete⟩]
      exact member
    · intro stored
      rw [List.inj_on_of_nodup_map state.progress_unique member stored (congrArg _ same)]
      rfl
  · rename_i absent
    refine iff_of_false (fun h => by cases h) fun stored => ?_
    have found : state.progressFor episode = some (completed episode) :=
      progressFor_eq_some.mpr ⟨stored, rfl⟩
    cases absent.symm.trans found

theorem hasProgressFor_iff : state.hasProgressFor episode = true ↔
    ∃ progress ∈ state.episodeProgress, progress.episode = episode := by
  rw [hasProgressFor, Option.isSome_iff_exists]
  exact exists_congr fun progress => progressFor_eq_some

theorem find_completed_iff : Keyed.find episodeId state.episodeProgress episode.episodeId =
    some (completed episode) ↔ completed episode ∈ state.episodeProgress := by
  constructor
  · exact fun found => (Keyed.mem_of_find found).1
  · exact fun member => Keyed.find_of_mem state.progress_unique member

theorem validateEpisodeSeries_ok (own : episode.seriesId = state.seriesId) :
    state.validateEpisodeSeries episode = .ok () :=
  reject_of_not (not_not.mpr own)

theorem validateEach_ok (own : ∀ episode ∈ episodes, episode.seriesId = state.seriesId) :
    episodes.forM state.validateEpisodeSeries = .ok () := by
  induction episodes with
  | nil => rfl
  | cons first rest ih =>
      have valid := validateEpisodeSeries_ok (own first List.mem_cons_self)
      change (do state.validateEpisodeSeries first; rest.forM state.validateEpisodeSeries) = _
      rw [valid, ok_bind]
      exact ih fun episode member => own episode (List.mem_cons_of_mem _ member)

theorem markEpisodeWatched_ok (own : episode.seriesId = state.seriesId) :
    ∃ returned, state.markEpisodeWatched episode = .ok returned ∧
      returned.isSelf = state.isFullyWatched episode ∧
      (returned.isSelf = true → returned.value = state) ∧
      state.With (watchedRows state.episodeProgress episode) returned.value := by
  unfold markEpisodeWatched
  rw [validateEpisodeSeries_ok own, ok_bind]
  cases watched : state.isFullyWatched episode with
  | true =>
      have same : watchedRows state.episodeProgress episode = state.episodeProgress :=
        if_pos (find_completed_iff.mpr (isFullyWatched_iff.mp watched))
      refine ⟨⟨state, true⟩, rfl, rfl, fun _ => rfl, ?_⟩
      rw [same]
      exact .self state
  | false =>
      have moved : watchedRows state.episodeProgress episode =
          Keyed.moveLast episodeId state.episodeProgress (completed episode) := by
        apply if_neg
        rw [find_completed_iff, ← isFullyWatched_iff, watched]
        exact Bool.false_ne_true
      have inside : ∀ progress ∈ Keyed.moveLast episodeId state.episodeProgress (completed episode),
          progress.episode.seriesId = state.seriesId := by
        intro progress member
        rcases List.mem_append.mp member with kept | added
        · exact state.progress_series progress (List.mem_of_mem_filter kept)
        · cases List.mem_singleton.mp added
          exact own
      obtain ⟨updated, ok, holds⟩ :=
        replaceProgress_ok inside (Keyed.nodup_moveLast state.progress_unique)
      refine ⟨⟨updated, false⟩, ?_, rfl, fun h => (by cases h), moved ▸ holds⟩
      rw [EpisodeWatchProgress.make_completed, ok_bind]
      change (do let updated ← state.replaceProgress (Keyed.moveLast episodeId state.episodeProgress
        (completed episode)); return (⟨updated, false⟩ : Returned SeriesWatchState)) = _
      rw [ok]
      rfl

theorem markEpisodeUnwatched_ok (own : episode.seriesId = state.seriesId) :
    ∃ returned, state.markEpisodeUnwatched episode = .ok returned ∧
      (returned.isSelf = true → returned.value = state) ∧
      state.With (state.episodeProgress.filter fun progress => progress.episode ≠ episode)
        returned.value := by
  unfold markEpisodeUnwatched
  rw [validateEpisodeSeries_ok own, ok_bind]
  cases has : state.hasProgressFor episode with
  | false =>
      refine ⟨⟨state, true⟩, rfl, fun _ => rfl, rfl, ?_, rfl, rfl⟩
      refine (List.filter_eq_self.mpr fun progress member => ?_).symm
      rw [decide_eq_true_eq]
      intro same
      have found := hasProgressFor_iff.mpr ⟨progress, member, same⟩
      rw [has] at found
      cases found
  | true =>
      obtain ⟨stored, inside, rfl⟩ := hasProgressFor_iff.mp has
      have same : (state.episodeProgress.filter fun progress =>
            progress.episodeId ≠ stored.episode.episodeId) =
          state.episodeProgress.filter fun progress => progress.episode ≠ stored.episode := by
        apply List.filter_congr
        intro progress member
        rw [decide_eq_decide, not_iff_not]
        constructor
        · exact fun h => congrArg _ (List.inj_on_of_nodup_map state.progress_unique member inside h)
        · exact fun h => congrArg EpisodeRef.episodeId h
      obtain ⟨updated, ok, holds⟩ := @replaceProgress_ok state
        (state.episodeProgress.filter fun progress => progress.episode ≠ stored.episode)
        (fun progress member => state.progress_series progress (List.mem_of_mem_filter member))
        (state.progress_unique.sublist (List.filter_sublist.map _))
      refine ⟨⟨updated, false⟩, ?_, fun h => (by cases h), holds⟩
      rw [same, ok]
      rfl

theorem foldWatched_ok {returned : Returned SeriesWatchState}
    (own : ∀ episode ∈ episodes, episode.seriesId = returned.value.seriesId) :
    ∃ last, foldWatched returned episodes = .ok last ∧
      last.isSelf = (returned.isSelf && episodes.all returned.value.isFullyWatched) ∧
      (last.isSelf = true → last.value = returned.value) ∧
      returned.value.With (episodes.foldl watchedRows returned.value.episodeProgress) last.value := by
  induction episodes generalizing returned with
  | nil => exact ⟨returned, rfl, by simp, fun _ => rfl, .self returned.value⟩
  | cons episode rest ih =>
      obtain ⟨next, ok, isSelf, self, holds⟩ := markEpisodeWatched_ok (own episode List.mem_cons_self)
      have own' : ∀ other ∈ rest, other.seriesId = next.value.seriesId := fun other member => by
        rw [holds.seriesId]
        exact own other (List.mem_cons_of_mem _ member)
      obtain ⟨last, fold, isSelf', self', holds'⟩ :=
        @ih ⟨next.value, returned.isSelf && next.isSelf⟩ own'
      refine ⟨last, ?_, ?_, ?_, ?_⟩
      · rw [foldWatched, ok, ok_bind]
        exact fold
      · rw [isSelf', List.all_cons, ← Bool.and_assoc, ← isSelf]
        cases unchanged : next.isSelf with
        | false => simp
        | true => rw [self unchanged]
      · intro same
        have unchanged : next.isSelf = true := by
          rw [isSelf', Bool.and_eq_true, Bool.and_eq_true] at same
          exact same.1.2
        exact (self' same).trans (self unchanged)
      · have rows := holds.trans holds'
        rw [holds.progress] at rows
        exact rows

theorem markEpisodesWatched_ok (own : ∀ episode ∈ episodes, episode.seriesId = state.seriesId) :
    ∃ returned, state.markEpisodesWatched episodes = .ok returned ∧
      returned.isSelf = episodes.all state.isFullyWatched ∧
      (returned.isSelf = true → returned.value = state) ∧
      state.With (episodes.foldl watchedRows state.episodeProgress) returned.value := by
  obtain ⟨last, fold, isSelf, self, holds⟩ := @foldWatched_ok episodes ⟨state, true⟩ own
  refine ⟨last, ?_, isSelf, self, holds⟩
  rw [markEpisodesWatched, validateEach_ok own, ok_bind]
  exact fold

theorem markEpisodesUnwatched_ok (own : ∀ episode ∈ episodes, episode.seriesId = state.seriesId) :
    ∃ returned, state.markEpisodesUnwatched episodes = .ok returned ∧
      (returned.isSelf = true ↔ returned.value.episodeProgress = state.episodeProgress) ∧
      (returned.isSelf = true → returned.value = state) ∧
      state.With (state.episodeProgress.filter fun progress =>
        progress.episodeId ∉ episodes.map (·.episodeId)) returned.value := by
  rw [markEpisodesUnwatched, validateEach_ok own, ok_bind]
  dsimp only
  split
  · rename_i same
    refine ⟨⟨state, true⟩, rfl, iff_of_true rfl rfl, fun _ => rfl, ?_⟩
    rw [same]
    exact .self state
  · rename_i different
    obtain ⟨updated, ok, holds⟩ := @replaceProgress_ok state
      (state.episodeProgress.filter fun progress =>
        progress.episodeId ∉ episodes.map (·.episodeId))
      (fun progress member => state.progress_series progress (List.mem_of_mem_filter member))
      (state.progress_unique.sublist (List.filter_sublist.map _))
    refine ⟨⟨updated, false⟩, ?_, ?_, fun h => (by cases h), holds⟩
    · rw [ok]
      rfl
    · refine iff_of_false (fun h => by cases h) fun same => different ?_
      rw [← holds.progress]
      exact same

end SeriesWatchState

/-! ### What the methods of a profile return -/

namespace ProfileWatchState

variable {watchState : ProfileWatchState} {seriesId : UUID} {existing : SeriesWatchState}
  {mark : SeriesWatchState → Except Raised (Returned SeriesWatchState)}
  {returned : Returned SeriesWatchState}

/-- A series state with no progress. -/
def created (seriesId : UUID) : SeriesWatchState where
  seriesId := seriesId
  episodeProgress := []
  manuallyAllowedEpisodes := ∅
  sequentialSafeBoundary := none
  progress_series _ member := by cases member
  boundary_series _ member := by cases member
  allowed_series _ member := by cases member
  progress_unique := List.nodup_nil

theorem make_created (seriesId : UUID) :
    SeriesWatchState.make seriesId [] ∅ none = .ok (created seriesId) := by
  have empty : (∀ p ∈ ([] : List EpisodeWatchProgress), p.episode.seriesId = seriesId) ∧
      (∀ e ∈ (none : Option EpisodeRef), e.seriesId = seriesId) ∧
      ∀ e ∈ (∅ : Finset EpisodeRef), e.seriesId = seriesId :=
    ⟨by simp, by simp, by simp⟩
  rw [SeriesWatchState.make, dif_pos empty]
  exact dif_pos List.nodup_nil

/-- The state of a series, with no progress where there is none. -/
def stateOf (watchState : ProfileWatchState) (seriesId : UUID) : SeriesWatchState :=
  (watchState.seriesWatchStateFor seriesId).getD (created seriesId)

theorem seriesWatchStateFor_eq : watchState.seriesWatchStateFor seriesId =
    Keyed.find SeriesWatchState.seriesId watchState.seriesWatchStates seriesId := rfl

theorem seriesId_stateOf : (watchState.stateOf seriesId).seriesId = seriesId := by
  unfold stateOf
  cases found : watchState.seriesWatchStateFor seriesId with
  | none => rfl
  | some state => exact (Keyed.mem_of_find found).2

theorem stateOf_of_some (found : watchState.seriesWatchStateFor seriesId = some existing) :
    watchState.stateOf seriesId = existing := by
  rw [stateOf, found]
  rfl

theorem isEpisodeFullyWatched_eq (episode : EpisodeRef) : watchState.isEpisodeFullyWatched episode =
    (watchState.stateOf episode.seriesId).isFullyWatched episode := by
  unfold isEpisodeFullyWatched stateOf
  cases watchState.seriesWatchStateFor episode.seriesId <;> rfl

theorem hasEpisodeProgress_eq (episode : EpisodeRef) : watchState.hasEpisodeProgress episode =
    (watchState.stateOf episode.seriesId).hasProgressFor episode := by
  unfold hasEpisodeProgress stateOf
  cases watchState.seriesWatchStateFor episode.seriesId <;> rfl

/-- The profile after a mark: other series states, and a version that tells whether the mark
returned the very state that it was called on. -/
structure Marked (watchState : ProfileWatchState) (seriesWatchStates : List SeriesWatchState)
    (isSelf : Bool) (updated : ProfileWatchState) : Prop where
  states : updated.seriesWatchStates = seriesWatchStates
  version : updated.version = if isSelf then watchState.version else watchState.version + 1
  profileId : updated.profileId = watchState.profileId
  self : isSelf = true → updated = watchState

theorem replaceStates_ok {states : List SeriesWatchState}
    (unique : (states.map SeriesWatchState.seriesId).Nodup) :
    ∃ updated, watchState.replaceStates states = .ok updated ∧
      watchState.Marked states false updated := by
  have positive : 0 ≤ watchState.version + 1 := by
    have := watchState.version_nonneg
    omega
  rw [replaceStates, make, dif_pos watchState.name_trimmed, dif_pos unique, dif_pos positive]
  exact ⟨_, rfl, rfl, rfl, rfl, fun h => by cases h⟩

theorem addSeriesState_ok (absent : watchState.seriesWatchStateFor seriesId = none)
    (marks : mark (created seriesId) = .ok returned) (own : returned.value.seriesId = seriesId) :
    ∃ updated, watchState.addSeriesState seriesId mark = .ok updated ∧
      watchState.Marked
        (Keyed.upsert SeriesWatchState.seriesId watchState.seriesWatchStates returned.value) false
        updated := by
  have states : Keyed.upsert SeriesWatchState.seriesId watchState.seriesWatchStates returned.value =
      watchState.seriesWatchStates ++ [returned.value] := by
    rw [Keyed.upsert, own, ← seriesWatchStateFor_eq, absent]
  have unique : ((Keyed.upsert SeriesWatchState.seriesId watchState.seriesWatchStates
      returned.value).map SeriesWatchState.seriesId).Nodup :=
    Keyed.nodup_upsert watchState.series_unique
  obtain ⟨updated, ok, marked⟩ := @replaceStates_ok watchState _ unique
  refine ⟨updated, ?_, marked⟩
  rw [addSeriesState, make_created, ok_bind, marks, ok_bind, ← states]
  exact ok

theorem replaceSeriesState_ok (found : watchState.seriesWatchStateFor seriesId = some existing)
    (marks : mark existing = .ok returned) (own : returned.value.seriesId = seriesId)
    (self : returned.isSelf = true → returned.value = existing) :
    ∃ updated, watchState.replaceSeriesState seriesId mark existing = .ok updated ∧
      watchState.Marked
        (Keyed.upsert SeriesWatchState.seriesId watchState.seriesWatchStates returned.value)
        returned.isSelf updated := by
  have states : Keyed.upsert SeriesWatchState.seriesId watchState.seriesWatchStates returned.value =
      watchState.seriesWatchStates.map fun state =>
        if state.seriesId = seriesId then returned.value else state := by
    rw [Keyed.upsert, own, ← seriesWatchStateFor_eq, found]
    simp only [Keyed.replace, own]
  rw [replaceSeriesState, marks, ok_bind]
  cases same : returned.isSelf with
  | true =>
      refine ⟨watchState, rfl, ?_, rfl, rfl, fun _ => rfl⟩
      rw [Keyed.upsert_of_find watchState.series_unique]
      rw [own, self same]
      exact found
  | false =>
      have unique : ((Keyed.upsert SeriesWatchState.seriesId watchState.seriesWatchStates
          returned.value).map SeriesWatchState.seriesId).Nodup :=
        Keyed.nodup_upsert watchState.series_unique
      obtain ⟨updated, ok, marked⟩ := @replaceStates_ok watchState _ unique
      refine ⟨updated, ?_, marked⟩
      rw [← states]
      exact ok

/-- The series of a profile after one of its states was written. -/
theorem Marked.stateOf {updated : ProfileWatchState} {state : SeriesWatchState} {isSelf : Bool}
    (marked : watchState.Marked
      (Keyed.upsert SeriesWatchState.seriesId watchState.seriesWatchStates state) isSelf updated)
    (own : state.seriesId = seriesId) : updated.stateOf seriesId = state := by
  rw [ProfileWatchState.stateOf, seriesWatchStateFor_eq, marked.states, Keyed.find_upsert,
    if_pos own.symm]
  rfl

end ProfileWatchState

end Cinegraph
