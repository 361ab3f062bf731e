import Cinegraph.Watching.Repository

/-!
A season marked at once and its episodes marked one after the other. A mark looks for an episode by
its whole reference and removes progress by the id alone, so the two agree only where references
with one id do not differ.
-/

namespace Cinegraph

open Library
open EpisodeWatchProgress (completed episodeId)

variable {rows : List EpisodeWatchProgress} {episode : EpisodeRef} {episodes : List EpisodeRef}

/-! ### Folds over the progress of a series -/

/-- The last reference with an id. -/
def lastWithId (episodes : List EpisodeRef) (id : UUID) : Option EpisodeRef :=
  episodes.reverse.find? fun episode => episode.episodeId = id

theorem lastWithId_append (id : UUID) : lastWithId (episodes ++ [episode]) id =
    if episode.episodeId = id then some episode else lastWithId episodes id := by
  rw [lastWithId, List.reverse_append, List.reverse_singleton, List.singleton_append, List.find?_cons]
  split <;> simp_all [lastWithId]

theorem exists_lastWithId (member : episode ∈ episodes) :
    ∃ last, lastWithId episodes episode.episodeId = some last := by
  cases found : lastWithId episodes episode.episodeId with
  | some last => exact ⟨last, rfl⟩
  | none =>
      have absent := List.find?_eq_none.mp found episode (List.mem_reverse.mpr member)
      exact absurd (decide_eq_true rfl) absent

theorem find_watchedRows (id : UUID) : Keyed.find episodeId (watchedRows rows episode) id =
    if id = episode.episodeId then some (completed episode) else Keyed.find episodeId rows id := by
  unfold watchedRows
  split
  · rename_i found
    split
    · rename_i same
      rw [same]
      exact found
    · rfl
  · exact Keyed.find_moveLast

/-- After a fold the progress under an id is that of the last reference with the id. -/
theorem find_foldl_watchedRows (id : UUID) : Keyed.find episodeId (episodes.foldl watchedRows rows) id =
    match lastWithId episodes id with
    | some last => some (completed last)
    | none => Keyed.find episodeId rows id := by
  induction episodes using List.reverseRecOn with
  | nil => rfl
  | append_singleton before last ih =>
      rw [List.foldl_append, List.foldl_cons, List.foldl_nil, find_watchedRows, lastWithId_append, ih]
      rcases eq_or_ne id last.episodeId with rfl | other
      · rw [if_pos rfl, if_pos rfl]
      · rw [if_neg other, if_neg other.symm]

theorem filter_foldl_watchedRows {keep : EpisodeWatchProgress → Bool}
    (outside : ∀ episode ∈ episodes, ∀ progress : EpisodeWatchProgress,
      progress.episodeId = episode.episodeId → keep progress = false) :
    (episodes.foldl watchedRows rows).filter keep = rows.filter keep := by
  induction episodes generalizing rows with
  | nil => rfl
  | cons episode rest ih =>
      rw [List.foldl_cons, ih fun other member => outside other (List.mem_cons_of_mem _ member)]
      unfold watchedRows
      split
      · rfl
      · exact Keyed.filter_moveLast (outside episode List.mem_cons_self)

/-- The progress after an episode was marked unwatched. -/
def unwatchedRows (rows : List EpisodeWatchProgress) (episode : EpisodeRef) :
    List EpisodeWatchProgress :=
  rows.filter fun progress => progress.episode ≠ episode

theorem foldl_unwatchedRows : episodes.foldl unwatchedRows rows =
    rows.filter fun progress => progress.episode ∉ episodes := by
  induction episodes generalizing rows with
  | nil => exact (List.filter_eq_self.mpr fun _ _ => by simp).symm
  | cons episode rest ih =>
      rw [List.foldl_cons, ih, unwatchedRows, List.filter_filter]
      apply List.filter_congr
      intro progress _
      rw [← Bool.decide_and, decide_eq_decide, List.mem_cons, not_or, and_comm]

namespace ProfileWatchState

variable {watchState single bulk : ProfileWatchState} {seriesId : UUID} {state : SeriesWatchState}

/-! ### One mark of an episode -/

/-- A mark that puts a series state in place. -/
def Puts (watchState : ProfileWatchState) (state : SeriesWatchState) (rows : List EpisodeWatchProgress)
    (updated : ProfileWatchState) : Prop :=
  ∃ changed isSelf, state.With rows changed ∧ watchState.Marked
    (Keyed.upsert SeriesWatchState.seriesId watchState.seriesWatchStates changed) isSelf updated

theorem markEpisodeWatched_ok (own : episode.seriesId = seriesId) :
    ∃ updated, watchState.markEpisodeWatched episode = .ok updated ∧
      watchState.Puts (watchState.stateOf seriesId)
        (watchedRows (watchState.stateOf seriesId).episodeProgress episode) updated := by
  subst own
  obtain ⟨returned, marks, _, self, holds⟩ := @SeriesWatchState.markEpisodeWatched_ok
    (watchState.stateOf episode.seriesId) episode seriesId_stateOf.symm
  have own := holds.seriesId.trans seriesId_stateOf
  cases found : watchState.seriesWatchStateFor episode.seriesId with
  | none =>
      have new : watchState.stateOf episode.seriesId = created episode.seriesId := by
        rw [stateOf, found]
        rfl
      obtain ⟨updated, ok, marked⟩ := @addSeriesState_ok watchState _
        (·.markEpisodeWatched episode) _ found (new ▸ marks) own
      exact ⟨updated, by rw [markEpisodeWatched, found]; exact ok, _, _, holds, marked⟩
  | some existing =>
      have here := stateOf_of_some found
      obtain ⟨updated, ok, marked⟩ := @replaceSeriesState_ok watchState _ _
        (·.markEpisodeWatched episode) _ found (here ▸ marks) own (fun same => (self same).trans here)
      exact ⟨updated, by rw [markEpisodeWatched, found]; exact ok, _, _, holds, marked⟩

theorem markEpisodeUnwatched_ok (own : episode.seriesId = seriesId)
    (found : watchState.seriesWatchStateFor seriesId = some state) :
    ∃ updated, watchState.markEpisodeUnwatched episode = .ok updated ∧
      watchState.Puts state (unwatchedRows state.episodeProgress episode) updated := by
  subst own
  have own : state.seriesId = episode.seriesId := (Keyed.mem_of_find found).2
  obtain ⟨returned, marks, self, holds⟩ :=
    @SeriesWatchState.markEpisodeUnwatched_ok state episode own.symm
  obtain ⟨updated, ok, marked⟩ := @replaceSeriesState_ok watchState _ _
    (·.markEpisodeUnwatched episode) _ found marks (holds.seriesId.trans own) self
  exact ⟨updated, by rw [markEpisodeUnwatched, found]; exact ok, _, _, holds, marked⟩

/-- Marks one after the other, of a series that has a state. -/
theorem foldlM_ok {mark : ProfileWatchState → EpisodeRef → Except Raised ProfileWatchState}
    {change : List EpisodeWatchProgress → EpisodeRef → List EpisodeWatchProgress}
    (each : ∀ watchState episode state, episode.seriesId = seriesId →
      watchState.seriesWatchStateFor seriesId = some state →
        ∃ updated, mark watchState episode = .ok updated ∧
          watchState.Puts state (change state.episodeProgress episode) updated)
    (own : ∀ episode ∈ episodes, episode.seriesId = seriesId)
    (found : watchState.seriesWatchStateFor seriesId = some state) :
    ∃ single changed, episodes.foldlM mark watchState = .ok single ∧
      state.With (episodes.foldl change state.episodeProgress) changed ∧
      single.seriesWatchStates =
        Keyed.upsert SeriesWatchState.seriesId watchState.seriesWatchStates changed := by
  have here : state.seriesId = seriesId := (Keyed.mem_of_find found).2
  induction episodes generalizing watchState state with
  | nil =>
      refine ⟨watchState, state, rfl, .self state, ?_⟩
      rw [Keyed.upsert_of_find watchState.series_unique]
      rw [here]
      exact found
  | cons episode rest ih =>
      obtain ⟨middle, ok, next, isSelf, holds, marked⟩ :=
        each watchState episode state (own episode List.mem_cons_self) found
      have own' := holds.seriesId.trans here
      have found' : middle.seriesWatchStateFor seriesId = some next := by
        rw [seriesWatchStateFor_eq, marked.states, Keyed.find_upsert, if_pos own'.symm]
      obtain ⟨single, changed, fold, holds', states⟩ :=
        ih (fun other member => own other (List.mem_cons_of_mem _ member)) found' own'
      refine ⟨single, changed, ?_, ?_, ?_⟩
      · rw [List.foldlM_cons, ok]
        exact fold
      · have rows := holds.trans holds'
        rw [holds.progress] at rows
        exact rows
      · rw [states, marked.states]
        exact Keyed.upsert_upsert holds'.seriesId.symm

theorem foldlM_watched_ok (nonempty : episodes ≠ [])
    (own : ∀ episode ∈ episodes, episode.seriesId = seriesId) :
    ∃ single changed, episodes.foldlM markEpisodeWatched watchState = .ok single ∧
      (watchState.stateOf seriesId).With
        (episodes.foldl watchedRows (watchState.stateOf seriesId).episodeProgress) changed ∧
      single.seriesWatchStates =
        Keyed.upsert SeriesWatchState.seriesId watchState.seriesWatchStates changed := by
  obtain ⟨episode, rest, rfl⟩ := List.exists_cons_of_ne_nil nonempty
  obtain ⟨middle, ok, next, isSelf, holds, marked⟩ := @markEpisodeWatched_ok episode watchState _
    (own episode List.mem_cons_self)
  have own' := holds.seriesId.trans seriesId_stateOf
  have found' : middle.seriesWatchStateFor seriesId = some next := by
    rw [seriesWatchStateFor_eq, marked.states, Keyed.find_upsert, if_pos own'.symm]
  obtain ⟨single, changed, fold, holds', states⟩ := @foldlM_ok rest middle seriesId next
    markEpisodeWatched _ (fun watchState episode state own found => by
      have step := @markEpisodeWatched_ok episode watchState _ own
      rw [stateOf_of_some found] at step
      exact step)
    (fun other member => own other (List.mem_cons_of_mem _ member)) found'
  refine ⟨single, changed, ?_, ?_, ?_⟩
  · rw [List.foldlM_cons, ok]
    exact fold
  · have rows := holds.trans holds'
    rw [holds.progress] at rows
    exact rows
  · rw [states, marked.states]
    exact Keyed.upsert_upsert holds'.seriesId.symm

/-! ### A season -/

theorem validateSeasonEpisodes_ok {seasonId : UUID} (nonempty : episodes ≠ [])
    (series : ∀ episode ∈ episodes, episode.seriesId = seriesId)
    (season : ∀ episode ∈ episodes, episode.seasonId = seasonId) :
    validateSeasonEpisodes episodes = .ok seriesId := by
  have single {field : EpisodeRef → UUID} {value : UUID}
      (same : ∀ episode ∈ episodes, field episode = value) :
      (episodes.map field).dedup.length = 1 := by
    have constant : episodes.map field = List.replicate episodes.length value := by
      rw [List.eq_replicate_iff, List.length_map]
      refine ⟨rfl, fun other member => ?_⟩
      obtain ⟨episode, inside, rfl⟩ := List.mem_map.mp member
      exact same episode inside
    rw [constant, List.replicate_dedup (by rwa [Ne, List.length_eq_zero_iff]), List.length_singleton]
  obtain ⟨episode, rest, rfl⟩ := List.exists_cons_of_ne_nil nonempty
  rw [validateSeasonEpisodes, reject_of_not (not_not.mpr (single series)), ok_bind,
    reject_of_not (not_not.mpr (single season)), ok_bind, series episode List.mem_cons_self]
  rfl

theorem markSeasonWatched_ok {seasonId : UUID} (nonempty : episodes ≠ [])
    (series : ∀ episode ∈ episodes, episode.seriesId = seriesId)
    (season : ∀ episode ∈ episodes, episode.seasonId = seasonId) :
    ∃ bulk changed, watchState.markSeasonWatched episodes = .ok bulk ∧
      (watchState.stateOf seriesId).With
        (episodes.foldl watchedRows (watchState.stateOf seriesId).episodeProgress) changed ∧
      watchState.Marked
        (Keyed.upsert SeriesWatchState.seriesId watchState.seriesWatchStates changed)
        (episodes.all watchState.isEpisodeFullyWatched) bulk := by
  obtain ⟨returned, marks, isSelf, self, holds⟩ := @SeriesWatchState.markEpisodesWatched_ok
    (watchState.stateOf seriesId) episodes
    (fun episode member => (series episode member).trans seriesId_stateOf.symm)
  have own := holds.seriesId.trans seriesId_stateOf
  have all : returned.isSelf = episodes.all watchState.isEpisodeFullyWatched := by
    rw [isSelf, Bool.eq_iff_iff, List.all_eq_true, List.all_eq_true]
    refine forall₂_congr fun episode member => ?_
    rw [isEpisodeFullyWatched_eq, series episode member]
  rw [← all]
  have valid := validateSeasonEpisodes_ok nonempty series season
  cases found : watchState.seriesWatchStateFor seriesId with
  | none =>
      have new : watchState.stateOf seriesId = created seriesId := by
        rw [stateOf, found]
        rfl
      obtain ⟨bulk, ok, marked⟩ := @addSeriesState_ok watchState _
        (·.markEpisodesWatched episodes) _ found (new ▸ marks) own
      have changed : returned.isSelf = false := by
        rw [isSelf, new]
        obtain ⟨episode, rest, rfl⟩ := List.exists_cons_of_ne_nil nonempty
        rfl
      rw [changed]
      refine ⟨bulk, returned.value, ?_, holds, marked⟩
      rw [markSeasonWatched, valid, ok_bind, found]
      exact ok
  | some existing =>
      have here := stateOf_of_some found
      obtain ⟨bulk, ok, marked⟩ := @replaceSeriesState_ok watchState _ _
        (·.markEpisodesWatched episodes) _ found (here ▸ marks) own (fun same => (self same).trans here)
      refine ⟨bulk, returned.value, ?_, holds, marked⟩
      rw [markSeasonWatched, valid, ok_bind, found]
      exact ok

theorem markSeasonUnwatched_ok {seasonId : UUID} (nonempty : episodes ≠ [])
    (series : ∀ episode ∈ episodes, episode.seriesId = seriesId)
    (season : ∀ episode ∈ episodes, episode.seasonId = seasonId)
    (found : watchState.seriesWatchStateFor seriesId = some state) :
    ∃ bulk changed isSelf, watchState.markSeasonUnwatched episodes = .ok bulk ∧
      (isSelf = true ↔ changed.episodeProgress = state.episodeProgress) ∧
      state.With (state.episodeProgress.filter fun progress =>
        progress.episodeId ∉ episodes.map (·.episodeId)) changed ∧
      watchState.Marked
        (Keyed.upsert SeriesWatchState.seriesId watchState.seriesWatchStates changed) isSelf bulk := by
  have own : state.seriesId = seriesId := (Keyed.mem_of_find found).2
  obtain ⟨returned, marks, isSelf, self, holds⟩ := @SeriesWatchState.markEpisodesUnwatched_ok
    state episodes fun episode member => (series episode member).trans own.symm
  obtain ⟨bulk, ok, marked⟩ := @replaceSeriesState_ok watchState _ _
    (·.markEpisodesUnwatched episodes) _ found marks (holds.seriesId.trans own) self
  refine ⟨bulk, returned.value, returned.isSelf, ?_, isSelf, holds, marked⟩
  rw [markSeasonUnwatched, validateSeasonEpisodes_ok nonempty series season, ok_bind, found]
  exact ok

/-! ### What a season update and single updates have in common -/

/-- The season update does what the single ones do, advances the version by one exactly if the
progress changes, leaves all other progress where it is, and is stored with its events. -/
structure Agrees (watchState : ProfileWatchState) (seriesId : UUID) (episodes : List EpisodeRef)
    (kind : WatchEventKind) (changed : List EpisodeRef) (bulk single : ProfileWatchState) : Prop where
  states : bulk.seriesWatchStates = single.seriesWatchStates
  advanced : bulk.seriesWatchStates ≠ watchState.seriesWatchStates →
    bulk.version = watchState.version + 1
  unchanged : bulk.seriesWatchStates = watchState.seriesWatchStates →
    bulk.version = watchState.version
  otherSeries : (bulk.seriesWatchStates.filter fun state => state.seriesId ≠ seriesId) =
    watchState.seriesWatchStates.filter fun state => state.seriesId ≠ seriesId
  otherEpisodes : ((bulk.stateOf seriesId).episodeProgress.filter fun progress =>
      progress.episodeId ∉ episodes.map (·.episodeId)) =
    (watchState.stateOf seriesId).episodeProgress.filter fun progress =>
      progress.episodeId ∉ episodes.map (·.episodeId)
  accepted : bulk.seriesWatchStates ≠ watchState.seriesWatchStates →
    ∀ (repository : InMemoryWatchProgressRepository) source occurredAt newId,
      repository.get watchState.profileId = some watchState → ∃ next,
        repository.persistStateChange bulk
          (createWatchEvents watchState.profileId changed kind source occurredAt newId)
          watchState.version = .ok next

/-- Every episode that is not fully watched is the last of the tuple with its id. -/
def LastOfItsId (watchState : ProfileWatchState) (episodes : List EpisodeRef) : Prop :=
  ∀ episode ∈ episodes, watchState.isEpisodeFullyWatched episode = false →
    lastWithId episodes episode.episodeId = some episode

/-- Progress that is stored under an id of the tuple is stored under a reference of the tuple. -/
def StoredAsRequested (watchState : ProfileWatchState) (seriesId : UUID) (episodes : List EpisodeRef) :
    Prop :=
  ∀ progress ∈ (watchState.stateOf seriesId).episodeProgress,
    progress.episodeId ∈ episodes.map (·.episodeId) → progress.episode ∈ episodes

theorem mem_createWatchEvents {profileId : UUID} {changed : List EpisodeRef} {kind : WatchEventKind}
    {source : WatchEventSource} {occurredAt : DateTime} {newId : Nat → UUID} {event : WatchEvent}
    (member : event ∈ createWatchEvents profileId changed kind source occurredAt newId) :
    event.profileId = profileId ∧ event.kind = kind ∧ event.episode ∈ changed := by
  obtain ⟨index, within, rfl⟩ := List.mem_mapIdx.mp member
  exact ⟨rfl, rfl, List.getElem_mem within⟩

theorem exists_watchEvent {profileId : UUID} {changed : List EpisodeRef} {kind : WatchEventKind}
    {source : WatchEventSource} {occurredAt : DateTime} {newId : Nat → UUID}
    (member : episode ∈ changed) :
    ∃ event ∈ createWatchEvents profileId changed kind source occurredAt newId,
      event.kind = kind ∧ event.episode = episode := by
  obtain ⟨index, within, rfl⟩ := List.getElem_of_mem member
  exact ⟨_, List.mem_mapIdx.mpr ⟨index, within, rfl⟩, rfl, rfl⟩

/-- A repository accepts a change that advances the version and agrees with its events. -/
theorem persist_ok {repository : InMemoryWatchProgressRepository} {events : List WatchEvent}
    (stored : repository.get watchState.profileId = some watchState)
    (identity : bulk.profileId = watchState.profileId)
    (advanced : bulk.version = watchState.version + 1)
    (checked : ∀ event ∈ events, InMemoryWatchProgressRepository.checkEvent bulk event = .ok ()) :
    ∃ next, repository.persistStateChange bulk events watchState.version = .ok next := by
  rw [← identity] at stored
  exact ⟨_, InMemoryWatchProgressRepository.persistStateChange_eq_ok.mpr
    ⟨⟨watchState, stored, rfl⟩, advanced, checked, rfl⟩⟩

open InMemoryWatchProgressRepository in
theorem checkEvent_watched {event : WatchEvent} (kind : event.kind = .episodeMarkedWatched) :
    checkEvent bulk event = .ok () ↔
      event.profileId = bulk.profileId ∧ bulk.isEpisodeFullyWatched event.episode = true := by
  simp [checkEvent, unit_bind_eq_ok, kind]

open InMemoryWatchProgressRepository in
theorem checkEvent_unwatched {event : WatchEvent} (kind : event.kind = .episodeMarkedUnwatched) :
    checkEvent bulk event = .ok () ↔
      event.profileId = bulk.profileId ∧ bulk.hasEpisodeProgress event.episode = false := by
  simp [checkEvent, unit_bind_eq_ok, kind]

/-- A repository that holds one profile. -/
def holding (watchState : ProfileWatchState) : InMemoryWatchProgressRepository where
  watchStates := Dict.empty.set watchState.profileId watchState
  watchEvents := []

theorem watched_agrees {seasonId : UUID} (nonempty : episodes ≠ [])
    (series : ∀ episode ∈ episodes, episode.seriesId = seriesId)
    (season : ∀ episode ∈ episodes, episode.seasonId = seasonId) :
    ∃ bulk single, watchState.markSeasonWatched episodes = .ok bulk ∧
      episodes.foldlM markEpisodeWatched watchState = .ok single ∧
      (watchState.Agrees seriesId episodes .episodeMarkedWatched
        (episodes.filter fun episode => !watchState.isEpisodeFullyWatched episode) bulk single ↔
          watchState.LastOfItsId episodes) := by
  obtain ⟨bulk, changed, ok, holds, marked⟩ :=
    @markSeasonWatched_ok episodes watchState _ _ nonempty series season
  obtain ⟨single, changed', fold, holds', states⟩ :=
    @foldlM_watched_ok episodes watchState _ nonempty series
  refine ⟨bulk, single, ok, fold, ?_⟩
  cases holds.unique holds'
  have own : changed.seriesId = seriesId := holds.seriesId.trans seriesId_stateOf
  have after : bulk.stateOf seriesId = changed := marked.stateOf own
  -- an episode is fully watched afterwards exactly if it is the last with its id
  have watched : ∀ episode ∈ episodes, (bulk.isEpisodeFullyWatched episode = true ↔
      lastWithId episodes episode.episodeId = some episode) := by
    intro episode member
    rw [isEpisodeFullyWatched_eq, series episode member, after, SeriesWatchState.isFullyWatched_iff,
      ← SeriesWatchState.find_completed_iff, holds.progress, find_foldl_watchedRows]
    obtain ⟨last, found⟩ := exists_lastWithId member
    rw [found]
    constructor
    · intro same
      exact congrArg some (congrArg EpisodeWatchProgress.episode (Option.some.inj same))
    · intro same
      rw [Option.some.inj same]
  constructor
  · intro agrees episode member unwatched
    have moved : bulk.version = watchState.version + 1 := by
      have some_unwatched : ¬episodes.all watchState.isEpisodeFullyWatched = true := by
        rw [List.all_eq_true]
        intro all
        rw [all episode member] at unwatched
        cases unwatched
      rw [marked.version, if_neg some_unwatched]
    have different : bulk.seriesWatchStates ≠ watchState.seriesWatchStates := by
      intro same
      have := agrees.unchanged same
      omega
    obtain ⟨next, persisted⟩ := agrees.accepted different (holding watchState) .manual ⟨.utc, 0⟩
      (fun _ => ⟨0⟩) (Dict.get?_set_self ..)
    have chosen : episode ∈ episodes.filter fun episode => !watchState.isEpisodeFullyWatched episode :=
      List.mem_filter.mpr ⟨member, by rw [unwatched]; rfl⟩
    obtain ⟨event, inside, kind, rfl⟩ := exists_watchEvent chosen
    have checked := (InMemoryWatchProgressRepository.persistStateChange_eq_ok.mp persisted).2.2.1
    exact (watched _ member).mp ((checkEvent_watched kind).mp (checked event inside)).2
  · intro last
    have moved : bulk.seriesWatchStates ≠ watchState.seriesWatchStates →
        bulk.version = watchState.version + 1 := by
      intro different
      rw [marked.version, if_neg]
      intro all
      rw [marked.self all] at different
      exact different rfl
    refine ⟨marked.states.trans states.symm, moved, ?_, ?_, ?_, ?_⟩
    · intro same
      rw [marked.version, if_pos]
      rw [List.all_eq_true]
      intro episode member
      cases unwatched : watchState.isEpisodeFullyWatched episode with
      | true => rfl
      | false =>
          have now := (watched episode member).mpr (last episode member unwatched)
          rw [isEpisodeFullyWatched_eq, stateOf, seriesWatchStateFor, same] at now
          rw [isEpisodeFullyWatched_eq, stateOf, seriesWatchStateFor, now] at unwatched
          cases unwatched
    · rw [marked.states, ← own]
      exact Keyed.filter_upsert_other
    · rw [after, holds.progress]
      apply filter_foldl_watchedRows
      intro episode member progress same
      rw [decide_eq_false_iff_not, not_not, same]
      exact List.mem_map_of_mem member
    · intro different repository source occurredAt newId stored
      apply persist_ok stored marked.profileId (moved different)
      intro event inside
      obtain ⟨profile, kind, unwatched⟩ := mem_createWatchEvents inside
      obtain ⟨member, unwatched⟩ := List.mem_filter.mp unwatched
      rw [Bool.not_eq_true'] at unwatched
      rw [checkEvent_watched kind, profile, marked.profileId]
      exact ⟨rfl, (watched _ member).mpr (last _ member unwatched)⟩

theorem unwatched_agrees {seasonId : UUID} (nonempty : episodes ≠ [])
    (series : ∀ episode ∈ episodes, episode.seriesId = seriesId)
    (season : ∀ episode ∈ episodes, episode.seasonId = seasonId) :
    ∃ bulk single, watchState.markSeasonUnwatched episodes = .ok bulk ∧
      episodes.foldlM markEpisodeUnwatched watchState = .ok single ∧
      (watchState.Agrees seriesId episodes .episodeMarkedUnwatched
        (episodes.filter watchState.hasEpisodeProgress) bulk single ↔
          watchState.StoredAsRequested seriesId episodes) := by
  cases found : watchState.seriesWatchStateFor seriesId with
  | none =>
      have fold : episodes.foldlM markEpisodeUnwatched watchState = .ok watchState := by
        clear nonempty season
        induction episodes with
        | nil => rfl
        | cons episode rest ih =>
            have here : watchState.markEpisodeUnwatched episode = .ok watchState := by
              rw [markEpisodeUnwatched, series episode List.mem_cons_self, found]
            rw [List.foldlM_cons, here]
            exact ih fun other member => series other (List.mem_cons_of_mem _ member)
      refine ⟨watchState, watchState, ?_, fold, iff_of_true ?_ ?_⟩
      · rw [markSeasonUnwatched, validateSeasonEpisodes_ok nonempty series season, ok_bind, found]
        rfl
      · exact ⟨rfl, fun h => absurd rfl h, fun _ => rfl, rfl, rfl, fun h => absurd rfl h⟩
      · intro progress member
        rw [stateOf, found] at member
        cases member
  | some state =>
      obtain ⟨bulk, changed, isSelf, ok, self, holds, marked⟩ :=
        markSeasonUnwatched_ok nonempty series season found
      obtain ⟨single, changed', fold, holds', states⟩ := @foldlM_ok _ _ _ _
        markEpisodeUnwatched _ (fun _ _ _ own found => markEpisodeUnwatched_ok own found) series found
      rw [foldl_unwatchedRows] at holds'
      refine ⟨bulk, single, ok, fold, ?_⟩
      have here := stateOf_of_some found
      have own : changed.seriesId = seriesId := holds.seriesId.trans (Keyed.mem_of_find found).2
      have after : bulk.stateOf seriesId = changed := marked.stateOf own
      constructor
      · intro agrees progress member requested
        rw [here] at member
        by_contra missing
        have same : changed = changed' := by
          have both := agrees.states
          rw [marked.states, states] at both
          have found' := congrArg (Keyed.find SeriesWatchState.seriesId · seriesId) both
          simpa [Keyed.find_upsert, own, holds'.seriesId.trans (Keyed.mem_of_find found).2] using found'
        have kept : progress ∈ changed.episodeProgress := by
          rw [same, holds'.progress]
          exact List.mem_filter.mpr ⟨member, decide_eq_true missing⟩
        rw [holds.progress] at kept
        exact of_decide_eq_true (List.mem_filter.mp kept).2 requested
      · intro stored
        rw [StoredAsRequested, here] at stored
        have rows : (state.episodeProgress.filter fun progress =>
              progress.episodeId ∉ episodes.map (·.episodeId)) =
            state.episodeProgress.filter fun progress => progress.episode ∉ episodes := by
          apply List.filter_congr
          intro progress member
          rw [decide_eq_decide, not_iff_not]
          exact ⟨stored progress member, fun inside => List.mem_map_of_mem inside⟩
        rw [← rows] at holds'
        cases holds.unique holds'
        have moved : bulk.seriesWatchStates ≠ watchState.seriesWatchStates →
            bulk.version = watchState.version + 1 := by
          intro different
          rw [marked.version, if_neg]
          intro all
          rw [marked.self all] at different
          exact different rfl
        refine ⟨marked.states.trans states.symm, moved, ?_, ?_, ?_, ?_⟩
        · intro same
          rw [marked.version, if_pos]
          rw [self, ← after, stateOf, seriesWatchStateFor, same, ← seriesWatchStateFor, found]
          rfl
        · rw [marked.states, ← own]
          exact Keyed.filter_upsert_other
        · rw [after, here, holds.progress, List.filter_filter]
          simp
        · intro different repository source occurredAt newId present
          apply persist_ok present marked.profileId (moved different)
          intro event inside
          obtain ⟨profile, kind, progressed⟩ := mem_createWatchEvents inside
          have member := (List.mem_filter.mp progressed).1
          rw [checkEvent_unwatched kind, profile, marked.profileId]
          refine ⟨rfl, ?_⟩
          rw [hasEpisodeProgress_eq, series _ member, after, ← Bool.not_eq_true,
            SeriesWatchState.hasProgressFor_iff, holds.progress]
          rintro ⟨progress, kept, same⟩
          apply of_decide_eq_true (List.mem_filter.mp kept).2
          rw [EpisodeWatchProgress.episodeId, same]
          exact List.mem_map_of_mem member

/-- For every tuple of episodes of one season, the season update to watched agrees with the single
updates exactly if every episode that is not fully watched is the last of the tuple with its id, and
the season update to unwatched exactly if no progress is stored under an id of the tuple and another
reference. -/
theorem season_marks_agree_iff (watchState : ProfileWatchState) (episodes : List EpisodeRef)
    (seriesId seasonId : UUID) (nonempty : episodes ≠ [])
    (series : ∀ episode ∈ episodes, episode.seriesId = seriesId)
    (season : ∀ episode ∈ episodes, episode.seasonId = seasonId) :
    (∃ bulk single, watchState.markSeasonWatched episodes = .ok bulk ∧
      episodes.foldlM markEpisodeWatched watchState = .ok single ∧
      (watchState.Agrees seriesId episodes .episodeMarkedWatched
        (episodes.filter fun episode => !watchState.isEpisodeFullyWatched episode) bulk single ↔
          watchState.LastOfItsId episodes)) ∧
    ∃ bulk single, watchState.markSeasonUnwatched episodes = .ok bulk ∧
      episodes.foldlM markEpisodeUnwatched watchState = .ok single ∧
      (watchState.Agrees seriesId episodes .episodeMarkedUnwatched
        (episodes.filter watchState.hasEpisodeProgress) bulk single ↔
          watchState.StoredAsRequested seriesId episodes) :=
  ⟨watched_agrees nonempty series season, unwatched_agrees nonempty series season⟩

end ProfileWatchState

namespace SeasonSamples

open ProfileWatchState CatalogueSamples

/-- The same episode under the position of an older catalogue. -/
def renumbered : EpisodeRef := { pilot with position := ⟨1, 2, EpisodePosition.first_pos, EpisodePosition.second_pos⟩ }

theorem unbounded : ∀ e ∈ (none : Option EpisodeRef), e.seriesId = ⟨1⟩ := by decide

theorem none_allowed : ∀ e ∈ (∅ : Finset EpisodeRef), e.seriesId = ⟨1⟩ := by decide

def series : SeriesWatchState where
  seriesId := ⟨1⟩
  episodeProgress := [completed pilot]
  manuallyAllowedEpisodes := ∅
  sequentialSafeBoundary := none
  progress_series := by decide
  boundary_series := unbounded
  allowed_series := none_allowed
  progress_unique := by decide

def profile : ProfileWatchState where
  profileId := ⟨4⟩
  profileName := "viewer"
  seriesWatchStates := [series]
  spoilerMode := .strict
  version := 7
  name_trimmed := viewer_trimmed
  series_unique := by decide
  version_nonneg := by decide

/-- With the episode stored under one reference: a season update with both references to watched,
and one with the other reference to unwatched. -/
theorem season_marks_disagree :
    (∃ bulk single, profile.markSeasonWatched [renumbered, pilot] = .ok bulk ∧
      [renumbered, pilot].foldlM markEpisodeWatched profile = .ok single ∧
      ¬profile.Agrees ⟨1⟩ [renumbered, pilot] .episodeMarkedWatched
        ([renumbered, pilot].filter fun episode => !profile.isEpisodeFullyWatched episode)
        bulk single) ∧
    ∃ bulk single, profile.markSeasonUnwatched [renumbered] = .ok bulk ∧
      [renumbered].foldlM markEpisodeUnwatched profile = .ok single ∧
      ¬profile.Agrees ⟨1⟩ [renumbered] .episodeMarkedUnwatched
        ([renumbered].filter profile.hasEpisodeProgress) bulk single := by
  constructor
  · obtain ⟨bulk, single, ok, fold, agrees⟩ := @watched_agrees [renumbered, pilot]
      profile ⟨1⟩ ⟨2⟩ (by decide) (by decide) (by decide)
    refine ⟨bulk, single, ok, fold, fun both => ?_⟩
    have last := agrees.mp both renumbered (by decide) (by decide)
    exact absurd last (by decide)
  · obtain ⟨bulk, single, ok, fold, agrees⟩ := @unwatched_agrees [renumbered]
      profile ⟨1⟩ ⟨2⟩ (by decide) (by decide) (by decide)
    refine ⟨bulk, single, ok, fold, fun both => ?_⟩
    have stored := agrees.mp both (completed pilot) (by decide) (by decide)
    exact absurd stored (by decide)

/-- An episode of the season that nothing is stored for. -/
def finale : EpisodeRef := { renumbered with episodeId := ⟨5⟩ }

/-- Each episode twice, under the reference that it is stored with. -/
def seasonTwice : List EpisodeRef := [pilot, finale, pilot, finale]

/-- One of the episodes is watched before. The update to watched adds the other, the update to
unwatched takes the first away. -/
theorem season_marks_agree_sample :
    profile.isEpisodeFullyWatched pilot = true ∧ profile.isEpisodeFullyWatched finale = false ∧
    (∃ bulk single, profile.markSeasonWatched seasonTwice = .ok bulk ∧
      seasonTwice.foldlM markEpisodeWatched profile = .ok single ∧
      bulk.isEpisodeFullyWatched finale = true ∧
      profile.Agrees ⟨1⟩ seasonTwice .episodeMarkedWatched
        (seasonTwice.filter fun episode => !profile.isEpisodeFullyWatched episode) bulk single) ∧
    ∃ bulk single, profile.markSeasonUnwatched seasonTwice = .ok bulk ∧
      seasonTwice.foldlM markEpisodeUnwatched profile = .ok single ∧
      bulk.isEpisodeFullyWatched pilot = false ∧
      profile.Agrees ⟨1⟩ seasonTwice .episodeMarkedUnwatched
        (seasonTwice.filter profile.hasEpisodeProgress) bulk single := by
  obtain ⟨⟨bulk, single, ok, fold, agrees⟩, ⟨bulk', single', ok', fold', agrees'⟩⟩ :=
    season_marks_agree_iff profile seasonTwice ⟨1⟩ ⟨2⟩ (by decide) (by decide) (by decide)
  have last : profile.LastOfItsId seasonTwice := by
    intro other member _
    simp only [seasonTwice, List.mem_cons, List.not_mem_nil, or_false] at member
    rcases member with rfl | rfl | rfl | rfl <;> rfl
  have stored : profile.StoredAsRequested ⟨1⟩ seasonTwice := by
    intro progress member _
    cases List.mem_singleton.mp member
    exact List.mem_cons_self
  have marks : (profile.markSeasonWatched seasonTwice).toOption.map
      (·.isEpisodeFullyWatched finale) = some true := by decide
  have unmarks : (profile.markSeasonUnwatched seasonTwice).toOption.map
      (·.isEpisodeFullyWatched pilot) = some false := by decide
  rw [ok] at marks
  rw [ok'] at unmarks
  exact ⟨by decide, by decide,
    ⟨bulk, single, ok, fold, Option.some.inj marks, agrees.mpr last⟩,
    ⟨bulk', single', ok', fold', Option.some.inj unmarks, agrees'.mpr stored⟩⟩

end SeasonSamples

end Cinegraph
