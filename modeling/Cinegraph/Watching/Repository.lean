import Cinegraph.Library.Dict
import Cinegraph.Watching.Marks

/-!
The in-memory store of watch progress: a profile is written together with the events that say what
changed, under the version that it was read with.
-/

namespace Cinegraph

open Library

namespace WatchErrorMessages

def CONCURRENT_WATCH_PROGRESS : String := "Profile watch state was updated concurrently."
def EXPECTED_VERSION_MISMATCH : String :=
  "Updated watch state must advance its version by exactly one."
def WATCH_EVENT_PROFILE_MISMATCH : String := "Watch event profile does not match watch state profile."
def WATCH_EVENT_NOT_FULLY_WATCHED : String :=
  "Watch event does not indicate that the episode was fully watched."
def UNWATCHED_EVENT_REQUIRES_NO_PROGRESS : String :=
  "A marked-unwatched event requires no remaining episode progress."
def NO_WATCH_STATE_FOUND_FOR_PROFILE_ID (profileId : UUID) : String :=
  "Profile watch state not found for profile_id: " ++ profileId.str

end WatchErrorMessages

open WatchErrorMessages

inductive WatchEventKind where
  | episodeMarkedWatched
  | episodeMarkedUnwatched
  deriving DecidableEq, Repr

inductive WatchEventSource where
  | manual
  | jellyfin
  | netflixCsv
  deriving DecidableEq, Repr

structure WatchEvent where
  eventId : UUID
  profileId : UUID
  episode : EpisodeRef
  kind : WatchEventKind
  source : WatchEventSource
  occurredAt : DateTime
  deriving DecidableEq

/-- `create_watch_events`, with an id for every event. -/
def createWatchEvents (profileId : UUID) (episodes : List EpisodeRef) (kind : WatchEventKind)
    (source : WatchEventSource) (occurredAt : DateTime) (newId : Nat → UUID) : List WatchEvent :=
  episodes.mapIdx fun index episode => ⟨newId index, profileId, episode, kind, source, occurredAt⟩

structure InMemoryWatchProgressRepository where
  watchStates : Dict UUID ProfileWatchState
  watchEvents : List WatchEvent

namespace InMemoryWatchProgressRepository

def get (self : InMemoryWatchProgressRepository) (profileId : UUID) : Option ProfileWatchState :=
  self.watchStates.get? profileId

/-- The checks of an event against the state that it is written with. -/
def checkEvent (watchState : ProfileWatchState) (event : WatchEvent) : Except Raised Unit := do
  reject (event.profileId ≠ watchState.profileId) WATCH_EVENT_PROFILE_MISMATCH
  reject (event.kind = .episodeMarkedWatched ∧ watchState.isEpisodeFullyWatched event.episode = false)
    WATCH_EVENT_NOT_FULLY_WATCHED
  reject (event.kind = .episodeMarkedUnwatched ∧ watchState.hasEpisodeProgress event.episode = true)
    UNWATCHED_EVENT_REQUIRES_NO_PROGRESS

def persistStateChange (self : InMemoryWatchProgressRepository) (watchState : ProfileWatchState)
    (watchEvents : List WatchEvent) (expectedVersion : Int) :
    Except Raised InMemoryWatchProgressRepository := do
  match self.watchStates.get? watchState.profileId with
  | none => throw ⟨.keyError, NO_WATCH_STATE_FOUND_FOR_PROFILE_ID watchState.profileId⟩
  | some current =>
      reject (current.version ≠ expectedVersion) CONCURRENT_WATCH_PROGRESS
        .concurrentWatchProgressUpdate
      reject (watchState.version ≠ expectedVersion + 1) EXPECTED_VERSION_MISMATCH
      watchEvents.forM (checkEvent watchState)
      return {
        watchStates := self.watchStates.set watchState.profileId watchState
        watchEvents := self.watchEvents ++ watchEvents }

variable {self next : InMemoryWatchProgressRepository} {watchState current : ProfileWatchState}
  {watchEvents : List WatchEvent} {expectedVersion : Int}

/-- When a change is accepted, and what is stored then. -/
theorem persistStateChange_eq_ok :
    self.persistStateChange watchState watchEvents expectedVersion = .ok next ↔
      (∃ current, self.get watchState.profileId = some current ∧ current.version = expectedVersion) ∧
      watchState.version = expectedVersion + 1 ∧
      (∀ event ∈ watchEvents, checkEvent watchState event = .ok ()) ∧
      next = {
        watchStates := self.watchStates.set watchState.profileId watchState
        watchEvents := self.watchEvents ++ watchEvents } := by
  unfold persistStateChange get
  cases self.watchStates.get? watchState.profileId with
  | none => exact iff_of_false (fun h => by cases h) fun ⟨⟨_, h, _⟩, _⟩ => by cases h
  | some current =>
      simp only [unit_bind_eq_ok, reject_eq_ok, ne_eq, not_not, forM_eq_ok, Option.some.injEq,
        exists_eq_left']
      refine and_congr_right fun _ => and_congr_right fun _ => and_congr_right fun _ => ?_
      exact ⟨fun h => by cases h; rfl, fun h => by rw [h]; rfl⟩

end InMemoryWatchProgressRepository

end Cinegraph
