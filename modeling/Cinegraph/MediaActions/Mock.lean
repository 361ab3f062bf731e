import Cinegraph.Library.Dict
import Cinegraph.Library.Exec
import Cinegraph.MediaActions.Command

/-!
What the media-action service needs of a provider, and the mock provider, which applies a
command and records its execution under one lock.
-/

namespace Cinegraph.MediaActions

open Library

structure MediaActionResult where
  commandId : UUID
  externalReference : String
  providerStateRevision : String
  idempotentReplay : Bool
  deriving DecidableEq

/-- A provider over the state `σ`. A call reads what the world answers it, and `outside` is what
happens to the provider between the calls of the service. -/
structure MediaProvider (σ ω δ : Type) where
  connectionRevision : ω → UUID → Exec σ Raised String
  execute : ω → MediaCommand → Exec σ Raised MediaActionResult
  verify : ω → MediaCommand → MediaActionResult → Exec σ Raised Bool
  outside : δ → σ → σ
  /-- The commands whose effects are visible, newest first. -/
  effects : σ → List MediaCommand

namespace MediaProviderErrorMessages

def CONNECTION_NOT_FOUND := "The media-provider connection does not exist."
def PROVIDER_UNAVAILABLE := "The media provider is unavailable."
def PROFILE_NOT_AUTHORIZED := "The profile is not authorized for this provider connection."
def EPISODE_NOT_FOUND := "The media provider could not resolve an episode."
def COMMAND_FAILED := "The media provider simulated a command failure."
def IDEMPOTENCY_KEY_REUSED := "The provider idempotency key is bound to another command."
def RESULT_NOT_RECOGNIZED := "The provider result does not match an executed command."
def PROVIDER_REQUEST_FAILED := "The media-provider request failed."
def PROVIDER_AUTHENTICATION_FAILED := "The media-provider credentials were rejected."
def PROVIDER_RESPONSE_INVALID := "The media provider returned an invalid response."
def PROVIDER_CIRCUIT_OPEN := "The media-provider circuit breaker is open."
def PLAYBACK_SESSION_REQUIRED := "A controllable provider playback session is required."

end MediaProviderErrorMessages

open MediaProviderErrorMessages

/-- The executions a provider remembers, by idempotency key: the digest of the command and its
result. -/
abbrev Executions := Dict String (String × MediaActionResult)

namespace MockMediaProvider

structure MockMediaProviderConfiguration where
  failingCommands : List MediaCommandKind
  staleWrites : Bool
  failVerification : Bool
  externalReferencePrefix : String
  stateRevisionPrefix : String

structure ProfileState where
  watchedEpisodeIds : Finset UUID
  favoriteEpisodeIds : Finset UUID
  playlists : Dict String (List UUID)
  playbackRequests : List (UUID × UUID)

structure State where
  connectionId : UUID
  episodes : List UUID
  profiles : Dict UUID ProfileState
  available : Bool
  connectionRevision : String
  stateVersion : Nat
  executions : Executions
  applied : List MediaCommand

/-- What is set from outside: `set_available` and `advance_connection_revision`. -/
inductive Change where
  | setAvailable (available : Bool)
  | advanceConnectionRevision (revision : String) (trimmed : Trimmed revision)

variable (configuration : MockMediaProviderConfiguration)

def requireConnection (connectionId : UUID) : Exec State Raised Unit := do
  let self ← get
  Exec.lift (reject (connectionId ≠ self.connectionId) CONNECTION_NOT_FOUND)

def requireReady (connectionId : UUID) : Exec State Raised Unit := do
  requireConnection connectionId
  let self ← get
  Exec.lift (reject (self.available = false) PROVIDER_UNAVAILABLE .connectionError)

def requireProfile (profileId : UUID) : Exec State Raised ProfileState := do
  let self ← get
  Exec.require (self.profiles.get? profileId) ⟨.permissionError, PROFILE_NOT_AUTHORIZED⟩

def requireEpisodes (episodeIds : List UUID) : Exec State Raised Unit := do
  let self ← get
  Exec.lift (reject (∃ episodeId ∈ episodeIds, episodeId ∉ self.episodes) EPISODE_NOT_FOUND)

def connectionRevision (connectionId : UUID) : Exec State Raised String := do
  requireReady connectionId
  let self ← get
  return self.connectionRevision

/-- `_apply` -/
def applied (command : MediaCommand) (state : ProfileState) : ProfileState :=
  match command.kind with
  | .markWatched => { state with watchedEpisodeIds := insert command.episodeId state.watchedEpisodeIds }
  | .setFavorite =>
      if command.favorite = some true then
        { state with favoriteEpisodeIds := insert command.episodeId state.favoriteEpisodeIds }
      else { state with favoriteEpisodeIds := state.favoriteEpisodeIds.erase command.episodeId }
  | .createPlaylist =>
      { state with playlists := state.playlists.set (command.playlistName.getD "") command.episodeIds }
  | .requestPlayback =>
      { state with
        playbackRequests := state.playbackRequests ++ [(command.commandId, command.episodeId)] }

def stateRevision (self : State) : String :=
  configuration.stateRevisionPrefix ++ String.ofList (decimal self.stateVersion)

/-- The checks before an execution or a verification. -/
def requireCommand (command : MediaCommand) : Exec State Raised ProfileState := do
  requireReady command.providerConnectionId
  let state ← requireProfile command.profileId
  requireEpisodes command.episodeIds
  return state

variable [Floats] [Sha256]

def execute (command : MediaCommand) : Exec State Raised MediaActionResult := do
  let state ← requireCommand command
  if command.kind ∈ configuration.failingCommands then throw ⟨.runtimeError, COMMAND_FAILED⟩
  let self ← get
  match self.executions.get? command.idempotencyKey with
  | some (commandSha256, result) =>
      Exec.lift (reject (commandSha256 ≠ command.parameterSha256) IDEMPOTENCY_KEY_REUSED)
      return { result with idempotentReplay := true }
  | none =>
      if !configuration.staleWrites then
        modify fun self => { self with
          profiles := self.profiles.set command.profileId (applied command state)
          applied := command :: self.applied }
      modify fun self => { self with stateVersion := self.stateVersion + 1 }
      let self ← get
      let result : MediaActionResult := {
        commandId := command.commandId
        externalReference := configuration.externalReferencePrefix ++
          String.ofList (decimal self.stateVersion)
        providerStateRevision := stateRevision configuration self
        idempotentReplay := false }
      modify fun self => { self with
        executions := self.executions.set command.idempotencyKey (command.parameterSha256, result) }
      return result

omit [Floats] [Sha256] in
def verify (command : MediaCommand) (result : MediaActionResult) : Exec State Raised Bool := do
  let state ← requireCommand command
  let self ← get
  match self.executions.get? command.idempotencyKey with
  | none => throw (valueError RESULT_NOT_RECOGNIZED)
  | some (_, prior) =>
      Exec.lift (reject (prior.commandId ≠ result.commandId) RESULT_NOT_RECOGNIZED)
      if configuration.failVerification || configuration.staleWrites then return false
      match command.kind with
      | .markWatched => return command.episodeId ∈ state.watchedEpisodeIds
      | .setFavorite =>
          return some (decide (command.episodeId ∈ state.favoriteEpisodeIds)) = command.favorite
      | .createPlaylist =>
          return state.playlists.get? (command.playlistName.getD "") = some command.episodeIds
      | .requestPlayback =>
          return (command.commandId, command.episodeId) ∈ state.playbackRequests

def outside (change : Change) (self : State) : State :=
  match change with
  | .setAvailable available => { self with available := available }
  | .advanceConnectionRevision revision _ => { self with connectionRevision := revision }

/-- The mock provider; the world has nothing to answer it. -/
def provider : MediaProvider State Unit Change where
  connectionRevision _ := connectionRevision
  execute _ := execute configuration
  verify _ := verify configuration
  outside := outside
  effects := State.applied

end MockMediaProvider

end Cinegraph.MediaActions
