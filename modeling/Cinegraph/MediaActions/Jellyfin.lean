import Cinegraph.MediaActions.Mock

/-!
The Jellyfin provider. The world answers every attempt of a request, whether or not the server
took its effect; an execution is remembered only once its request was answered.
-/

namespace Cinegraph.MediaActions.JellyfinMediaProvider

open Library MediaActionErrorMessages MediaProviderErrorMessages

structure JellyfinConnectionSettings where
  connectionId : UUID
  profileId : UUID
  baseUrl : String
  userId : String
  playbackSessionId : Option String
  episodeMappings : List (UUID × String)

structure JellyfinProviderConfiguration where
  maximumAttempts : Nat
  retryableStatusCodes : List Nat
  circuitFailureThreshold : Nat
  circuitRecoverySeconds : ℚ
  attempts_positive : 1 ≤ maximumAttempts
  codes_nonempty : retryableStatusCodes ≠ []
  threshold_positive : 1 ≤ circuitFailureThreshold
  recovery_positive : 0 < circuitRecoverySeconds

/-- What the client sees of an attempt; a body that is not JSON is none. -/
inductive Answer where
  | requestError
  | response (statusCode : Nat) (body : Option Json)

/-- An attempt: what the client sees of it, whether the server took its effect, and whether the
flag that a command sets had its value already. -/
structure Attempt where
  answer : Answer
  applied : Bool
  alreadySet : Bool

/-- The effect of an attempt is visible where it changes the server. -/
def Attempt.visible (kind : MediaCommandKind) (attempt : Attempt) : Bool :=
  match kind with
  | .markWatched | .setFavorite => attempt.applied && !attempt.alreadySet
  | .createPlaylist | .requestPlayback => attempt.applied

/-- What the world answers a request: the clock where the circuit is checked and where a failure
is recorded, and the attempts. -/
structure Exchange where
  now : ℚ
  attempts : Nat → Attempt
  failedAt : ℚ

/-- The exchanges of a call: for the system information, then for the request itself. -/
structure Environment where
  info : Exchange
  request : Exchange

structure State where
  executions : Executions
  verifiedPlaybackRequests : List (UUID × UUID)
  consecutiveFailures : Nat
  circuitOpenUntil : ℚ
  lastRevision : String
  server : List MediaCommand

/-- Requests of other callers move the circuit. -/
structure Change where
  consecutiveFailures : Nat
  circuitOpenUntil : ℚ
  lastRevision : String

variable (connection : JellyfinConnectionSettings) (configuration : JellyfinProviderConfiguration)

inductive Outcome where
  | answered (body : Option Json)
  | refused (error : Raised)
  | exhausted

/-- The attempts of a request from one on, and how many were made in all. -/
def outcomeFrom (exchange : Exchange) : (remaining attempt : Nat) → Outcome × Nat
  | 0, attempt => (.exhausted, attempt)
  | remaining + 1, attempt =>
      match (exchange.attempts attempt).answer with
      | .requestError => outcomeFrom exchange remaining (attempt + 1)
      | .response statusCode body =>
          if statusCode = 401 ∨ statusCode = 403 then
            (.refused ⟨.permissionError, PROVIDER_AUTHENTICATION_FAILED⟩, attempt + 1)
          else if statusCode ∈ configuration.retryableStatusCodes then
            outcomeFrom exchange remaining (attempt + 1)
          else if 400 ≤ statusCode ∧ statusCode ≤ 599 then
            (.refused ⟨.runtimeError, PROVIDER_REQUEST_FAILED⟩, attempt + 1)
          else (.answered body, attempt + 1)

def maximumAttempts (retrySafe : Bool) : Nat := if retrySafe then configuration.maximumAttempts else 1

/-- Only the requests that are safe to repeat are repeated. -/
def retrySafe : MediaCommandKind → Bool
  | .markWatched | .setFavorite => true
  | .createPlaylist | .requestPlayback => false

/-- How often the request of a command takes a visible effect. -/
def visibleEffects (kind : MediaCommandKind) (exchange : Exchange) : Nat :=
  let (_, made) := outcomeFrom configuration exchange (maximumAttempts configuration (retrySafe kind)) 0
  (List.range made).countP fun attempt => (exchange.attempts attempt).visible kind

def recordTransientFailure (failedAt : ℚ) (self : State) : State :=
  let failures := self.consecutiveFailures + 1
  { self with
    consecutiveFailures := failures
    circuitOpenUntil :=
      if configuration.circuitFailureThreshold ≤ failures then
        failedAt + configuration.circuitRecoverySeconds
      else self.circuitOpenUntil }

/-- `_request`, where the attempts leave `effects` at the server. -/
def request (exchange : Exchange) (retrySafe : Bool) (effects : List MediaCommand) :
    Exec State Raised (Option Json) := do
  let self ← get
  if exchange.now < self.circuitOpenUntil then throw ⟨.connectionError, PROVIDER_CIRCUIT_OPEN⟩
  modify fun self => { self with server := effects ++ self.server }
  match (outcomeFrom configuration exchange (maximumAttempts configuration retrySafe) 0).1 with
  | .answered body =>
      modify fun self => { self with consecutiveFailures := 0 }
      return body
  | .refused error => throw error
  | .exhausted =>
      modify (recordTransientFailure configuration exchange.failedAt)
      throw ⟨.connectionError, PROVIDER_REQUEST_FAILED⟩

def requestJson (exchange : Exchange) (retrySafe : Bool) (effects : List MediaCommand) :
    Exec State Raised Json := do
  let body ← request configuration exchange retrySafe effects
  match body with
  | some (.obj items) => return .obj items
  | some (.arr items) => return .arr items
  | _ => throw (valueError PROVIDER_RESPONSE_INVALID)

/-- `payload.get(key)`, which a list does not have. -/
def field (payload : Json) (key : String) : Except Raised Json :=
  match payload with
  | .obj items => .ok ((items.lookup key).getD .null)
  | _ => .error ⟨.attributeError, "'list' object has no attribute 'get'"⟩

def requiredText (payload : Json) (key : String) : Except Raised String := do
  match ← field payload key with
  | .str value => if value = "" then .error (valueError PROVIDER_RESPONSE_INVALID) else .ok value
  | _ => .error (valueError PROVIDER_RESPONSE_INVALID)

variable [Floats] [Sha256]

def payloadRevision (payload : Json) : String :=
  Sha256.hexdigest (String.ofList (Json.compactDumps payload))

def revision (serverId serverVersion : String) : String :=
  payloadRevision (.obj [
    ("base_url", .str connection.baseUrl),
    ("episode_mappings", .arr (connection.episodeMappings.map fun mapping =>
      .arr [.str mapping.1.str, .str mapping.2])),
    ("playback_session_id", match connection.playbackSessionId with
      | some session => .str session
      | none => .null),
    ("server_id", .str serverId),
    ("server_version", .str serverVersion),
    ("user_id", .str connection.userId)])

def requireConnection (connectionId : UUID) : Except Raised Unit :=
  reject (connectionId ≠ connection.connectionId) CONNECTION_NOT_FOUND

def requireProfile (profileId : UUID) : Except Raised Unit :=
  reject (profileId ≠ connection.profileId) PROFILE_NOT_AUTHORIZED .permissionError

/-- `self._mapping[episode_id].provider_item_id`: the last mapping of an episode counts. -/
def itemId? (episodeId : UUID) : Option String :=
  connection.episodeMappings.reverse.lookup episodeId

def requireCommand (command : MediaCommand) : Except Raised Unit := do
  requireConnection connection command.providerConnectionId
  requireProfile connection command.profileId
  reject (∃ episodeId ∈ command.episodeIds, itemId? connection episodeId = none) EPISODE_NOT_FOUND

def connectionRevision (exchange : Exchange) (connectionId : UUID) : Exec State Raised String := do
  Exec.lift (requireConnection connection connectionId)
  let info ← requestJson configuration exchange true []
  let serverId ← Exec.lift (requiredText info "Id")
  let serverVersion ← Exec.lift (requiredText info "Version")
  Exec.lift (discard (requiredText info "ServerName"))
  let current := revision connection serverId serverVersion
  modify fun self => { self with lastRevision := current }
  return current

/-- `_execute_once`: the reference and the payload that the revision digests. -/
def executeOnce (exchange : Exchange) (command : MediaCommand) :
    Exec State Raised MediaActionResult := do
  let itemId ← Exec.require (itemId? connection command.episodeId) ⟨.keyError, command.episodeId.str⟩
  let effects := List.replicate (visibleEffects configuration command.kind exchange) command
  let (payload, reference) ← match command.kind with
    | .markWatched | .setFavorite => do
        let payload ← requestJson configuration exchange true effects
        pure (payload, itemId)
    | .createPlaylist => do
        let payload ← requestJson configuration exchange false effects
        let reference ← Exec.lift (requiredText payload "Id")
        pure (payload, reference)
    | .requestPlayback => do
        let session ← Exec.require connection.playbackSessionId (valueError PLAYBACK_SESSION_REQUIRED)
        discard (request configuration exchange false effects)
        pure (.obj [("session_id", .str session), ("item_id", .str itemId)], session ++ ":" ++ itemId)
  return {
    commandId := command.commandId
    externalReference := reference
    providerStateRevision := payloadRevision payload
    idempotentReplay := false }

def execute (environment : Environment) (command : MediaCommand) :
    Exec State Raised MediaActionResult := do
  Exec.lift (requireCommand connection command)
  let current ← connectionRevision connection configuration environment.info
    command.providerConnectionId
  if current ≠ command.providerConnectionRevision then
    throw (valueError PROVIDER_CONNECTION_CHANGED)
  let self ← get
  match self.executions.get? command.idempotencyKey with
  | some (commandSha256, result) =>
      Exec.lift (reject (commandSha256 ≠ command.parameterSha256)
        MediaProviderErrorMessages.IDEMPOTENCY_KEY_REUSED)
      return { result with idempotentReplay := true }
  | none =>
      let result ← executeOnce connection configuration environment.request command
      modify fun self => { self with
        executions := self.executions.set command.idempotencyKey (command.parameterSha256, result) }
      return result

/-- `_items` -/
def itemsOf (payload : Json) : Except Raised (List Json) :=
  match payload with
  | .obj fields =>
      match fields.lookup "Items" with
      | some (.arr items) =>
          if items.all fun item => match item with
            | .obj _ => true
            | _ => false
          then .ok items
          else .error (valueError PROVIDER_RESPONSE_INVALID)
      | _ => .error (valueError PROVIDER_RESPONSE_INVALID)
  | _ => .error (valueError PROVIDER_RESPONSE_INVALID)

/-- `self._reverse_mapping[item_id].episode_id` -/
def episodeOf? (itemId : String) : Option UUID :=
  (connection.episodeMappings.reverse.find? fun mapping => mapping.2 = itemId).map Prod.fst

/-- `_canonical_ids` -/
def canonicalIds (payload : Json) : Except Raised (List UUID) := do
  let items ← itemsOf payload
  let providerIds ← items.mapM fun item => requiredText item "Id"
  return (providerIds.mapM (episodeOf? connection)).getD []

/-- `_verify_playback` on the sessions that the server reports. -/
def playsItem (session itemId : String) (payload : Json) : Bool :=
  match payload with
  | .arr sessions => sessions.any fun entry =>
      match entry with
      | .obj fields =>
          fields.lookup "Id" = some (.str session) &&
            match fields.lookup "NowPlayingItem" with
            | some (.obj item) => item.lookup "Id" = some (.str itemId)
            | _ => false
      | _ => false
  | _ => false

def verify (environment : Environment) (command : MediaCommand) (result : MediaActionResult) :
    Exec State Raised Bool := do
  Exec.lift (requireCommand connection command)
  let self ← get
  Exec.lift (reject ((self.executions.get? command.idempotencyKey).map Prod.snd ≠ some result)
    RESULT_NOT_RECOGNIZED)
  let itemId ← Exec.require (itemId? connection command.episodeId) ⟨.keyError, command.episodeId.str⟩
  match command.kind with
  | .markWatched => do
      let data ← requestJson configuration environment.request true []
      let played ← Exec.lift (field data "Played")
      return played = .bool true
  | .setFavorite => do
      let data ← requestJson configuration environment.request true []
      let favorite ← Exec.lift (field data "IsFavorite")
      return command.favorite.map Json.bool = some favorite
  | .createPlaylist => do
      let payload ← requestJson configuration environment.request true []
      let episodeIds ← Exec.lift (canonicalIds connection payload)
      return episodeIds = command.episodeIds
  | .requestPlayback =>
      match connection.playbackSessionId with
      | none => return false
      | some session => do
          let payload ← requestJson configuration environment.request true []
          let verified := playsItem session itemId payload
          if verified && !self.verifiedPlaybackRequests.any (·.1 = command.commandId) then
            modify fun self => { self with
              verifiedPlaybackRequests :=
                self.verifiedPlaybackRequests ++ [(command.commandId, command.episodeId)] }
          return verified

def outside (change : Change) (self : State) : State :=
  { self with
    consecutiveFailures := change.consecutiveFailures
    circuitOpenUntil := change.circuitOpenUntil
    lastRevision := change.lastRevision }

def provider : MediaProvider State Environment Change where
  connectionRevision environment := connectionRevision connection configuration environment.info
  execute := execute connection configuration
  verify := verify connection configuration
  outside := outside
  effects := State.server

/-- A provider that has executed nothing. -/
def start : State where
  executions := .empty
  verifiedPlaybackRequests := []
  consecutiveFailures := 0
  circuitOpenUntil := 0
  lastRevision := "jellyfin-unavailable"
  server := []

end Cinegraph.MediaActions.JellyfinMediaProvider
