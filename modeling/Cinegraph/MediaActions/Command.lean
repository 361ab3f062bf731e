import Cinegraph.Common.Hashing
import Cinegraph.Identity.Models
import Cinegraph.Library.Blocks
import Cinegraph.Library.CompactJson

/-!
Media commands, the approvals that bind them by their digest, and who may propose them.
-/

namespace Cinegraph.MediaActions

open Library Identity

namespace MediaActionErrorMessages

def AUTHENTICATED_PRINCIPAL_REQUIRED := "Media actions require an authenticated principal."
def PRINCIPAL_MUST_OWN_PROFILE := "Media action principal must own the target profile."
def PRINCIPAL_MUST_OWN_PROVIDER := "Media action principal must own the provider connection."
def PROVIDER_VERIFICATION_FAILED := "Media provider action could not be verified."
def COMMAND_KIND_NOT_ALLOWED := "Media command kind is not allowed."
def PROVIDER_CONNECTION_CHANGED := "Provider connection changed after the command was prepared."
def APPROVAL_NOT_FOUND := "Media action approval was not found."
def APPROVAL_EXPIRED := "Media action approval has expired."
def APPROVAL_COMMAND_MISMATCH := "Approval applies only to the exact previewed command."
def APPROVAL_TRANSITION_INVALID := "Media action approval transition is invalid."
def IDEMPOTENCY_KEY_REUSED := "Media action idempotency key was reused for a different command."

end MediaActionErrorMessages

open MediaActionErrorMessages

inductive MediaCommandKind where
  | markWatched
  | setFavorite
  | createPlaylist
  | requestPlayback
  deriving DecidableEq, Repr

def MediaCommandKind.value : MediaCommandKind → String
  | .markWatched => "mark_watched"
  | .setFavorite => "set_favorite"
  | .createPlaylist => "create_playlist"
  | .requestPlayback => "request_playback"

/-- A digest is not empty and has no white space. -/
theorem trimmed_of_isDigest {text : String} (digest : isDigest text = true) : Trimmed text := by
  simp only [isDigest, List.all_eq_true, List.contains_iff_mem, decide_eq_true_eq] at digest
  obtain ⟨length, shaped⟩ := digest
  have solid : ∀ c ∈ text.toList, Text.isSpace c = false := by
    have all : UUID.hexChars.all (fun c => !Text.isSpace c) = true := by decide
    simp only [List.all_eq_true, Bool.not_eq_true'] at all
    exact fun c member => all c (shaped c member)
  constructor
  · rintro rfl
    cases length
  · rw [Text.strip, stripChars_eq_self.mpr, String.ofList_toList]
    exact ⟨fun c first => solid c (List.mem_of_mem_head? first),
      fun c last => solid c (List.mem_of_mem_getLast? last)⟩

/-- `_validate_kind_parameters`, with the limits of the default configuration. -/
def ParametersMatch (kind : MediaCommandKind) (episodeIds : List UUID)
    (playlistName : Option String) (favorite : Option Bool) : Prop :=
  match kind with
  | .markWatched | .requestPlayback =>
      episodeIds.length = 1 ∧ favorite = none ∧ playlistName = none
  | .setFavorite => episodeIds.length = 1 ∧ favorite ≠ none ∧ playlistName = none
  | .createPlaylist =>
      favorite = none ∧ (∃ name ∈ playlistName, Trimmed name ∧ name.length ≤ 120) ∧
        episodeIds.length ≤ 100

structure MediaCommand where
  commandId : UUID
  kind : MediaCommandKind
  profileId : UUID
  providerConnectionId : UUID
  providerOwnerUserId : UUID
  providerConnectionRevision : String
  idempotencyKey : String
  episodeIds : List UUID
  playlistName : Option String
  favorite : Option Bool
  revision_trimmed : Trimmed providerConnectionRevision
  key_trimmed : Trimmed idempotencyKey ∧ idempotencyKey.length ≤ 200
  episodes_unique : episodeIds ≠ [] ∧ episodeIds.Nodup
  parameters : ParametersMatch kind episodeIds playlistName favorite

namespace MediaCommand

/-- `episode_ids[0]` -/
def episodeId (command : MediaCommand) : UUID :=
  command.episodeIds.head command.episodes_unique.1

/-- The JSON value that `parameter_sha256` digests. -/
def payload (command : MediaCommand) : Json :=
  .obj [
    ("command_id", .str command.commandId.str),
    ("episode_ids", .arr (command.episodeIds.map fun value => .str value.str)),
    ("favorite", match command.favorite with
      | some favorite => .bool favorite
      | none => .null),
    ("idempotency_key", .str command.idempotencyKey),
    ("kind", .str command.kind.value),
    ("playlist_name", match command.playlistName with
      | some name => .str name
      | none => .null),
    ("profile_id", .str command.profileId.str),
    ("provider_connection_id", .str command.providerConnectionId.str),
    ("provider_connection_revision", .str command.providerConnectionRevision),
    ("provider_owner_user_id", .str command.providerOwnerUserId.str)]

/-- `parameter_sha256` -/
def parameterSha256 [Floats] [Sha256] (command : MediaCommand) : String :=
  Sha256.hexdigest (String.ofList (Json.compactDumps command.payload))

/-- `preview` -/
def preview (command : MediaCommand) : String :=
  match command.kind with
  | .markWatched => "Mark episode " ++ command.episodeId.str ++ " watched."
  | .setFavorite =>
      let action := if command.favorite = some true then "Favorite" else "Unfavorite"
      action ++ " episode " ++ command.episodeId.str ++ "."
  | .requestPlayback => "Request playback for episode " ++ command.episodeId.str ++ "."
  | .createPlaylist =>
      "Create playlist '" ++ command.playlistName.getD "None" ++ "' with " ++
        String.ofList (decimal command.episodeIds.length) ++ " episodes."

end MediaCommand

/-! ### Approvals -/

inductive ApprovalStatus where
  | pending
  | approved
  | rejected
  | executed
  | verified
  deriving DecidableEq, Repr

structure ApprovalRequest where
  approvalId : UUID
  commandId : UUID
  commandSha256 : String
  idempotencyKey : String
  principalUserId : UUID
  profileId : UUID
  providerConnectionId : UUID
  providerConnectionRevision : String
  preview : String
  status : ApprovalStatus
  createdAt : DateTime
  expiresAt : DateTime
  decidedAt : Option DateTime
  executedAt : Option DateTime
  verifiedAt : Option DateTime
  expires_later : createdAt < expiresAt

instance : DecidableEq ApprovalRequest := fun a b =>
  decidable_of_iff (a.approvalId = b.approvalId ∧ a.commandId = b.commandId ∧
    a.commandSha256 = b.commandSha256 ∧ a.idempotencyKey = b.idempotencyKey ∧
    a.principalUserId = b.principalUserId ∧ a.profileId = b.profileId ∧
    a.providerConnectionId = b.providerConnectionId ∧
    a.providerConnectionRevision = b.providerConnectionRevision ∧ a.preview = b.preview ∧
    a.status = b.status ∧ a.createdAt = b.createdAt ∧ a.expiresAt = b.expiresAt ∧
    a.decidedAt = b.decidedAt ∧ a.executedAt = b.executedAt ∧ a.verifiedAt = b.verifiedAt) (by
    cases a
    cases b
    simp)

namespace ApprovalRequest

/-- The error of a transition that the status does not allow. -/
def transitionInvalid : Raised := ⟨.invalidModel, APPROVAL_TRANSITION_INVALID⟩

def decide (approval : ApprovalRequest) (approved : Bool) (occurredAt : DateTime) :
    Except Raised ApprovalRequest :=
  if approval.status ≠ .pending ∨ approval.expiresAt < occurredAt then .error transitionInvalid
  else .ok { approval with
    status := if approved then .approved else .rejected
    decidedAt := some occurredAt }

def markExecuted (approval : ApprovalRequest) (occurredAt : DateTime) :
    Except Raised ApprovalRequest :=
  if approval.status ≠ .approved then .error transitionInvalid
  else .ok { approval with status := .executed, executedAt := some occurredAt }

def markVerified (approval : ApprovalRequest) (occurredAt : DateTime) :
    Except Raised ApprovalRequest :=
  if approval.status ≠ .executed then .error transitionInvalid
  else .ok { approval with status := .verified, verifiedAt := some occurredAt }

variable {approval next : ApprovalRequest} {occurredAt : DateTime}

theorem decide_ok {approved : Bool} (h : approval.decide approved occurredAt = .ok next) :
    approval.status = .pending ∧ next.approvalId = approval.approvalId ∧
      next.commandSha256 = approval.commandSha256 ∧
      next.status = if approved then .approved else .rejected := by
  unfold decide at h
  split at h
  · cases h
  · rename_i allowed
    cases h
    rw [not_or, not_not] at allowed
    exact ⟨allowed.1, rfl, rfl, rfl⟩

theorem markExecuted_ok (h : approval.markExecuted occurredAt = .ok next) :
    next.approvalId = approval.approvalId ∧ next.commandSha256 = approval.commandSha256 ∧
      next.status = .executed := by
  unfold markExecuted at h
  split at h
  · cases h
  · cases h
    exact ⟨rfl, rfl, rfl⟩

theorem markVerified_ok (h : approval.markVerified occurredAt = .ok next) :
    next.approvalId = approval.approvalId ∧ next.commandSha256 = approval.commandSha256 ∧
      next.status = .verified := by
  unfold markVerified at h
  split at h
  · cases h
  · cases h
    exact ⟨rfl, rfl, rfl⟩

end ApprovalRequest

/-! ### Authorization -/

/-- The configuration of media actions, with what its constructor checks. -/
structure MediaActionConfiguration where
  approvalTtl : Int
  permittedCommandKinds : List MediaCommandKind
  ttl_positive : 0 < approvalTtl
  kinds_nonempty : permittedCommandKinds ≠ []

/-- `ToolAuthorizationPolicy.require_authorized` -/
def requireAuthorized (configuration : MediaActionConfiguration) (principal : SessionPrincipal)
    (command : MediaCommand) : Except Raised Unit := do
  reject (principal.kind ≠ .authenticated ∨ principal.userId = none)
    AUTHENTICATED_PRINCIPAL_REQUIRED .permissionError
  reject (principal.profileId ≠ command.profileId) PRINCIPAL_MUST_OWN_PROFILE .permissionError
  reject (principal.userId ≠ some command.providerOwnerUserId) PRINCIPAL_MUST_OWN_PROVIDER
    .permissionError
  reject (command.kind ∉ configuration.permittedCommandKinds) COMMAND_KIND_NOT_ALLOWED
    .permissionError

end Cinegraph.MediaActions
