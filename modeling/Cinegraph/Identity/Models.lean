import Cinegraph.Common.Hashing
import Cinegraph.Domain.Episode
import Cinegraph.Library.Text

/-!
Accounts, principals and sessions. A structure carries what its constructor checks.
-/

namespace Cinegraph.Identity

open Library

namespace AuthenticationErrorMessages

def EMAIL_ADDRESS_MUST_BE_VALID := "Email address must be valid."
def DISPLAY_NAME_MUST_BE_TRIMMED := "Display name must be non-empty and trimmed."
def PASSWORD_LENGTH_MUST_BE_VALID := "Password length must satisfy the configured bounds."
def PASSWORD_HASH_MUST_BE_VALID := "Stored password hash must be valid."
def SESSION_TOKEN_DIGEST_MUST_BE_VALID := "Session token digest must be valid SHA-256."
def SESSION_EXPIRY_MUST_FOLLOW_CREATION := "Session expiry must follow creation time."
def SESSION_REVOCATION_MUST_NOT_PREDATE_CREATION :=
  "Session revocation must not predate creation."
def EMAIL_ALREADY_REGISTERED := "An account with this email address already exists."
def INVALID_CREDENTIALS := "Email address or password is invalid."
def ACCOUNT_DISABLED := "This account is disabled."
def SESSION_INVALID := "Session is invalid or expired."
def ACCOUNT_REQUIRED := "An authenticated account is required."
def PASSWORD_MUST_DIFFER := "New password must differ from the current password."

end AuthenticationErrorMessages

open AuthenticationErrorMessages

/-- What accounts and sessions read of the configuration; `emailPattern` is what `re.fullmatch`
decides with the configured pattern. -/
structure AuthenticationConfiguration where
  minimumPasswordLength : Nat
  maximumPasswordLength : Nat
  authenticatedSessionTtl : Int
  guestSessionTtl : Int
  emailPattern : String → Bool
  minimumEmailLength : Nat := 3
  maximumEmailLength : Nat := 320
  minimumDisplayNameLength : Nat := 1
  maximumDisplayNameLength : Nat := 100
  maximumActiveAuthenticatedSessions : Nat := 5
  password_bounds : 1 ≤ minimumPasswordLength ∧ minimumPasswordLength ≤ maximumPasswordLength
  email_bounds : 1 ≤ minimumEmailLength ∧ minimumEmailLength ≤ maximumEmailLength
  display_name_bounds :
    1 ≤ minimumDisplayNameLength ∧ minimumDisplayNameLength ≤ maximumDisplayNameLength
  sessions_positive : 1 ≤ maximumActiveAuthenticatedSessions

/-- `re.fullmatch(r"^[^\s@]+@[^\s@]+\.[^\s@]+$", text)` -/
def defaultEmailPattern (text : String) : Bool :=
  let plain (part : List Char) := part.all fun c => !Text.isSpace c && c != '@'
  let name := text.toList.takeWhile (· != '@')
  let domain := (text.toList.dropWhile (· != '@')).drop 1
  name ≠ [] ∧ plain name ∧ plain domain ∧ (domain.drop 1).dropLast.contains '.'

def DEFAULT_AUTHENTICATION_CONFIGURATION : AuthenticationConfiguration where
  minimumPasswordLength := 12
  maximumPasswordLength := 1024
  authenticatedSessionTtl := 14 * 24 * 3600 * 1000000
  guestSessionTtl := 8 * 3600 * 1000000
  emailPattern := defaultEmailPattern
  password_bounds := by decide
  email_bounds := by decide
  display_name_bounds := by decide
  sessions_positive := by decide

namespace AuthenticationConfiguration

variable (configuration : AuthenticationConfiguration)

def emailMatches (normalized : String) : Bool :=
  configuration.minimumEmailLength ≤ normalized.toList.length ∧
    normalized.toList.length ≤ configuration.maximumEmailLength ∧
    configuration.emailPattern normalized

def displayNameMatches (value : String) : Bool :=
  Text.strip value = value ∧ configuration.minimumDisplayNameLength ≤ value.toList.length ∧
    value.toList.length ≤ configuration.maximumDisplayNameLength

def passwordMatches (minimum : Nat) (value : String) : Bool :=
  minimum ≤ value.toList.length ∧ value.toList.length ≤ configuration.maximumPasswordLength

end AuthenticationConfiguration

inductive PrincipalKind where
  | guest
  | authenticated
  deriving DecidableEq, Repr

inductive AccountStatus where
  | active
  | disabled
  deriving DecidableEq, Repr

/-- What the constructor of a principal requires of its fields. -/
def SessionPrincipal.Matches (kind : PrincipalKind) (scope : CorpusAccessScope)
    (userId : Option UUID) : Prop :=
  (kind = .guest ∧ userId = none ∧ scope.mode = .guest) ∨
    (kind = .authenticated ∧ userId ≠ none ∧ scope.mode = .authenticated)

structure SessionPrincipal where
  kind : PrincipalKind
  profileId : UUID
  corpusAccessScope : CorpusAccessScope
  userId : Option UUID
  valid : SessionPrincipal.Matches kind corpusAccessScope userId
  deriving DecidableEq

/-- The seasons of `DEFAULT_GUEST_ACCESS_CONFIGURATION`. -/
def defaultGuestSeasons : Finset CorpusSeasonAccess :=
  {⟨⟨0x11⟩, 1, by decide⟩, ⟨⟨0x11⟩, 2, by decide⟩}

/-- `DEFAULT_GUEST_CORPUS_ACCESS_SCOPE` -/
def defaultGuestCorpusAccessScope : CorpusAccessScope where
  mode := .guest
  revision := "guest-modern-family-s01-s02-v1"
  allowedSeasons := defaultGuestSeasons
  unrestricted := false
  revision_trimmed := by decide +kernel
  guest_restricted := by decide
  guest_seasons := by decide

/-- `DEFAULT_AUTHENTICATED_CORPUS_ACCESS_SCOPE` -/
def defaultAuthenticatedCorpusAccessScope : CorpusAccessScope where
  mode := .authenticated
  revision := "authenticated-session-v1"
  allowedSeasons := ∅
  unrestricted := true
  revision_trimmed := by decide +kernel
  guest_restricted := by decide
  guest_seasons := by decide

/-- The principal of a signed-in account. -/
def SessionPrincipal.authenticated (profileId userId : UUID) : SessionPrincipal where
  kind := .authenticated
  profileId := profileId
  corpusAccessScope := defaultAuthenticatedCorpusAccessScope
  userId := some userId
  valid := .inr ⟨rfl, Option.some_ne_none userId, rfl⟩

/-- The principal of a visitor. -/
def SessionPrincipal.guest (profileId : UUID) : SessionPrincipal where
  kind := .guest
  profileId := profileId
  corpusAccessScope := defaultGuestCorpusAccessScope
  userId := none
  valid := .inl ⟨rfl, rfl, rfl⟩

/-- `_scope_matches_policy` -/
def SessionPrincipal.scopeMatchesPolicy (principal : SessionPrincipal) : Bool :=
  match principal.kind with
  | .guest => principal.corpusAccessScope = defaultGuestCorpusAccessScope
  | .authenticated => principal.corpusAccessScope = defaultAuthenticatedCorpusAccessScope

structure SessionRecord where
  sessionId : UUID
  tokenSha256 : String
  principal : SessionPrincipal
  createdAt : DateTime
  expiresAt : DateTime
  revokedAt : Option DateTime
  digest : isDigest tokenSha256 = true
  expires_later : createdAt < expiresAt
  revoked_later : ∀ revoked ∈ revokedAt, createdAt ≤ revoked
  deriving DecidableEq

namespace SessionRecord

/-- The constructor. -/
def make (sessionId : UUID) (tokenSha256 : String) (principal : SessionPrincipal)
    (createdAt expiresAt : DateTime) : Except Raised SessionRecord :=
  if digest : isDigest tokenSha256 = true then
    if later : createdAt < expiresAt then
      .ok {
        sessionId := sessionId
        tokenSha256 := tokenSha256
        principal := principal
        createdAt := createdAt
        expiresAt := expiresAt
        revokedAt := none
        digest := digest
        expires_later := later
        revoked_later := fun _ absent => nomatch absent }
    else .error ⟨.invalidModel, SESSION_EXPIRY_MUST_FOLLOW_CREATION⟩
  else .error ⟨.invalidModel, SESSION_TOKEN_DIGEST_MUST_BE_VALID⟩

/-- `replace(self, revoked_at=revoked_at)`, which runs the checks of the constructor again. -/
def revoke (session : SessionRecord) (revokedAt : DateTime) : Except Raised SessionRecord :=
  if later : session.createdAt ≤ revokedAt then
    .ok { session with
      revokedAt := some revokedAt
      revoked_later := by
        intro revoked found
        cases found
        exact later }
  else .error ⟨.invalidModel, SESSION_REVOCATION_MUST_NOT_PREDATE_CREATION⟩

/-- `_is_active` -/
def isActive (session : SessionRecord) (now : DateTime) : Bool :=
  session.revokedAt = none ∧ now < session.expiresAt

end SessionRecord

def UserAccount.emailValid (email : String) : Bool :=
  Text.casefold email = email ∧ DEFAULT_AUTHENTICATION_CONFIGURATION.emailMatches email

def UserAccount.displayNameValid (displayName : String) : Bool :=
  displayName ≠ "" ∧ DEFAULT_AUTHENTICATION_CONFIGURATION.displayNameMatches displayName

def UserAccount.passwordHashValid (passwordHash : String) : Bool :=
  passwordHash ≠ "" ∧ Text.strip passwordHash = passwordHash

structure UserAccount where
  userId : UUID
  profileId : UUID
  email : String
  displayName : String
  passwordHash : String
  status : AccountStatus
  createdAt : DateTime
  email_valid : UserAccount.emailValid email = true
  display_name_valid : UserAccount.displayNameValid displayName = true
  password_hash_valid : UserAccount.passwordHashValid passwordHash = true
  deriving DecidableEq

namespace UserAccount

/-- The constructor. -/
def make (userId profileId : UUID) (email displayName passwordHash : String)
    (status : AccountStatus) (createdAt : DateTime) : Except Raised UserAccount :=
  if email_valid : emailValid email = true then
    if display_name_valid : displayNameValid displayName = true then
      if password_hash_valid : passwordHashValid passwordHash = true then
        .ok { userId, profileId, email, displayName, passwordHash, status, createdAt, email_valid,
              display_name_valid, password_hash_valid }
      else .error ⟨.invalidModel, PASSWORD_HASH_MUST_BE_VALID⟩
    else .error ⟨.invalidModel, DISPLAY_NAME_MUST_BE_TRIMMED⟩
  else .error ⟨.invalidModel, EMAIL_ADDRESS_MUST_BE_VALID⟩

def withDisplayName (account : UserAccount) (displayName : String) : Except Raised UserAccount :=
  if valid : displayNameValid displayName = true then
    .ok { account with displayName := displayName, display_name_valid := valid }
  else .error ⟨.invalidModel, DISPLAY_NAME_MUST_BE_TRIMMED⟩

def withPasswordHash (account : UserAccount) (passwordHash : String) : Except Raised UserAccount :=
  if valid : passwordHashValid passwordHash = true then
    .ok { account with passwordHash := passwordHash, password_hash_valid := valid }
  else .error ⟨.invalidModel, PASSWORD_HASH_MUST_BE_VALID⟩

/-- What the two updates leave as it is. -/
structure SameOwner (before after : UserAccount) : Prop where
  userId : after.userId = before.userId
  profileId : after.profileId = before.profileId
  email : after.email = before.email
  status : after.status = before.status

theorem withDisplayName_owner {account updated : UserAccount} {displayName : String}
    (ok : account.withDisplayName displayName = .ok updated) : SameOwner account updated := by
  unfold withDisplayName at ok
  split at ok
  · cases ok
    exact ⟨rfl, rfl, rfl, rfl⟩
  · cases ok

theorem withPasswordHash_owner {account updated : UserAccount} {passwordHash : String}
    (ok : account.withPasswordHash passwordHash = .ok updated) : SameOwner account updated := by
  unfold withPasswordHash at ok
  split at ok
  · cases ok
    exact ⟨rfl, rfl, rfl, rfl⟩
  · cases ok

end UserAccount

end Cinegraph.Identity
