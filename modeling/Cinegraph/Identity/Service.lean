import Cinegraph.Identity.UnitOfWork
import Cinegraph.Library.Run

/-!
The account and session service as interleaved calls. A call is cut into its units of work, each
of which is atomic; time passes between them, and within those that read the clock twice.
-/

namespace Cinegraph.Identity

open Library AuthenticationErrorMessages
open Transaction (commit write)
open Exec (raiseIf)

structure RegisterAccountCommand where
  email : String
  password : String
  displayName : String
  currentSessionToken : Option String := none

structure AuthenticateAccountCommand where
  email : String
  password : String
  currentSessionToken : Option String := none

structure ChangePasswordCommand where
  currentPassword : String
  newPassword : String

structure SessionGrant where
  token : String
  principal : SessionPrincipal
  expiresAt : DateTime
  account : Option UserAccount
  deriving DecidableEq

structure AccountSummary where
  userId : UUID
  profileId : UUID
  email : String
  displayName : String
  status : AccountStatus
  createdAt : DateTime
  deriving DecidableEq

/-- What the generators of identifiers, of tokens and of password hashes give to one step. -/
structure Generated where
  userId : UUID
  profileId : UUID
  sessionId : UUID
  token : String
  passwordHash : String

/-- Who presented a token: an account. -/
structure Caller where
  token : String
  principal : SessionPrincipal
  userId : UUID
  owner : principal.userId = some userId
  deriving DecidableEq

inductive Outcome where
  | granted (grant : SessionGrant)
  | summary (account : AccountSummary)
  | revoked (changed : Bool)
  | done
  deriving DecidableEq

/-- A call between two of its units of work, or at its end. -/
inductive Call where
  | registering (account : UserAccount) (currentSessionToken : Option String) (now : DateTime)
  | authenticating (account : UserAccount) (command : AuthenticateAccountCommand)
  | awaitingClock
  | issuingGuest (now : DateTime)
  | updatingDisplayName (caller : Caller) (displayName : String)
  | changingPassword (caller : Caller) (command : ChangePasswordCommand)
  | revokingSession (caller : Caller) (sessionId : UUID)
  | revokingAll (caller : Caller)
  | finished (result : Except Raised Outcome)

/-- The collaborators of the service, as far as they are functions. -/
structure IdentitySessionService where
  configuration : AuthenticationConfiguration
  verifyPassword : String → String → Bool
  dummyPasswordHash : String

namespace IdentitySessionService

/-- `_token_digest` -/
def tokenDigest [Sha256] (token : String) : Except Raised String :=
  if token = "" ∨ Text.strip token ≠ token then .error sessionInvalid
  else .ok (Sha256.hexdigest token)

def accountSummary (account : UserAccount) : AccountSummary where
  userId := account.userId
  profileId := account.profileId
  email := account.email
  displayName := account.displayName
  status := account.status
  createdAt := account.createdAt

section Parts

variable [Sha256] (service : IdentitySessionService)

/-- `_normalize_email` -/
def normalizeEmail (value : String) : Except Raised String := do
  let normalized := Text.casefold (Text.strip value)
  reject (¬service.configuration.emailMatches normalized) EMAIL_ADDRESS_MUST_BE_VALID
  return normalized

/-- `_validate_password` -/
def validatePassword (value : String) (minimum : Nat) : Except Raised Unit :=
  reject (¬service.configuration.passwordMatches minimum value) PASSWORD_LENGTH_MUST_BE_VALID

/-- `_validate_display_name` -/
def validateDisplayName (value : String) : Except Raised Unit :=
  reject (¬service.configuration.displayNameMatches value) DISPLAY_NAME_MUST_BE_TRIMMED

/-- `_issue` -/
def issue (principal : SessionPrincipal) (createdAt expiresAt : DateTime)
    (account : Option UserAccount) (generated : Generated) : UnitOfWork SessionGrant := do
  let digest ← Exec.lift (tokenDigest generated.token)
  let session ← Exec.lift
    (SessionRecord.make generated.sessionId digest principal createdAt expiresAt)
  SessionRepository.save session
  write fun s => s.record (.issued digest)
  return { token := generated.token, principal, expiresAt, account }

/-- An account that is there, of the profile, and active. -/
def requireActiveAccount (userId profileId : UUID) : UnitOfWork UserAccount := do
  match ← UserAccountRepository.getByUserId userId with
  | none => throw sessionInvalid
  | some account =>
      raiseIf (account.profileId ≠ profileId ∨ account.status ≠ .active) sessionInvalid
      return account

/-- `_issue_authenticated` -/
def issueAuthenticated (owner : UserAccount) (now : DateTime) (generated : Generated) :
    UnitOfWork SessionGrant := do
  let account ← requireActiveAccount owner.userId owner.profileId
  let active ← SessionRepository.listActiveForUser account.userId account.profileId now none
  SessionRepository.revokeEach now
    (active.drop (service.configuration.maximumActiveAuthenticatedSessions - 1))
  issue (.authenticated account.profileId account.userId) now
    (now.add service.configuration.authenticatedSessionTtl) (some account) generated

/-- `_issue_guest` -/
def issueGuest (now : DateTime) (generated : Generated) : UnitOfWork SessionGrant :=
  issue (.guest generated.profileId) now (now.add service.configuration.guestSessionTtl) none
    generated

/-- `_revoke_current_if_valid` -/
def revokeCurrentIfValid (token : Option String) (now : DateTime) : UnitOfWork Unit := do
  match token.map tokenDigest with
  | none | some (.error _) => return
  | some (.ok digest) =>
      match ← SessionRepository.getByTokenSha256 digest with
      | none => return
      | some session =>
          if session.isActive now then
            SessionRepository.save (← Exec.lift (session.revoke now))

/-- `_require_active_presented_session` -/
def requireActivePresentedSession (caller : Caller) (now : DateTime) : UnitOfWork Unit := do
  let digest ← Exec.lift (tokenDigest caller.token)
  match ← SessionRepository.getByTokenSha256 digest with
  | none => throw sessionInvalid
  | some session =>
      raiseIf (¬session.isActive now ∨ session.principal ≠ caller.principal ∨
        ¬session.principal.scopeMatchesPolicy) sessionInvalid

/-- The check of a password against the stored account. -/
def requireCredentials (password : String) (account : UserAccount) : UnitOfWork Unit := do
  raiseIf (¬service.verifyPassword password account.passwordHash)
    ⟨.invalidCredentials, INVALID_CREDENTIALS⟩
  write fun s => s.record (.verified account.userId)

def resolveGrant (token : String) (now : DateTime) : UnitOfWork SessionGrant := do
  let digest ← Exec.lift (tokenDigest token)
  match ← SessionRepository.getByTokenSha256 digest with
  | none => throw sessionInvalid
  | some session =>
      raiseIf (¬session.isActive now ∨ ¬session.principal.scopeMatchesPolicy) sessionInvalid
      match session.principal.kind, session.principal.userId with
      | .authenticated, none => throw sessionInvalid
      | .authenticated, some userId =>
          let account ← requireActiveAccount userId session.principal.profileId
          return { token, principal := session.principal, expiresAt := session.expiresAt,
                   account := some account }
      | .guest, _ =>
          return { token, principal := session.principal, expiresAt := session.expiresAt,
                   account := none }

/-- `resolve`, and the check that an account presented the token. -/
def resolveCaller (token : String) (now : DateTime) : UnitOfWork Caller := do
  let grant ← resolveGrant token now
  raiseIf (grant.principal.kind = .guest) ⟨.accountRequired, ACCOUNT_REQUIRED⟩
  match owner : grant.principal.userId with
  | none => throw ⟨.accountRequired, ACCOUNT_REQUIRED⟩
  | some userId => return { token, principal := grant.principal, userId, owner }

end Parts

/-- The beginning of a call: all of it, or its part up to the second unit of work. -/
inductive Request where
  | register (command : RegisterAccountCommand)
  | authenticate (command : AuthenticateAccountCommand)
  | issueGuest (currentSessionToken : Option String)
  | updateDisplayName (token : String) (displayName : String)
  | changePassword (token : String) (command : ChangePasswordCommand)
  | revokeSession (token : String) (sessionId : UUID)
  | revokeAll (token : String)
  | revoke (token : String)

section Calls

variable [Sha256] (service : IdentitySessionService)

/-- `register`, up to its unit of work. -/
def beginRegister (command : RegisterAccountCommand) (now : DateTime) (generated : Generated) :
    UnitOfWork Call := do
  let email ← Exec.lift (service.normalizeEmail command.email)
  Exec.lift (service.validatePassword command.password service.configuration.minimumPasswordLength)
  Exec.lift (service.validateDisplayName command.displayName)
  let account ← Exec.lift (UserAccount.make generated.userId generated.profileId email
    command.displayName generated.passwordHash .active now)
  return .registering account command.currentSessionToken now

/-- The unit of work of `register`. -/
def register (account : UserAccount) (currentSessionToken : Option String) (now : DateTime)
    (generated : Generated) : UnitOfWork SessionGrant := do
  tryCatch (do
    let existing ← UserAccountRepository.getByEmail account.email
    raiseIf existing.isSome ⟨.emailAlreadyRegistered, EMAIL_ALREADY_REGISTERED⟩
    revokeCurrentIfValid currentSessionToken now
    UserAccountRepository.add account
    write fun s => s.record (.registered account.userId)
    let grant ← service.issueAuthenticated account now generated
    commit
    return grant) fun error => throw (
      if error.kind = .duplicateEmail then ⟨.emailAlreadyRegistered, EMAIL_ALREADY_REGISTERED⟩
      else error)

/-- `authenticate`, up to its second unit of work. -/
def beginAuthenticate (command : AuthenticateAccountCommand) : UnitOfWork Call := do
  let email ← Exec.lift (service.normalizeEmail command.email)
  Exec.lift (service.validatePassword command.password 1)
  let account ← UserAccountRepository.getByEmail email
  let passwordHash := (account.map (·.passwordHash)).getD service.dummyPasswordHash
  match account, service.verifyPassword command.password passwordHash with
  | none, _ | _, false => throw ⟨.invalidCredentials, INVALID_CREDENTIALS⟩
  | some account, true =>
      raiseIf (account.status ≠ .active) ⟨.accountDisabled, ACCOUNT_DISABLED⟩
      return .authenticating account command

/-- The second unit of work of `authenticate`. -/
def authenticate (account : UserAccount) (command : AuthenticateAccountCommand) (now : DateTime)
    (generated : Generated) : UnitOfWork SessionGrant := do
  match ← UserAccountRepository.getByUserId account.userId with
  | none => throw sessionInvalid
  | some lockedAccount =>
      raiseIf (lockedAccount.profileId ≠ account.profileId) sessionInvalid
      raiseIf (lockedAccount.status ≠ .active) ⟨.accountDisabled, ACCOUNT_DISABLED⟩
      service.requireCredentials command.password lockedAccount
      revokeCurrentIfValid command.currentSessionToken now
      let grant ← service.issueAuthenticated lockedAccount now generated
      commit
      return grant

/-- The unit of work of `issue_guest` that looks at the current session. -/
def beginGuest (currentSessionToken : Option String) (now : DateTime) (generated : Generated) :
    UnitOfWork Call := do
  match currentSessionToken with
  | none | some "" => return .awaitingClock
  | some token =>
      let digest := match tokenDigest token with
        | .ok digest => digest
        | .error _ => ""
      match ← SessionRepository.getByTokenSha256 digest with
      | none => return .awaitingClock
      | some existing =>
          match existing.isActive now, existing.principal.kind, existing.principal.userId with
          | false, _, _ => return .awaitingClock
          | true, .authenticated, none => throw sessionInvalid
          | true, .authenticated, some userId =>
              let account ← requireActiveAccount userId existing.principal.profileId
              raiseIf (¬existing.principal.scopeMatchesPolicy) sessionInvalid
              return .finished (.ok (.granted
                { token, principal := existing.principal, expiresAt := existing.expiresAt,
                  account := some account }))
          | true, .guest, _ =>
              SessionRepository.save (← Exec.lift (existing.revoke now))
              let grant ← service.issueGuest now generated
              commit
              return .finished (.ok (.granted grant))

/-- The second unit of work of `update_display_name`. -/
def updateDisplayName (caller : Caller) (displayName : String) (now : DateTime) :
    UnitOfWork AccountSummary := do
  let account ← requireActiveAccount caller.userId caller.principal.profileId
  requireActivePresentedSession caller now
  let updated ← Exec.lift (account.withDisplayName displayName)
  UserAccountRepository.save updated
  commit
  return accountSummary updated

/-- The second unit of work of `change_password`; it reads the clock twice. -/
def changePassword (caller : Caller) (command : ChangePasswordCommand) (now later : DateTime)
    (generated : Generated) : UnitOfWork SessionGrant := do
  let account ← requireActiveAccount caller.userId caller.principal.profileId
  requireActivePresentedSession caller now
  service.requireCredentials command.currentPassword account
  let updatedAccount ← Exec.lift (account.withPasswordHash generated.passwordHash)
  UserAccountRepository.save updatedAccount
  discard (SessionRepository.revokeAllForUser caller.userId caller.principal.profileId later)
  let grant ← service.issueAuthenticated updatedAccount later generated
  commit
  return grant

/-- The second unit of work of `revoke_session`. -/
def revokeSession (caller : Caller) (sessionId : UUID) (now : DateTime) : UnitOfWork Bool := do
  let revoked ← SessionRepository.revokeSession sessionId caller.userId
    caller.principal.profileId now
  if revoked then
    commit
    return true
  else return false

/-- The second unit of work of `revoke_all`; it reads the clock twice. -/
def revokeAll (caller : Caller) (now later : DateTime) : UnitOfWork Unit := do
  discard (requireActiveAccount caller.userId caller.principal.profileId)
  requireActivePresentedSession caller now
  discard (SessionRepository.revokeAllForUser caller.userId caller.principal.profileId later)
  commit

def revoke (token : String) (now : DateTime) : UnitOfWork Unit := do
  let digest ← Exec.lift (tokenDigest token)
  match ← SessionRepository.getByTokenSha256 digest with
  | none => throw sessionInvalid
  | some session =>
      raiseIf (¬session.isActive now) sessionInvalid
      SessionRepository.save (← Exec.lift (session.revoke now))
      commit

/-- What a call does first. -/
def begins (now : DateTime) (generated : Generated) : Request → UnitOfWork Call
  | .register command => service.beginRegister command now generated
  | .authenticate command => service.beginAuthenticate command
  | .issueGuest currentSessionToken => service.beginGuest currentSessionToken now generated
  | .updateDisplayName token displayName => do
      Exec.lift (service.validateDisplayName displayName)
      return .updatingDisplayName (← resolveCaller token now) displayName
  | .changePassword token command => do
      let caller ← resolveCaller token now
      Exec.lift (service.validatePassword command.currentPassword 1)
      Exec.lift (service.validatePassword command.newPassword
        service.configuration.minimumPasswordLength)
      Exec.lift (reject (command.currentPassword = command.newPassword) PASSWORD_MUST_DIFFER)
      return .changingPassword caller command
  | .revokeSession token sessionId => do
      return .revokingSession (← resolveCaller token now) sessionId
  | .revokeAll token => do
      return .revokingAll (← resolveCaller token now)
  | .revoke token => (fun _ => .finished (.ok .done)) <$> revoke token now

/-- What a call does in its second unit of work, with the two readings of the clock in it. -/
def resumes (now later : DateTime) (generated : Generated) : Call → Option (UnitOfWork Outcome)
  | .registering account currentSessionToken begun =>
      some (.granted <$> service.register account currentSessionToken begun generated)
  | .authenticating account command =>
      some (.granted <$> service.authenticate account command now generated)
  | .issuingGuest read => some do
      let grant ← service.issueGuest read generated
      commit
      return .granted grant
  | .updatingDisplayName caller displayName =>
      some (.summary <$> updateDisplayName caller displayName now)
  | .changingPassword caller command =>
      some (.granted <$> service.changePassword caller command now later generated)
  | .revokingSession caller sessionId => some (.revoked <$> revokeSession caller sessionId now)
  | .revokingAll caller => some ((fun _ => .done) <$> revokeAll caller now later)
  | .awaitingClock | .finished _ => none

structure State where
  store : Store
  clock : DateTime
  calls : Nat → Option Call

def State.initial (clock : DateTime) : State := ⟨.empty, clock, fun _ => none⟩

/-- A unit of work of a thread, after which its call is in the state that `next` gives. -/
def State.perform {α : Type} (s : State) (thread : Nat) (clock : DateTime) (next : α → Call)
    (work : UnitOfWork α) : State where
  store := (Transaction.atomically work s.store).2
  clock := clock
  calls := Function.update s.calls thread (some (match (Transaction.atomically work s.store).1 with
    | .ok a => next a
    | .error error => .finished (.error error)))

omit [Sha256] in
/-- The call of one thread moves on, and the others do not. -/
theorem held_update {calls : Nat → Option Call} {thread other : Nat} {call found : Call}
    (held : Function.update calls thread (some call) other = some found) :
    other = thread ∧ call = found ∨ calls other = some found := by
  by_cases same : other = thread
  · rw [same, Function.update_self] at held
    exact .inl ⟨same, Option.some.inj held⟩
  · rw [Function.update_of_ne same] at held
    exact .inr held

section Perform

variable {α : Type} {s : State} {thread : Nat} {clock : DateTime} {next : α → Call}
  {work : UnitOfWork α}

omit [Sha256] in
/-- What a unit of work leaves: what it committed and its result, or the store as it was. -/
theorem State.perform_cases {R : α → Store → Prop}
    (commits : Transaction.Commits work R s.store s.store) :
    (∃ a after, R a after ∧ s.perform thread clock next work =
      ⟨after, clock, Function.update s.calls thread (some (next a))⟩) ∨
    ∃ error, s.perform thread clock next work =
      ⟨s.store, clock, Function.update s.calls thread (some (.finished (.error error)))⟩ := by
  rcases commits.atomically with ⟨a, after, done, holds⟩ | ⟨error, done⟩
  · exact .inl ⟨a, after, holds, by rw [State.perform, done]⟩
  · exact .inr ⟨error, by rw [State.perform, done]⟩

end Perform

inductive Action where
  | tick (micros : Nat)
  | begin (thread : Nat) (request : Request) (generated : Generated)
  | readClock (thread : Nat)
  | resume (thread : Nat) (elapsed : Nat) (generated : Generated)

/-- A thread can begin a call when it has none, or its last one is over. -/
def Call.over : Option Call → Bool
  | none | some (.finished _) => true
  | _ => false

def step (s : State) : Action → Option State
  | .tick micros => some { s with clock := s.clock.add micros }
  | .begin thread request generated =>
      if Call.over (s.calls thread) then
        some (s.perform thread s.clock id (service.begins s.clock generated request))
      else none
  | .readClock thread =>
      match s.calls thread with
      | some .awaitingClock =>
          some { s with calls := Function.update s.calls thread (some (.issuingGuest s.clock)) }
      | _ => none
  | .resume thread elapsed generated => do
      let call ← s.calls thread
      let work ← service.resumes s.clock (s.clock.add elapsed) generated call
      some (s.perform thread (s.clock.add elapsed) (fun outcome => .finished (.ok outcome)) work)

variable {service}

/-- A call that is resumed performs its second unit of work. -/
theorem step_resume {s : State} {thread elapsed : Nat} {generated : Generated} {call : Call}
    {work : UnitOfWork Outcome} (pending : s.calls thread = some call)
    (resumed : service.resumes s.clock (s.clock.add elapsed) generated call = some work) :
    service.step s (.resume thread elapsed generated) = some
      (s.perform thread (s.clock.add elapsed) (fun outcome => .finished (.ok outcome)) work) := by
  simp only [step, pending, resumed, Option.bind_eq_bind, Option.bind_some]

end Calls

end IdentitySessionService

end Cinegraph.Identity
