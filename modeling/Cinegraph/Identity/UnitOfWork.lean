import Cinegraph.Identity.Models
import Cinegraph.Library.Dict
import Cinegraph.Library.Transaction

/-!
The identity store and the repositories a unit of work reads and writes it through.
-/

namespace Cinegraph.Identity

open Library AuthenticationErrorMessages

/-- What units of work have done, for the results about their order. -/
inductive Event where
  | registered (userId : UUID)
  | verified (userId : UUID)
  | issued (tokenSha256 : String)
  deriving DecidableEq

structure Store where
  accounts : Dict String UserAccount
  sessions : Dict String SessionRecord
  /-- Newest first; the code keeps no such record. -/
  events : List Event
  deriving DecidableEq

/-- A session is that of a user and a profile. -/
def SessionRecord.ownedBy (session : SessionRecord) (userId profileId : UUID) : Bool :=
  session.principal.userId = some userId ∧ session.principal.profileId = profileId

/-- The order of `list_active_for_user`: the newest first. -/
def SessionRecord.notOlder (a b : SessionRecord) : Prop :=
  b.createdAt < a.createdAt ∨ ¬a.createdAt < b.createdAt ∧ b.sessionId ≤ a.sessionId

instance : DecidableRel SessionRecord.notOlder := fun a b => by
  unfold SessionRecord.notOlder
  infer_instance

namespace Store

def empty : Store := ⟨.empty, .empty, []⟩

variable (s : Store)

def getByUserId (userId : UUID) : Option UserAccount :=
  s.accounts.values.find? fun account => account.userId = userId

/-- The sessions of a user that are active at an instant. -/
def activeSessions (userId profileId : UUID) (now : DateTime) : List SessionRecord :=
  s.sessions.values.filter fun session =>
    session.ownedBy userId profileId && session.isActive now

def listActiveForUser (userId profileId : UUID) (now : DateTime) (limit : Option Nat) :
    List SessionRecord :=
  let sessions := (s.activeSessions userId profileId now).insertionSort SessionRecord.notOlder
  match limit with
  | none => sessions
  | some limit => sessions.take limit

def saveSession (session : SessionRecord) : Store :=
  { s with sessions := s.sessions.set session.tokenSha256 session }

def saveAccount (email : String) (account : UserAccount) : Store :=
  { s with accounts := s.accounts.set email account }

def record (event : Event) : Store := { s with events := event :: s.events }

end Store

abbrev UnitOfWork := Exec (Transaction Store) Raised

open Transaction (read write)

def sessionInvalid : Raised := ⟨.sessionInvalid, SESSION_INVALID⟩

namespace UserAccountRepository

def getByEmail (normalizedEmail : String) : UnitOfWork (Option UserAccount) :=
  read fun s => s.accounts.get? normalizedEmail

def getByUserId (userId : UUID) : UnitOfWork (Option UserAccount) :=
  read fun s => s.getByUserId userId

def add (account : UserAccount) : UnitOfWork Unit := do
  let existing ← getByEmail account.email
  Exec.raiseIf existing.isSome ⟨.duplicateEmail, EMAIL_ALREADY_REGISTERED⟩
  write fun s => s.saveAccount account.email account

def save (account : UserAccount) : UnitOfWork Unit := do
  match ← getByUserId account.userId with
  | none => throw ⟨.keyError, "Account owner not found."⟩
  | some existing =>
      Exec.raiseIf (existing.profileId ≠ account.profileId) ⟨.keyError, "Account owner not found."⟩
      write fun s => s.saveAccount existing.email account

end UserAccountRepository

namespace SessionRepository

def getByTokenSha256 (tokenSha256 : String) : UnitOfWork (Option SessionRecord) :=
  read fun s => s.sessions.get? tokenSha256

def save (session : SessionRecord) : UnitOfWork Unit := write fun s => s.saveSession session

/-- `save(session.revoke(revoked_at))` for each of the sessions. -/
def revokeEach (revokedAt : DateTime) : List SessionRecord → UnitOfWork Unit
  | [] => pure ()
  | session :: rest => do
      save (← Exec.lift (session.revoke revokedAt))
      revokeEach revokedAt rest

def getBySessionId (sessionId : UUID) : UnitOfWork (Option SessionRecord) :=
  read fun s => s.sessions.values.find? fun session => session.sessionId = sessionId

def listActiveForUser (userId profileId : UUID) (now : DateTime) (limit : Option Nat) :
    UnitOfWork (List SessionRecord) :=
  read fun s => s.listActiveForUser userId profileId now limit

def revokeSession (sessionId userId profileId : UUID) (revokedAt : DateTime) : UnitOfWork Bool := do
  match ← getBySessionId sessionId with
  | none => return false
  | some session =>
      if session.ownedBy userId profileId && session.isActive revokedAt then
        save (← Exec.lift (session.revoke revokedAt))
        return true
      else return false

/-- The loop of the source runs over a copy of the sessions, and skips those not active. -/
def revokeAllForUser (userId profileId : UUID) (revokedAt : DateTime) : UnitOfWork Nat := do
  let sessions ← read fun s => s.activeSessions userId profileId revokedAt
  revokeEach revokedAt sessions
  return sessions.length

end SessionRepository

end Cinegraph.Identity
