import Cinegraph.Identity.Models
import Cinegraph.Library.Run
import Cinegraph.Watching.Repository

/-!
Imports of a viewing history: prepared for review, committed episode by episode through the watch
progress of the profile, and expired. Every call of a repository is one atomic step.
-/

namespace Cinegraph.NetflixHistory

open Library Identity

namespace NetflixHistoryErrorMessages

def AUTHENTICATED_PRINCIPAL_REQUIRED := "Netflix history import requires an authenticated principal."
def PRINCIPAL_MUST_OWN_PROFILE := "Netflix history can only be imported into the principal's profile."
def IMPORT_NOT_FOUND := "The Netflix history import does not exist."
def IMPORT_EXPIRED := "The Netflix history import review has expired."
def APPROVAL_INVALID := "A Netflix history approval is not one of the proposed candidates."
def APPROVAL_ROWS_MUST_BE_UNIQUE := "Netflix history approval row IDs must be unique."
def REPOSITORY_CONFLICT := "The Netflix history import changed concurrently."

end NetflixHistoryErrorMessages

open NetflixHistoryErrorMessages

inductive NetflixHistoryImportStatus where
  | pendingReview
  | committed
  | expired
  deriving DecidableEq, Repr

inductive NetflixTitleResolutionStatus where
  | matched
  | ambiguous
  | unmatched
  deriving DecidableEq, Repr

structure NetflixViewingHistoryRow where
  rowId : String
  rowNumber : Int
  title : String
  viewedOn : Int

structure ParsedNetflixViewingHistory where
  contentSha256 : String
  rows : List NetflixViewingHistoryRow

structure NetflixEpisodeCandidate where
  episode : EpisodeRef
  seriesName : String
  seasonNumber : Int
  episodeNumber : Int
  episodeTitle : Option String
  reason : String

structure NetflixTitleResolution where
  row : NetflixViewingHistoryRow
  status : NetflixTitleResolutionStatus
  candidates : List NetflixEpisodeCandidate

structure NetflixHistoryImportRecord where
  importId : UUID
  profileId : UUID
  contentSha256 : String
  status : NetflixHistoryImportStatus
  createdAt : DateTime
  expiresAt : DateTime
  inputRowCount : Nat
  resolutions : List NetflixTitleResolution
  approvedEpisodeIds : List UUID
  importedEventCount : Nat
  completedAt : Option DateTime

namespace NetflixHistoryImportRecord

variable (record : NetflixHistoryImportRecord)

def commit (episodeIds : List UUID) (importedEventCount : Nat) (completedAt : DateTime) :
    NetflixHistoryImportRecord :=
  { record with
    status := .committed
    resolutions := []
    approvedEpisodeIds := episodeIds
    importedEventCount := importedEventCount
    completedAt := some completedAt }

def expire : NetflixHistoryImportRecord := { record with status := .expired, resolutions := [] }

def restartReview (createdAt expiresAt : DateTime) (resolutions : List NetflixTitleResolution) :
    NetflixHistoryImportRecord :=
  { record with
    status := .pendingReview
    createdAt := createdAt
    expiresAt := expiresAt
    inputRowCount := resolutions.length
    resolutions := resolutions
    approvedEpisodeIds := []
    importedEventCount := 0
    completedAt := none }

end NetflixHistoryImportRecord

/-! ### The in-memory imports -/

structure InMemoryNetflixHistoryImportRepository where
  records : Dict UUID NetflixHistoryImportRecord
  contentIndex : Dict (UUID × String) UUID

namespace InMemoryNetflixHistoryImportRepository

def empty : InMemoryNetflixHistoryImportRepository := ⟨.empty, .empty⟩

variable (self : InMemoryNetflixHistoryImportRepository)

def findByContent (profileId : UUID) (contentSha256 : String) : Option NetflixHistoryImportRecord :=
  (self.contentIndex.get? (profileId, contentSha256)).bind self.records.get?

def get (importId : UUID) : Option NetflixHistoryImportRecord := self.records.get? importId

def add (record : NetflixHistoryImportRecord) : Except Raised InMemoryNetflixHistoryImportRepository := do
  let contentKey := (record.profileId, record.contentSha256)
  reject ((self.records.get? record.importId).isSome ∨ self.contentIndex.get? contentKey ≠ none)
    REPOSITORY_CONFLICT
  return {
    records := self.records.set record.importId record
    contentIndex := self.contentIndex.set contentKey record.importId }

def save (record : NetflixHistoryImportRecord) (expectedStatus : NetflixHistoryImportStatus) :
    Except Raised InMemoryNetflixHistoryImportRepository := do
  reject ((self.records.get? record.importId).map (·.status) ≠ some expectedStatus) REPOSITORY_CONFLICT
  return { self with records := self.records.set record.importId record }

/-- `expire_sensitive_content`, which keeps the order of the records. -/
def expireSensitiveContent (now : DateTime) : InMemoryNetflixHistoryImportRepository :=
  { self with records := self.records.mapValues fun record =>
      if record.status = .pendingReview ∧ record.expiresAt < now then record.expire else record }

variable {self next : InMemoryNetflixHistoryImportRepository} {record : NetflixHistoryImportRecord}

theorem add_ok (h : self.add record = .ok next) :
    self.get record.importId = none ∧ next.records = self.records.set record.importId record := by
  simp only [add, reject_bind_eq_ok, not_or, Bool.not_eq_true, Option.isSome_eq_false_iff,
    Option.isNone_iff_eq_none] at h
  obtain ⟨⟨absent, _⟩, added⟩ := h
  cases added
  exact ⟨absent, rfl⟩

theorem save_ok {expectedStatus : NetflixHistoryImportStatus} (h : self.save record expectedStatus = .ok next) :
    (∃ current, self.get record.importId = some current ∧ current.status = expectedStatus) ∧
      next.records = self.records.set record.importId record := by
  simp only [save, reject_bind_eq_ok, ne_eq, not_not, Option.map_eq_some_iff] at h
  obtain ⟨current, saved⟩ := h
  cases saved
  exact ⟨current, rfl⟩

end InMemoryNetflixHistoryImportRepository

/-! ### The import service -/

structure NetflixRowApproval where
  rowId : String
  episodeId : UUID

structure CommitNetflixHistoryImportCommand where
  profileId : UUID
  importId : UUID
  approvals : List NetflixRowApproval

structure NetflixHistoryImportConfiguration where
  pendingReviewRetention : Int
  retention_positive : 0 < pendingReviewRetention

/-- `_require_authenticated` -/
def requireAuthenticated (principal : SessionPrincipal) (profileId : UUID) : Except Raised Unit := do
  reject (principal.kind ≠ .authenticated) AUTHENTICATED_PRINCIPAL_REQUIRED .permissionError
  reject (principal.profileId ≠ profileId) PRINCIPAL_MUST_OWN_PROFILE .permissionError

/-- The episode that an approval names, among the candidates of its row. -/
def approvedEpisode (record : NetflixHistoryImportRecord) (approval : NetflixRowApproval) :
    Except Raised EpisodeRef :=
  let resolutions := Dict.ofList (record.resolutions.map fun resolution => (resolution.row.rowId, resolution))
  let candidates := match resolutions.get? approval.rowId with
    | some resolution => resolution.candidates
    | none => []
  match candidates.find? fun item => item.episode.episodeId = approval.episodeId with
  | some candidate => .ok candidate.episode
  | none => .error (valueError APPROVAL_INVALID)

/-- `{episode.episode_id: episode for episode in approved_episodes}` -/
def uniqueEpisodes (approved : List EpisodeRef) : Dict UUID EpisodeRef :=
  Dict.ofList (approved.map fun episode => (episode.episodeId, episode))

/-- `sorted(unique_episodes)` -/
def sortedIds (unique : Dict UUID EpisodeRef) : List UUID :=
  unique.keys.insertionSort fun a b => a.int.toNat ≤ b.int.toNat

/-- A commit between two of its episodes: what it has read, what is left to do, and the outcomes so
far, each with the event that was appended, if any. -/
structure Commit where
  record : NetflixHistoryImportRecord
  now : DateTime
  episodeIds : List UUID
  remaining : List EpisodeRef
  outcomes : List (Option WatchEvent)

namespace Commit

/-- The events that the commit has appended. -/
def written (commit : Commit) : List WatchEvent := commit.outcomes.reduceOption

def importId (commit : Commit) : UUID := commit.record.importId

/-- `imported_event_count` -/
def importedEventCount (commit : Commit) : Nat := commit.outcomes.countP Option.isSome

def committed (commit : Commit) : NetflixHistoryImportRecord :=
  commit.record.commit commit.episodeIds commit.importedEventCount commit.now

/-- The commit after an episode. -/
def after (commit : Commit) (outcome : Option WatchEvent) : Commit :=
  { commit with
    remaining := commit.remaining.tail
    outcomes := commit.outcomes ++ [outcome] }

end Commit

/-- What `commit` does with the record that it read. -/
inductive CommitPlan where
  | replay
  | expire (record : NetflixHistoryImportRecord)
  | write (commit : Commit)

def planCommit (principal : SessionPrincipal) (command : CommitNetflixHistoryImportCommand)
    (found : Option NetflixHistoryImportRecord) (now : DateTime) : Except Raised CommitPlan := do
  requireAuthenticated principal command.profileId
  match found with
  | none => throw (valueError IMPORT_NOT_FOUND)
  | some record =>
      reject (record.profileId ≠ command.profileId) PRINCIPAL_MUST_OWN_PROFILE .permissionError
      match record.status with
      | .committed => return .replay
      | .expired => throw (valueError IMPORT_EXPIRED)
      | .pendingReview =>
          if record.expiresAt < now then return .expire record
          reject (¬(command.approvals.map (·.rowId)).Nodup) APPROVAL_ROWS_MUST_BE_UNIQUE
          let approved ← command.approvals.mapM (approvedEpisode record)
          let unique := uniqueEpisodes approved
          return .write {
            record := record
            now := now
            episodeIds := sortedIds unique
            remaining := (sortedIds unique).filterMap unique.get?
            outcomes := [] }

namespace MarkEpisodeWatchedService

open WatchErrorMessages

/-- The first part of `execute`: none where the episode is fully watched already. -/
def read (watch : InMemoryWatchProgressRepository) (profileId : UUID) (episode : EpisodeRef) :
    Except Raised (Option ProfileWatchState) :=
  match watch.get profileId with
  | none => .error ⟨.profileWatchStateNotFound, NO_WATCH_STATE_FOUND_FOR_PROFILE_ID profileId⟩
  | some current => .ok (if current.isEpisodeFullyWatched episode then none else some current)

/-- The second part of `execute`: mark, and persist with one event. -/
def write (watch : InMemoryWatchProgressRepository) (current : ProfileWatchState) (profileId : UUID)
    (episode : EpisodeRef) (source : WatchEventSource) (eventId : UUID) (occurredAt : DateTime) :
    Except Raised (WatchEvent × InMemoryWatchProgressRepository) := do
  let updated ← current.markEpisodeWatched episode
  let event : WatchEvent := ⟨eventId, profileId, episode, .episodeMarkedWatched, source, occurredAt⟩
  let persisted ← watch.persistStateChange updated [event] current.version
  return (event, persisted)

end MarkEpisodeWatchedService

/-! ### Interleaved calls -/

/-- A call between two of its steps. -/
inductive Call where
  /-- `prepare` has looked for the content. -/
  | preparing (principal : SessionPrincipal) (parsed : ParsedNetflixViewingHistory)
      (existing : Option NetflixHistoryImportRecord)
  /-- `prepare` has to restart the review of an expired import. -/
  | restarting (parsed : ParsedNetflixViewingHistory) (existing : NetflixHistoryImportRecord)
      (now : DateTime)
  /-- `commit` has to expire an import that it found too late. -/
  | expiring (record : NetflixHistoryImportRecord)
  | writing (commit : Commit)
  /-- `commit` has read the watch state for its next episode. -/
  | marking (commit : Commit) (episode : EpisodeRef) (current : ProfileWatchState)

/-- The commit that a call carries out. -/
def Call.commit? : Call → Option Commit
  | .writing commit | .marking commit _ _ => some commit
  | _ => none

structure State where
  imports : InMemoryNetflixHistoryImportRepository
  watch : InMemoryWatchProgressRepository
  calls : Nat → Option Call
  /-- The events that commits appended, each with its import. -/
  appended : List (UUID × WatchEvent)

inductive Action where
  | prepare (thread : Nat) (principal : SessionPrincipal) (parsed : ParsedNetflixViewingHistory)
  | settle (thread : Nat) (importId : UUID) (now : DateTime)
  | restart (thread : Nat)
  | commit (thread : Nat) (principal : SessionPrincipal) (command : CommitNetflixHistoryImportCommand)
      (now : DateTime)
  | expireFound (thread : Nat)
  | readEpisode (thread : Nat)
  | writeEpisode (thread : Nat) (eventId : UUID) (occurredAt : DateTime)
  | saveCommitted (thread : Nat)
  /-- The service raises between two calls of a repository. -/
  | interrupt (thread : Nat)
  | expireSensitiveContent (now : DateTime)
  /-- Another update of a watch state. -/
  | updateWatchState (watchState : ProfileWatchState) (watchEvents : List WatchEvent)
      (expectedVersion : Int)

section Steps

variable (configuration : NetflixHistoryImportConfiguration)
  (resolve : NetflixViewingHistoryRow → NetflixTitleResolution)

def State.put (s : State) (thread : Nat) (call : Option Call) : State :=
  { s with calls := Function.update s.calls thread call }

/-- A write of an import, after which the call goes on unless the write was refused. -/
def State.store (s : State) (thread : Nat)
    (write : Except Raised InMemoryNetflixHistoryImportRepository) (next : Option Call) : State :=
  match write with
  | .error _ => s.put thread none
  | .ok imports => State.put { s with imports := imports } thread next

/-- The record that `prepare` adds. -/
def prepared (principal : SessionPrincipal) (parsed : ParsedNetflixViewingHistory) (importId : UUID)
    (now : DateTime) : NetflixHistoryImportRecord where
  importId := importId
  profileId := principal.profileId
  contentSha256 := parsed.contentSha256
  status := .pendingReview
  createdAt := now
  expiresAt := now.add configuration.pendingReviewRetention
  inputRowCount := parsed.rows.length
  resolutions := parsed.rows.map resolve
  approvedEpisodeIds := []
  importedEventCount := 0
  completedAt := none

/-- The restarted review of an expired import. -/
def restarted (parsed : ParsedNetflixViewingHistory) (existing : NetflixHistoryImportRecord)
    (now : DateTime) : NetflixHistoryImportRecord :=
  existing.restartReview now (now.add configuration.pendingReviewRetention) (parsed.rows.map resolve)

def step (s : State) : Action → Option State
  | .prepare thread principal parsed =>
      match s.calls thread, requireAuthenticated principal principal.profileId with
      | none, .ok _ => some (s.put thread (some (.preparing principal parsed
          (s.imports.findByContent principal.profileId parsed.contentSha256))))
      | _, _ => none
  | .settle thread importId now =>
      match s.calls thread with
      | some (.preparing principal parsed none) =>
          some (s.store thread
            (s.imports.add (prepared configuration resolve principal parsed importId now)) none)
      | some (.preparing _ parsed (some existing)) =>
          match existing.status with
          | .pendingReview =>
              if existing.expiresAt < now then
                some (s.store thread (s.imports.save existing.expire .pendingReview)
                  (some (.restarting parsed existing.expire now)))
              else some (s.put thread none)
          | .expired =>
              some (s.store thread
                (s.imports.save (restarted configuration resolve parsed existing now) .expired) none)
          | .committed => some (s.put thread none)
      | _ => none
  | .restart thread =>
      match s.calls thread with
      | some (.restarting parsed existing now) =>
          some (s.store thread
            (s.imports.save (restarted configuration resolve parsed existing now) .expired) none)
      | _ => none
  | .commit thread principal command now =>
      match s.calls thread, planCommit principal command (s.imports.get command.importId) now with
      | none, .ok (.expire record) => some (s.put thread (some (.expiring record)))
      | none, .ok (.write commit) => some (s.put thread (some (.writing commit)))
      | _, _ => none
  | .expireFound thread =>
      match s.calls thread with
      | some (.expiring record) =>
          some (s.store thread (s.imports.save record.expire .pendingReview) none)
      | _ => none
  | .readEpisode thread =>
      match s.calls thread with
      | some (.writing commit) =>
          match commit.remaining with
          | [] => none
          | episode :: _ =>
              match MarkEpisodeWatchedService.read s.watch commit.record.profileId episode with
              | .error _ => some (s.put thread none)
              | .ok none => some (s.put thread (some (.writing (commit.after none))))
              | .ok (some current) => some (s.put thread (some (.marking commit episode current)))
      | _ => none
  | .writeEpisode thread eventId occurredAt =>
      match s.calls thread with
      | some (.marking commit episode current) =>
          match MarkEpisodeWatchedService.write s.watch current commit.record.profileId episode
              .netflixCsv eventId occurredAt with
          | .error _ => some (s.put thread none)
          | .ok (event, watch) =>
              some (State.put { s with
                  watch := watch
                  appended := s.appended ++ [(commit.importId, event)] }
                thread (some (.writing (commit.after (some event)))))
      | _ => none
  | .saveCommitted thread =>
      match s.calls thread with
      | some (.writing commit) =>
          match commit.remaining with
          | [] => some (s.store thread (s.imports.save commit.committed .pendingReview) none)
          | _ :: _ => none
      | _ => none
  | .interrupt thread => some (s.put thread none)
  | .expireSensitiveContent now => some { s with imports := s.imports.expireSensitiveContent now }
  | .updateWatchState watchState watchEvents expectedVersion =>
      match s.watch.persistStateChange watchState watchEvents expectedVersion with
      | .error _ => some s
      | .ok watch => some { s with watch := watch }

end Steps

/-- Nothing is imported yet. -/
def start (watch : InMemoryWatchProgressRepository) : State where
  imports := .empty
  watch := watch
  calls _ := none
  appended := []

end Cinegraph.NetflixHistory
