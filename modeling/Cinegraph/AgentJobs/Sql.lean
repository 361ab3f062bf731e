import Cinegraph.AgentJobs.InMemory
import Cinegraph.AgentJobs.Serialization

/-!
The SQL agent job repository. Each method is one transaction on the two tables:
it returns the new tables, and an exception leaves the old ones in place. JSON
columns hold the written values; the length limits of text columns are left out.
-/

namespace Cinegraph

open Library AgentJobErrorMessages

structure AgentJobRow where
  jobId : UUID
  ownerProfileId : UUID
  threadId : UUID
  seriesId : UUID
  questionJson : Json
  candidateEpisodesJson : Json
  corpusAccessScopeJson : Json
  permissionScopeRevision : String
  idempotencyKey : String
  requestFingerprint : String
  requestId : Option String
  createdAt : DateTime
  startedAt : Option DateTime
  finishedAt : Option DateTime
  status : String
  resultJson : Option Json
  errorCode : Option String
  deriving DecidableEq

structure AgentJobEventRow where
  eventId : UUID
  jobId : UUID
  sequence : Nat
  kind : String
  occurredAt : DateTime
  payloadJson : Json
  deriving DecidableEq

structure AgentJobTables where
  jobs : Dict UUID AgentJobRow
  events : List AgentJobEventRow
  deriving DecidableEq

/-- The table constraints on a job row. -/
def AgentJobRow.allowed (row : AgentJobRow) : Bool :=
  let coherent :=
    (row.status = "queued" && row.startedAt.isNone && row.finishedAt.isNone &&
      row.resultJson.isNone && row.errorCode.isNone) ||
    (row.status = "running" && row.startedAt.isSome && row.finishedAt.isNone &&
      row.resultJson.isNone && row.errorCode.isNone) ||
    ((row.status = "succeeded" || row.status = "safe_refusal") && row.startedAt.isSome &&
      row.finishedAt.isSome && row.resultJson.isSome && row.errorCode.isNone) ||
    (row.status = "failed" && row.finishedAt.isSome && row.resultJson.isNone &&
      row.errorCode.isSome)
  row.idempotencyKey.length = 36 && row.requestFingerprint.length = 64 && coherent &&
    row.startedAt.all (fun started => decide (row.createdAt ≤ started)) &&
    row.finishedAt.all (fun finished => decide (row.createdAt ≤ finished)) &&
    row.finishedAt.all (fun finished =>
      row.startedAt.all (fun started => decide (started ≤ finished))) &&
    row.errorCode.all (ALLOWED_AGENT_JOB_FAILURE_CODES.contains ·)

namespace SqlAlchemyAgentJobRepository

def unavailable : Raised := ⟨.agentJobUnavailable, SYSTEM_UNAVAILABLE⟩

/-- `except (OperationalError, DBAPIError, ValueError, TypeError, KeyError)`. -/
def orUnavailable {α : Type} (value : Except Raised α) : Except Raised α :=
  match value with
  | .ok a => .ok a
  | .error e =>
      if e.kind ∈ [ErrorKind.operational, .valueError, .typeError, .keyError] then
        .error unavailable
      else .error e

/-- `_utc` of this module: naive instants are taken as UTC. -/
def asUtc (value : DateTime) : DateTime := { value with zone := .utc }

variable [Normalization]

omit [Normalization] in
/-- The items of a JSON column that has to hold an object. -/
def objectOf (message : String) : Json → Except Raised JsonPayload
  | .obj items => .ok items
  | _ => .error (valueError message)

def storedResult : Option Json → Except Raised (Option SeriesAgentResult)
  | none => .ok none
  | some value => (resultFromJson value).map some

/-- `_job`. -/
def jobOfRow (row : AgentJobRow) : Except Raised AgentJob := do
  let items ← objectOf "malformed persisted agent job" row.questionJson
  reject (¬sameKeys items ["question"] ∧
    ¬sameKeys items ["question", "spoiler_mode", "safe_through_episode_id"])
    "malformed persisted agent job"
  let question ← textOf (← valueAt items "question")
  let episodes ← listOf "malformed persisted agent job" row.candidateEpisodesJson
  let candidates ← episodes.mapM episodeFromJson
  let result ← storedResult row.resultJson
  reject (∃ r ∈ result, ∃ c ∈ r.citations, c.episode ∉ candidates)
    "malformed persisted agent job"
  let scope ← scopeFromJson row.corpusAccessScopeJson
  let status ← enumOf AgentJobStatus.members AgentJobStatus.value (.str row.status)
  let spoilerMode ← enumOf SpoilerMode.members SpoilerMode.value
    ((items.lookup "spoiler_mode").getD (.str SpoilerMode.relaxed.value))
  let safeThrough ← nullableAt uuidOf items "safe_through_episode_id"
  AgentJob.make {
    jobId := row.jobId
    ownerProfileId := row.ownerProfileId
    threadId := row.threadId
    seriesId := row.seriesId
    question := question
    candidateEpisodes := candidates
    corpusAccessScope := scope
    permissionScopeRevision := row.permissionScopeRevision
    idempotencyKey := row.idempotencyKey
    requestFingerprint := row.requestFingerprint
    requestId := row.requestId
    createdAt := asUtc row.createdAt
    status := status
    startedAt := row.startedAt.map asUtc
    finishedAt := row.finishedAt.map asUtc
    result := result
    errorCode := row.errorCode
    spoilerMode := spoilerMode
    safeThroughEpisodeId := safeThrough }

/-- `_event`. -/
def eventOfRow (row : AgentJobEventRow) : Except Raised AgentJobEvent := do
  let kind ← enumOf AgentJobEventKind.members AgentJobEventKind.value (.str row.kind)
  let payload ← objectOf "malformed agent event" row.payloadJson
  AgentJobEvent.make {
    eventId := row.eventId
    sequence := row.sequence
    jobId := row.jobId
    kind := kind
    occurredAt := asUtc row.occurredAt
    payload := payload }

/-- The columns a job is stored in. -/
def rowOfJob (job : AgentJob) : AgentJobRow where
  jobId := job.jobId
  ownerProfileId := job.ownerProfileId
  threadId := job.threadId
  seriesId := job.seriesId
  questionJson := .obj [
    ("question", .str job.question),
    ("spoiler_mode", .str job.spoilerMode.value),
    ("safe_through_episode_id", nullableJson uuidJson job.safeThroughEpisodeId)]
  candidateEpisodesJson := .arr (job.candidateEpisodes.map episodeToJson)
  corpusAccessScopeJson := scopeToJson job.corpusAccessScope
  permissionScopeRevision := job.permissionScopeRevision
  idempotencyKey := job.idempotencyKey
  requestFingerprint := job.requestFingerprint
  requestId := job.requestId
  createdAt := job.createdAt
  startedAt := job.startedAt
  finishedAt := job.finishedAt
  status := job.status.value
  resultJson := job.result.map resultToJson
  errorCode := job.errorCode

/-- The row of a new job: the execution columns start out empty. -/
def insertedRow (job : AgentJob) : AgentJobRow :=
  { rowOfJob job with
    createdAt := asUtc job.createdAt
    startedAt := none
    finishedAt := none
    resultJson := none
    errorCode := none }

/-- The columns an UPDATE of `_transition` writes. -/
def updatedRow (row : AgentJobRow) (updated : AgentJob) : AgentJobRow :=
  { row with
    status := updated.status.value
    startedAt := updated.startedAt
    finishedAt := updated.finishedAt
    resultJson := updated.result.map resultToJson
    errorCode := updated.errorCode }

/-- `SELECT ... WHERE job_id = ... ORDER BY sequence`. -/
def eventRows (tables : AgentJobTables) (jobId : UUID) : List AgentJobEventRow :=
  (tables.events.filter (·.jobId = jobId)).insertionSort (fun a b => a.sequence ≤ b.sequence)

def setRow (tables : AgentJobTables) (row : AgentJobRow) : Except Raised AgentJobTables :=
  if row.allowed then .ok { tables with jobs := tables.jobs.set row.jobId row }
  else .error ⟨.operational, "check constraint failed"⟩

/-- `_append`, under the constraints of the event table. -/
def append (tables : AgentJobTables) (job : AgentJob) (kind : AgentJobEventKind)
    (payload : JsonPayload) (sequence : Nat) (occurred : DateTime) :
    Except Raised AgentJobTables :=
  let row : AgentJobEventRow := {
    eventId := job.jobId.uuid5 (InMemoryAgentJobRepository.eventName sequence)
    jobId := job.jobId
    sequence := sequence
    kind := kind.value
    occurredAt := asUtc occurred
    payloadJson := .obj payload }
  if (∃ other ∈ tables.events, other.eventId = row.eventId ∨
      other.jobId = row.jobId ∧ other.sequence = row.sequence) ∨
      tables.jobs.get? row.jobId = none ∨ row.sequence < 1 then
    .error ⟨.operational, "integrity error"⟩
  else .ok { tables with events := tables.events ++ [row] }

/-- Insert a new job with its first event. -/
def insert (tables : AgentJobTables) (job : AgentJob) : Except Raised AgentJobTables := do
  let stored ← setRow tables (insertedRow job)
  append stored job .queued [("status", .str "queued")] 1 job.createdAt

def create (tables : AgentJobTables) (job : AgentJob) :
    Except Raised ((AgentJob × Bool) × AgentJobTables) :=
  let existing := tables.jobs.values.find? (fun row =>
    row.ownerProfileId = job.ownerProfileId ∧ row.idempotencyKey = job.idempotencyKey)
  if existing.isNone ∧ tables.jobs.get? job.jobId = none then
    match insert tables job with
    | .ok stored => .ok ((job, true), stored)
    | .error _ => .error unavailable
  else
    match existing with
    | none => .error unavailable
    | some row =>
        if row.requestFingerprint ≠ job.requestFingerprint then
          .error ⟨.agentJobIdempotencyConflict, IDEMPOTENCY_CONFLICT⟩
        else (orUnavailable (jobOfRow row)).map fun stored => ((stored, false), tables)

omit [Normalization] in
/-- `SELECT ... WHERE job_id = ... AND owner_profile_id = ...`. -/
def rowAt (tables : AgentJobTables) (jobId : UUID) (owner : Option UUID) : Option AgentJobRow :=
  (tables.jobs.get? jobId).filter (fun row => decide (∀ profile ∈ owner, row.ownerProfileId = profile))

def get (tables : AgentJobTables) (jobId : UUID) (owner : Option UUID) :
    Except Raised (Option AgentJob) :=
  match rowAt tables jobId owner with
  | none => .ok none
  | some row => orUnavailable ((jobOfRow row).map some)

inductive Action where
  | claim
  | complete (result : SeriesAgentResult)
  | fail (errorCode : String)
  | reject (errorCode : String)

/-- The branch of `_transition` an action selects; `none` is an early return. -/
def Action.apply (action : Action) (prior : AgentJob) (now : DateTime) :
    Except Raised (Option (AgentJob × AgentJobEventKind × JsonPayload)) :=
  match action with
  | claim =>
      if prior.status = .running then .ok none
      else if prior.status.terminal then
        .error ⟨.agentJobTransition, REPOSITORY_TERMINAL_CLAIM⟩
      else do
        let updated ← prior.start now
        return some (updated, .running, [("status", .str "running")])
  | complete result =>
      if prior.status ≠ .running then .error ⟨.agentJobTransition, REPOSITORY_COMPLETE_STATE⟩
      else do
        let updated ← prior.complete result now
        return some (updated,
          if updated.status = .safeRefusal then .safeRefusal else .succeeded,
          resultEventPayload result)
  | fail errorCode =>
      if prior.status ≠ .running then .error ⟨.agentJobTransition, REPOSITORY_FAIL_STATE⟩
      else do
        let updated ← prior.fail (if errorCode = "" then EXECUTION_FAILED else errorCode) now
        return some (updated, .failed,
          InMemoryAgentJobRepository.failurePayload (updated.errorCode.getD ""))
  | reject errorCode =>
      if prior.status ≠ .queued then .error ⟨.agentJobTransition, REPOSITORY_REJECT_STATE⟩
      else do
        let updated ← prior.reject (if errorCode = "" then DISPATCH_UNAVAILABLE else errorCode) now
        return some (updated, .failed,
          InMemoryAgentJobRepository.failurePayload (updated.errorCode.getD ""))

/-- The log a transition continues: it has to be numbered from 1 without gaps. -/
def requireLog (tables : AgentJobTables) (jobId : UUID) :
    Except Raised (List AgentJobEventRow × AgentJobEventRow) :=
  let events := eventRows tables jobId
  match events.getLast? with
  | none => .error unavailable
  | some last =>
      if events.map (·.sequence) = List.range' 1 events.length then .ok (events, last)
      else .error unavailable

omit [Normalization] in
/-- `max(_utc(now), _utc(previous))`. -/
def later (now previous : DateTime) : DateTime :=
  if asUtc now < asUtc previous then asUtc previous else asUtc now

/-- `_transition`. The row is locked from the SELECT on, so the UPDATE, whose
condition repeats the status just read, always changes it. -/
def transition (tables : AgentJobTables) (now : Except Raised DateTime) (jobId : UUID)
    (owner : Option UUID) (action : Action) :
    Except Raised (Option AgentJob × AgentJobTables) :=
  match rowAt tables jobId owner with
  | none => .ok (none, tables)
  | some row => do
      let prior ← orUnavailable (jobOfRow row)
      let now ← now
      Cinegraph.reject (now.zone ≠ .utc) "repository clock must return UTC"
      match ← action.apply prior now with
      | none => return (none, tables)
      | some (updated, kind, payload) =>
          let written ← orUnavailable (setRow tables (updatedRow row updated))
          let (events, last) ← requireLog written jobId
          let appended ← orUnavailable (append written updated kind payload
            (events.length + 1) (later now last.occurredAt))
          return (some updated, appended)

def claimWithEvent (tables : AgentJobTables) (now : Except Raised DateTime) (jobId : UUID)
    (owner : Option UUID) := transition tables now jobId owner .claim

def completeWithEvent (tables : AgentJobTables) (now : Except Raised DateTime) (jobId : UUID)
    (result : SeriesAgentResult) (owner : Option UUID) :=
  transition tables now jobId owner (.complete result)

def failWithEvent (tables : AgentJobTables) (now : Except Raised DateTime) (jobId : UUID)
    (errorCode : String) (owner : Option UUID) :=
  transition tables now jobId owner (.fail errorCode)

def rejectWithEvent (tables : AgentJobTables) (now : Except Raised DateTime) (jobId : UUID)
    (errorCode : String) (owner : Option UUID) :=
  transition tables now jobId owner (.reject errorCode)

/-- One turn of `_requeue_rows`. -/
def requeueRow (tables : AgentJobTables) (row : AgentJobRow) (now : Except Raised DateTime) :
    Except Raised AgentJobTables := do
  let prior ← jobOfRow row
  let now ← now
  Cinegraph.reject (now.zone ≠ .utc) "repository clock must return UTC"
  let updated ← prior.requeueAfterInterruption now
  let written ← setRow tables { row with status := updated.status.value, startedAt := none }
  let (events, last) ← requireLog written row.jobId
  append written updated .queued [("status", .str "queued"), ("recovered", .bool true)]
    (events.length + 1) (later now last.occurredAt)

/-- `requeue_running_with_event` and `requeue_running_job_with_event` on the rows
they select, each with its own clock reading. -/
def requeueRows (tables : AgentJobTables) (rows : List (AgentJobRow × Except Raised DateTime)) :
    Except Raised AgentJobTables :=
  orUnavailable (rows.foldlM (fun t item => requeueRow t item.1 item.2) tables)

def listEventsAfter (tables : AgentJobTables) (jobId : UUID) (sequence : Int)
    (owner : Option UUID) : Except Raised (List AgentJobEvent) :=
  if sequence < 0 then .error (valueError REPOSITORY_CURSOR)
  else match rowAt tables jobId owner with
    | none => .ok []
    | some _ => orUnavailable do
        let rows := (eventRows tables jobId).filter (fun row => sequence < row.sequence)
        reject (rows.map (·.sequence) ≠ List.range' (sequence.toNat + 1) rows.length)
          "corrupt event sequence"
        rows.mapM eventOfRow

end SqlAlchemyAgentJobRepository

end Cinegraph
