import Cinegraph.IngestionJobs.Job

/-!
The part of the ingestion job service that does not depend on a store: the
deterministic identity of a command and, for each operation on a stored job, the
job it computes, the guard it saves it under and the event it appends.
-/

namespace Cinegraph

open Library IngestionJobErrorMessages

/-- The configuration; its constructor enforces the bounds. -/
structure IngestionJobConfiguration where
  leaseDuration : Int
  heartbeatExtension : Int
  retryBaseDelay : Int
  retryMaxDelay : Int
  defaultMaxAttempts : Int
  leaseDuration_pos : 0 < leaseDuration
  heartbeatExtension_pos : 0 < heartbeatExtension
  retryBaseDelay_pos : 0 < retryBaseDelay
  retryBaseDelay_le : retryBaseDelay ≤ retryMaxDelay
  defaultMaxAttempts_bounds :
    1 ≤ defaultMaxAttempts ∧ defaultMaxAttempts ≤ MAX_INGESTION_JOB_ATTEMPTS

def DEFAULT_INGESTION_JOB_CONFIGURATION : IngestionJobConfiguration where
  leaseDuration := 600000000
  heartbeatExtension := 600000000
  retryBaseDelay := 60000000
  retryMaxDelay := 3600000000
  defaultMaxAttempts := 3
  leaseDuration_pos := by decide
  heartbeatExtension_pos := by decide
  retryBaseDelay_pos := by decide
  retryBaseDelay_le := by decide
  defaultMaxAttempts_bounds := by decide

structure EnqueueIngestionJob where
  kind : IngestionJobKind
  seriesId : UUID
  sourceFingerprint : String
  pipelineRevision : String
  seasonNumber : Option Int := none
  episodeNumber : Option Int := none
  priority : Int := 0
  scheduledAt : Option DateTime := none
  maxAttempts : Option Int := none

namespace IngestionJobService

/-- `str(number or "")` -/
def scopeText : Option Int → String
  | none | some 0 => ""
  | some n => toString n

/-- `sha256(...).hexdigest()`; proofs never compute it. -/
@[irreducible] def hexdigest (text : String) : String :=
  String.ofList ((toDigits 16 64 (Digest.sha256 (Digest.utf8 text))).map UUID.hexChar)

def deterministicIngestionIdempotencyKey (command : EnqueueIngestionJob) : String :=
  hexdigest (String.intercalate ":" ["cinegraph-ingestion-v1", command.kind.value,
    command.seriesId.str, scopeText command.seasonNumber, scopeText command.episodeNumber,
    command.sourceFingerprint, command.pipelineRevision])

def NAMESPACE_URL : UUID := ⟨0x6ba7b8119dad11d180b400c04fd430c8⟩

/-- The identifier of the job of a command. -/
def ingestionJobId (command : EnqueueIngestionJob) : UUID :=
  NAMESPACE_URL.uuid5 ("cinegraph:ingestion:" ++ deterministicIngestionIdempotencyKey command)

variable (configuration : IngestionJobConfiguration)

/-- The job `enqueue` builds before it opens a unit of work. A count of zero
attempts is replaced by the default. -/
def newJob (command : EnqueueIngestionJob) (now : DateTime) : Except Raised IngestionJob :=
  IngestionJob.make {
    jobId := ingestionJobId command
    idempotencyKey := deterministicIngestionIdempotencyKey command
    kind := command.kind
    status := .pending
    seriesId := command.seriesId
    seasonNumber := command.seasonNumber
    episodeNumber := command.episodeNumber
    sourceFingerprint := command.sourceFingerprint
    pipelineRevision := command.pipelineRevision
    priority := command.priority
    scheduledAt := command.scheduledAt.getD now
    maxAttempts := match command.maxAttempts with
      | none | some 0 => configuration.defaultMaxAttempts
      | some attempts => attempts
    createdAt := now }

/-- What a save compares the stored job with. -/
inductive SaveGuard where
  | owned (workerId : String) (expected : DateTime)
  | pending
  | reclaimed (expected : DateTime)

/-- The outcome of the pure part of an operation on a stored job. -/
structure Plan where
  updated : IngestionJob
  guard : SaveGuard
  kind : IngestionJobEventKind
  workerId : Option String := none
  errorCode : Option String := none

def requiredLease (job : IngestionJob) : Except Raised DateTime :=
  match job.leaseExpiresAt with
  | none => .error (valueError "Running ingestion job has no lease.")
  | some lease => .ok lease

def heartbeatPlan (workerId : String) (now : DateTime) (job : IngestionJob) :
    Except Raised Plan := do
  let expected ← requiredLease job
  let updated ← job.heartbeat workerId now (expected.add configuration.heartbeatExtension)
  return ⟨updated, .owned workerId expected, .heartbeat, some workerId, none⟩

def succeedPlan (workerId : String) (now : DateTime) (job : IngestionJob) :
    Except Raised Plan := do
  let expected ← requiredLease job
  let updated ← job.succeed workerId now
  return ⟨updated, .owned workerId expected, .succeeded, some workerId, none⟩

def failOrRetryPlan (workerId errorCode : String) (now : DateTime) (job : IngestionJob) :
    Except Raised Plan := do
  let expected ← requiredLease job
  if job.attempts ≥ job.maxAttempts then
    let updated ← job.fail workerId now errorCode
    return ⟨updated, .owned workerId expected, .failed, some workerId, some errorCode⟩
  else
    let delay := min (configuration.retryBaseDelay * 2 ^ (max (job.attempts - 1) 0).toNat)
      configuration.retryMaxDelay
    let updated ← job.retry workerId now (now.add delay) errorCode
    return ⟨updated, .owned workerId expected, .retried, some workerId, some errorCode⟩

def cancelPlan (now : DateTime) (job : IngestionJob) : Except Raised Plan := do
  let updated ← job.cancel now
  return ⟨updated, .pending, .cancelled, none, none⟩

def reclaimPlan (now : DateTime) (job : IngestionJob) : Except Raised Plan := do
  let updated ← job.reclaim now (now.add configuration.retryBaseDelay)
  let expected ← requiredLease job
  return ⟨updated, .reclaimed expected, .reclaimed, none, updated.lastErrorCode⟩

/-- The name an event's identifier is derived from. -/
def eventName (jobId : UUID) (sequence : Nat) : String :=
  "cinegraph:ingestion-event:" ++ jobId.str ++ ":" ++ toString sequence

/-- The event `_append_event` adds to a log of `count` events. -/
def newEvent (job : IngestionJob) (kind : IngestionJobEventKind) (now : DateTime)
    (workerId errorCode : Option String) (count : Nat) : Except Raised IngestionJobEvent :=
  IngestionJobEvent.make {
    eventId := NAMESPACE_URL.uuid5 (eventName job.jobId (count + 1))
    jobId := job.jobId
    sequenceNumber := count + 1
    kind := kind
    occurredAt := now
    attempt := job.attempts
    workerId := workerId
    errorCode := errorCode }

end IngestionJobService

section Sample

/-! A command and the job it asks for, to evaluate the stores on. -/

def sampleCommand : EnqueueIngestionJob where
  kind := .transcriptIngestion
  seriesId := ⟨10⟩
  sourceFingerprint := String.ofList (List.replicate 64 '0')
  pipelineRevision := "v1"

def sampleIngestionJob : IngestionJob where
  jobId := ⟨66342146095288668505037137591061755549⟩
  idempotencyKey := "6f8bd3806a195dd310de3d0ea881b49af7de590f3e4ab673dbff133514310810"
  kind := .transcriptIngestion
  status := .pending
  seriesId := ⟨10⟩
  seasonNumber := none
  episodeNumber := none
  sourceFingerprint := String.ofList (List.replicate 64 '0')
  pipelineRevision := "v1"
  priority := 0
  scheduledAt := ⟨.utc, 0⟩
  maxAttempts := 3
  createdAt := ⟨.utc, 0⟩
  valid := by decide +kernel

theorem sampleCommand_key : IngestionJobService.deterministicIngestionIdempotencyKey sampleCommand =
    sampleIngestionJob.idempotencyKey := by
  decide +kernel

theorem newJob_sampleCommand :
    IngestionJobService.newJob DEFAULT_INGESTION_JOB_CONFIGURATION sampleCommand ⟨.utc, 0⟩ =
      .ok sampleIngestionJob := by
  rw [IngestionJobService.newJob, IngestionJobService.ingestionJobId, sampleCommand_key]
  decide +kernel

end Sample

end Cinegraph
