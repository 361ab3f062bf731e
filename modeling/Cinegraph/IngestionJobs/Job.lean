import Cinegraph.Common.Errors
import Cinegraph.Library.Uuid

/-!
The ingestion job, its transitions and its events. A job is its field values
together with the proof that the constructor accepts them; `replace` runs the
constructor again.
-/

namespace Cinegraph

open Library

namespace IngestionJobErrorMessages

def EPISODE_REQUIRES_SEASON : String :=
  "An ingestion job episode scope requires a season number."
def UTC_TIMESTAMP_REQUIRED : String :=
  "Ingestion job timestamps must be timezone-aware UTC values."
def MAX_ATTEMPTS_INVALID : String :=
  "Ingestion job max_attempts must be within the configured bounds."
def ATTEMPTS_INVALID : String :=
  "Ingestion job attempts cannot be negative or exceed max_attempts."
def LEASE_ONLY_RUNNING : String :=
  "A lease owner and expiry are valid only while a job is running."
def WORKER_REQUIRED : String := "A non-empty opaque worker identifier is required."
def STALE_LEASE : String := "The worker lease is no longer valid for this ingestion job."
def INVALID_TRANSITION : String := "The requested ingestion job transition is not valid."
def SOURCE_FINGERPRINT_REQUIRED : String := "Ingestion job source fingerprint is required."
def PIPELINE_REVISION_REQUIRED : String := "Ingestion job pipeline revision is required."
def ERROR_CODE_NOT_ALLOWLISTED : String :=
  "Only an allowlisted stable ingestion error code may be stored."

end IngestionJobErrorMessages

open IngestionJobErrorMessages

inductive IngestionJobKind where
  | speakerReview
  | transcriptIngestion
  | vectorIndex
  | episodeSummary
  | seriesMetadata
  | subtitleAlignment
  | graphClaimExtraction
  deriving DecidableEq, Repr

def IngestionJobKind.value : IngestionJobKind → String
  | .speakerReview => "speaker_review"
  | .transcriptIngestion => "transcript_ingestion"
  | .vectorIndex => "vector_index"
  | .episodeSummary => "episode_summary"
  | .seriesMetadata => "series_metadata"
  | .subtitleAlignment => "subtitle_alignment"
  | .graphClaimExtraction => "graph_claim_extraction"

inductive IngestionJobStatus where
  | pending
  | running
  | succeeded
  | failed
  | cancelled
  deriving DecidableEq, Repr

def IngestionJobStatus.terminal : IngestionJobStatus → Bool
  | .succeeded | .failed | .cancelled => true
  | _ => false

inductive IngestionJobEventKind where
  | enqueued
  | claimed
  | heartbeat
  | retried
  | succeeded
  | failed
  | cancelled
  | reclaimed
  deriving DecidableEq, Repr

def MAX_INGESTION_JOB_ATTEMPTS : Int := 20
def MAX_INGESTION_JOB_PRIORITY : Int := 100
def LEASE_EXPIRED_ERROR_CODE : String := "lease_expired"
def LEASE_EXPIRED_MAX_ATTEMPTS_ERROR_CODE : String := "lease_expired_max_attempts"

def ALLOWED_INGESTION_ERROR_CODES : List String :=
  [LEASE_EXPIRED_ERROR_CODE, LEASE_EXPIRED_MAX_ATTEMPTS_ERROR_CODE, "source_invalid",
    "alignment_failed", "speaker_review_failed", "transcript_ingestion_failed",
    "vector_index_failed", "episode_summary_failed", "series_metadata_failed",
    "graph_claim_extraction_failed", "unknown_retryable"]

namespace IngestionPatterns

def alphanumeric (c : Char) : Bool :=
  'A' ≤ c && c ≤ 'Z' || 'a' ≤ c && c ≤ 'z' || '0' ≤ c && c ≤ '9'

/-- `[0-9a-f]{64}` -/
def sha256 (text : String) : Bool :=
  text.length = 64 &&
    text.toList.all (fun c => '0' ≤ c && c ≤ '9' || 'a' ≤ c && c ≤ 'f')

/-- `[A-Za-z0-9][A-Za-z0-9...]{0,127}` with the further characters of `others`. -/
def identifier (others : List Char) (text : String) : Bool :=
  match text.toList with
  | [] => false
  | first :: rest =>
      alphanumeric first && rest.length ≤ 127 &&
        rest.all (fun c => alphanumeric c || others.contains c)

def revision (text : String) : Bool := identifier ['.', '_', '-'] text

def worker (text : String) : Bool := identifier ['.', '_', ':', '-'] text

end IngestionPatterns

/-- `raise InvalidModelError(message)` under a condition. -/
abbrev refuse (condition : Prop) [Decidable condition] (message : String) : Except Raised Unit :=
  reject condition message .invalidModel

def DateTime.toUtc (value : DateTime) : DateTime := ⟨.utc, value.micros⟩

/-- `_utc` -/
def inUtc (value : DateTime) : Except Raised DateTime :=
  if value.zone = .naive then .error ⟨.invalidModel, UTC_TIMESTAMP_REQUIRED⟩
  else .ok value.toUtc

@[simp] theorem inUtc_bind_eq_ok {α : Type} {value : DateTime} {f : DateTime → Except Raised α}
    {a : α} : (inUtc value >>= f) = .ok a ↔ value.zone ≠ .naive ∧ f value.toUtc = .ok a := by
  unfold inUtc
  split
  · exact iff_of_false (fun h => by cases h) (fun h => h.1 ‹_›)
  · exact (and_iff_right ‹_›).symm

/-- A check of several instants; `none` passes. -/
def requireAware (values : List (Option DateTime)) : Except Raised Unit :=
  refuse (∃ value ∈ values, ∃ t ∈ value, t.zone = .naive) UTC_TIMESTAMP_REQUIRED

@[simp] theorem requireAware_bind_eq_ok {α : Type} {values : List (Option DateTime)}
    {f : Unit → Except Raised α} {a : α} : (requireAware values >>= f) = .ok a ↔
      (∀ t, some t ∈ values → t.zone ≠ .naive) ∧ f () = .ok a := by
  rw [requireAware, reject_bind_eq_ok]
  refine and_congr_left fun _ => ⟨fun aware t member naive => ?_, fun aware => ?_⟩
  · exact aware ⟨some t, member, t, rfl, naive⟩
  · rintro ⟨_, member, t, rfl, naive⟩
    exact aware t member naive

structure IngestionJobFields where
  jobId : UUID
  idempotencyKey : String
  kind : IngestionJobKind
  status : IngestionJobStatus
  seriesId : UUID
  seasonNumber : Option Int
  episodeNumber : Option Int
  sourceFingerprint : String
  pipelineRevision : String
  priority : Int
  scheduledAt : DateTime
  maxAttempts : Int
  createdAt : DateTime
  attempts : Int := 0
  leaseOwner : Option String := none
  leaseExpiresAt : Option DateTime := none
  startedAt : Option DateTime := none
  finishedAt : Option DateTime := none
  lastErrorCode : Option String := none
  nextAttemptAt : Option DateTime := none
  deriving DecidableEq

namespace IngestionJobFields

/-- The first part of `__post_init__`: what the job is and how often it may run. -/
def checkRequest (j : IngestionJobFields) : Except Raised Unit := do
  refuse (¬IngestionPatterns.sha256 j.idempotencyKey) INVALID_TRANSITION
  refuse (¬IngestionPatterns.sha256 j.sourceFingerprint) SOURCE_FINGERPRINT_REQUIRED
  refuse (¬IngestionPatterns.revision j.pipelineRevision) PIPELINE_REVISION_REQUIRED
  refuse (j.seasonNumber = none ∧ j.episodeNumber ≠ none) EPISODE_REQUIRES_SEASON
  refuse (∃ season ∈ j.seasonNumber, season < 1) INVALID_TRANSITION
  refuse (∃ episode ∈ j.episodeNumber, episode < 1) INVALID_TRANSITION
  refuse (j.priority < 0 ∨ j.priority > MAX_INGESTION_JOB_PRIORITY) INVALID_TRANSITION
  refuse (j.maxAttempts < 1 ∨ j.maxAttempts > MAX_INGESTION_JOB_ATTEMPTS) MAX_ATTEMPTS_INVALID

def checkTimes (j : IngestionJobFields) : Except Raised Unit := do
  requireAware [j.startedAt, j.finishedAt, j.leaseExpiresAt, j.nextAttemptAt, j.createdAt,
    j.scheduledAt]
  refuse (∃ started ∈ j.startedAt, started < j.createdAt) INVALID_TRANSITION
  refuse (∃ finished ∈ j.finishedAt, finished < j.createdAt) INVALID_TRANSITION
  refuse (∃ started ∈ j.startedAt, ∃ finished ∈ j.finishedAt, finished < started)
    INVALID_TRANSITION
  refuse (j.nextAttemptAt ≠ none ∧ j.status ≠ .pending) INVALID_TRANSITION
  refuse (∃ next ∈ j.nextAttemptAt, next < j.scheduledAt) INVALID_TRANSITION

/-- The last part of `__post_init__`: each status admits only its own fields. -/
def checkStatus (j : IngestionJobFields) : Except Raised Unit := do
  refuse (j.status = .running ∧ (j.leaseOwner = none ∨ j.leaseOwner = some "" ∨
    j.leaseExpiresAt = none ∨ j.startedAt = none ∨ j.attempts < 1)) LEASE_ONLY_RUNNING
  refuse (j.status ≠ .running ∧ (j.leaseOwner ≠ none ∨ j.leaseExpiresAt ≠ none))
    LEASE_ONLY_RUNNING
  refuse (j.status.terminal ∧ j.finishedAt = none) INVALID_TRANSITION
  refuse (j.status = .failed ∧ j.lastErrorCode = none) ERROR_CODE_NOT_ALLOWLISTED
  refuse (j.status = .succeeded ∧ j.lastErrorCode ≠ none) INVALID_TRANSITION
  refuse (∃ code ∈ j.lastErrorCode, code ∉ ALLOWED_INGESTION_ERROR_CODES)
    ERROR_CODE_NOT_ALLOWLISTED
  refuse (j.lastErrorCode ≠ none ∧ j.status ≠ .pending ∧ j.status ≠ .failed) INVALID_TRANSITION
  refuse (j.nextAttemptAt ≠ none ∧ j.status ≠ .pending) INVALID_TRANSITION
  refuse (j.status = .pending ∧ j.finishedAt ≠ none) INVALID_TRANSITION
  refuse (j.status = .pending ∧ ¬(j.lastErrorCode = none ↔ j.nextAttemptAt = none))
    INVALID_TRANSITION
  refuse (j.status = .pending ∧ j.attempts = 0 ∧
    (j.lastErrorCode ≠ none ∨ j.nextAttemptAt ≠ none)) INVALID_TRANSITION
  refuse (j.status = .pending ∧ j.attempts > 0 ∧
    (j.lastErrorCode = none ∨ j.nextAttemptAt = none)) INVALID_TRANSITION
  refuse (j.status = .cancelled ∧ j.lastErrorCode ≠ none) INVALID_TRANSITION
  refuse ((j.status = .succeeded ∨ j.status = .failed) ∧ j.attempts < 1) ATTEMPTS_INVALID
  refuse ((j.status = .succeeded ∨ j.status = .failed) ∧ j.startedAt = none) INVALID_TRANSITION
  refuse (j.status = .running ∧ j.finishedAt ≠ none) INVALID_TRANSITION

def check (j : IngestionJobFields) : Except Raised Unit := do
  j.checkRequest
  refuse (j.attempts < 0 ∨ j.attempts > j.maxAttempts) ATTEMPTS_INVALID
  j.checkTimes
  j.checkStatus

end IngestionJobFields

structure IngestionJob extends IngestionJobFields where
  valid : toIngestionJobFields.check = .ok ()
  deriving DecidableEq

namespace IngestionJob

def make (fields : IngestionJobFields) : Except Raised IngestionJob :=
  construct IngestionJobFields.check IngestionJob.mk fields

theorem make_ok {fields : IngestionJobFields} {job : IngestionJob} (h : make fields = .ok job) :
    job.toIngestionJobFields = fields := by
  obtain ⟨_, rfl⟩ := construct_eq_ok.mp h
  rfl

theorem make_of_check {fields : IngestionJobFields} (h : fields.check = .ok ()) :
    make fields = .ok ⟨fields, h⟩ := construct_of_check h

def assertWorker (workerId : String) : Except Raised Unit :=
  refuse (¬IngestionPatterns.worker workerId) WORKER_REQUIRED

def assertLease (job : IngestionJob) (workerId : String) (now : DateTime) :
    Except Raised Unit := do
  assertWorker workerId
  refuse (job.status ≠ .running ∨ job.leaseOwner ≠ some workerId ∨ job.leaseExpiresAt = none)
    STALE_LEASE
  let now ← inUtc now
  refuse (∃ lease ∈ job.leaseExpiresAt, lease ≤ now) STALE_LEASE

def claim (job : IngestionJob) (workerId : String) (now leaseExpiresAt : DateTime) :
    Except Raised IngestionJob := do
  assertWorker workerId
  refuse (job.status ≠ .pending) INVALID_TRANSITION
  let now ← inUtc now
  let leaseExpiresAt ← inUtc leaseExpiresAt
  refuse (leaseExpiresAt ≤ now) INVALID_TRANSITION
  make { job.toIngestionJobFields with
    status := .running
    attempts := job.attempts + 1
    leaseOwner := some workerId
    leaseExpiresAt := some leaseExpiresAt
    startedAt := some (job.startedAt.getD now)
    nextAttemptAt := none
    lastErrorCode := none }

def heartbeat (job : IngestionJob) (workerId : String) (now leaseExpiresAt : DateTime) :
    Except Raised IngestionJob := do
  job.assertLease workerId now
  refuse (job.leaseExpiresAt = none) STALE_LEASE
  let leaseExpiresAt ← inUtc leaseExpiresAt
  let now ← inUtc now
  refuse (leaseExpiresAt ≤ now ∨ ∃ current ∈ job.leaseExpiresAt, leaseExpiresAt ≤ current)
    INVALID_TRANSITION
  make { job.toIngestionJobFields with leaseExpiresAt := some leaseExpiresAt }

def succeed (job : IngestionJob) (workerId : String) (now : DateTime) :
    Except Raised IngestionJob := do
  job.assertLease workerId now
  let now ← inUtc now
  make { job.toIngestionJobFields with
    status := .succeeded
    leaseOwner := none
    leaseExpiresAt := none
    finishedAt := some now
    lastErrorCode := none }

def fail (job : IngestionJob) (workerId : String) (now : DateTime) (errorCode : String) :
    Except Raised IngestionJob := do
  job.assertLease workerId now
  let now ← inUtc now
  make { job.toIngestionJobFields with
    status := .failed
    leaseOwner := none
    leaseExpiresAt := none
    finishedAt := some now
    lastErrorCode := some errorCode }

def retry (job : IngestionJob) (workerId : String) (now nextAttemptAt : DateTime)
    (errorCode : String) : Except Raised IngestionJob := do
  job.assertLease workerId now
  let next ← inUtc nextAttemptAt
  let instant ← inUtc now
  refuse (next ≤ instant) INVALID_TRANSITION
  if job.attempts ≥ job.maxAttempts then
    job.fail workerId now errorCode
  else
    make { job.toIngestionJobFields with
      status := .pending
      leaseOwner := none
      leaseExpiresAt := none
      nextAttemptAt := some next
      lastErrorCode := some errorCode }

def cancel (job : IngestionJob) (now : DateTime) : Except Raised IngestionJob := do
  refuse (job.status ≠ .pending) INVALID_TRANSITION
  let now ← inUtc now
  make { job.toIngestionJobFields with
    status := .cancelled
    finishedAt := some now
    lastErrorCode := none
    nextAttemptAt := none }

def reclaim (job : IngestionJob) (now nextAttemptAt : DateTime) : Except Raised IngestionJob := do
  refuse (job.status ≠ .running) INVALID_TRANSITION
  refuse (job.leaseExpiresAt = none) INVALID_TRANSITION
  let instant ← inUtc now
  refuse (∃ lease ∈ job.leaseExpiresAt, instant < lease) INVALID_TRANSITION
  let next ← inUtc nextAttemptAt
  refuse (next ≤ instant ∧ job.attempts < job.maxAttempts) INVALID_TRANSITION
  if job.attempts ≥ job.maxAttempts then
    make { job.toIngestionJobFields with
      status := .failed
      leaseOwner := none
      leaseExpiresAt := none
      finishedAt := some instant
      lastErrorCode := some LEASE_EXPIRED_MAX_ATTEMPTS_ERROR_CODE }
  else
    make { job.toIngestionJobFields with
      status := .pending
      leaseOwner := none
      leaseExpiresAt := none
      nextAttemptAt := some next
      lastErrorCode := some LEASE_EXPIRED_ERROR_CODE }

/-- What `assertLease` has checked when it passes. -/
structure Leased (job : IngestionJob) (workerId : String) (now lease : DateTime) : Prop where
  worker : IngestionPatterns.worker workerId = true
  running : job.status = .running
  owner : job.leaseOwner = some workerId
  expires : job.leaseExpiresAt = some lease
  current : now.toUtc < lease

theorem assertLease_bind_ok {α : Type} {job : IngestionJob} {workerId : String} {now : DateTime}
    {f : Unit → Except Raised α} {a : α} (h : (job.assertLease workerId now >>= f) = .ok a) :
    ∃ lease, Leased job workerId now lease ∧ f () = .ok a := by
  obtain ⟨checked, h⟩ := (unit_bind_eq_ok _).mp h
  simp only [assertLease, assertWorker, reject_bind_eq_ok, inUtc_bind_eq_ok, reject_eq_ok,
    Bool.not_eq_true, Bool.not_eq_false, not_or, not_not] at checked
  obtain ⟨worker, ⟨running, owner, some_lease⟩, -, late⟩ := checked
  obtain ⟨lease, hlease⟩ := Option.ne_none_iff_exists'.mp some_lease
  refine ⟨lease, ⟨worker, running, owner, hlease, ?_⟩, h⟩
  by_contra early
  exact late ⟨lease, hlease, DateTime.not_lt.mp early⟩

theorem claim_ok {job updated : IngestionJob} {workerId : String} {now lease : DateTime}
    (h : job.claim workerId now lease = .ok updated) :
    IngestionPatterns.worker workerId = true ∧ job.status = .pending ∧
      now.toUtc < lease.toUtc ∧ updated.toIngestionJobFields = { job.toIngestionJobFields with
        status := .running
        attempts := job.attempts + 1
        leaseOwner := some workerId
        leaseExpiresAt := some lease.toUtc
        startedAt := some (job.startedAt.getD now.toUtc)
        nextAttemptAt := none
        lastErrorCode := none } := by
  simp only [claim, assertWorker, reject_bind_eq_ok, inUtc_bind_eq_ok, Bool.not_eq_true,
    Bool.not_eq_false, not_not] at h
  obtain ⟨worker, pending, -, -, late, made⟩ := h
  refine ⟨worker, pending, ?_, make_ok made⟩
  by_contra early
  exact late (DateTime.not_lt.mp early)

theorem heartbeat_ok {job updated : IngestionJob} {workerId : String} {now extended : DateTime}
    (h : job.heartbeat workerId now extended = .ok updated) :
    ∃ lease, Leased job workerId now lease ∧ lease < extended.toUtc ∧
      updated.toIngestionJobFields =
        { job.toIngestionJobFields with leaseExpiresAt := some extended.toUtc } := by
  obtain ⟨lease, leased, h⟩ := assertLease_bind_ok h
  simp only [reject_bind_eq_ok, inUtc_bind_eq_ok, not_or] at h
  obtain ⟨-, -, -, ⟨-, later⟩, made⟩ := h
  refine ⟨lease, leased, ?_, make_ok made⟩
  by_contra early
  exact later ⟨lease, leased.expires, DateTime.not_lt.mp early⟩

theorem succeed_ok {job updated : IngestionJob} {workerId : String} {now : DateTime}
    (h : job.succeed workerId now = .ok updated) :
    ∃ lease, Leased job workerId now lease ∧
      updated.toIngestionJobFields = { job.toIngestionJobFields with
        status := .succeeded
        leaseOwner := none
        leaseExpiresAt := none
        finishedAt := some now.toUtc
        lastErrorCode := none } := by
  obtain ⟨lease, leased, h⟩ := assertLease_bind_ok h
  rw [inUtc_bind_eq_ok] at h
  exact ⟨lease, leased, make_ok h.2⟩

theorem fail_ok {job updated : IngestionJob} {workerId errorCode : String} {now : DateTime}
    (h : job.fail workerId now errorCode = .ok updated) :
    ∃ lease, Leased job workerId now lease ∧
      updated.toIngestionJobFields = { job.toIngestionJobFields with
        status := .failed
        leaseOwner := none
        leaseExpiresAt := none
        finishedAt := some now.toUtc
        lastErrorCode := some errorCode } := by
  obtain ⟨lease, leased, h⟩ := assertLease_bind_ok h
  rw [inUtc_bind_eq_ok] at h
  exact ⟨lease, leased, make_ok h.2⟩

theorem retry_ok {job updated : IngestionJob} {workerId errorCode : String}
    {now next : DateTime} (below : job.attempts < job.maxAttempts)
    (h : job.retry workerId now next errorCode = .ok updated) :
    ∃ lease, Leased job workerId now lease ∧
      updated.toIngestionJobFields = { job.toIngestionJobFields with
        status := .pending
        leaseOwner := none
        leaseExpiresAt := none
        nextAttemptAt := some next.toUtc
        lastErrorCode := some errorCode } := by
  obtain ⟨lease, leased, h⟩ := assertLease_bind_ok h
  simp only [inUtc_bind_eq_ok, reject_bind_eq_ok] at h
  obtain ⟨-, -, -, h⟩ := h
  rw [if_neg (by omega)] at h
  exact ⟨lease, leased, make_ok h⟩

theorem cancel_ok {job updated : IngestionJob} {now : DateTime}
    (h : job.cancel now = .ok updated) :
    job.status = .pending ∧ updated.toIngestionJobFields = { job.toIngestionJobFields with
      status := .cancelled
      finishedAt := some now.toUtc
      lastErrorCode := none
      nextAttemptAt := none } := by
  simp only [cancel, reject_bind_eq_ok, inUtc_bind_eq_ok, not_not] at h
  exact ⟨h.1, make_ok h.2.2⟩

theorem reclaim_ok {job updated : IngestionJob} {now next : DateTime}
    (h : job.reclaim now next = .ok updated) :
    job.status = .running ∧ (∃ lease, job.leaseExpiresAt = some lease) ∧
      updated.toIngestionJobFields =
        if job.attempts ≥ job.maxAttempts then { job.toIngestionJobFields with
          status := .failed
          leaseOwner := none
          leaseExpiresAt := none
          finishedAt := some now.toUtc
          lastErrorCode := some LEASE_EXPIRED_MAX_ATTEMPTS_ERROR_CODE }
        else { job.toIngestionJobFields with
          status := .pending
          leaseOwner := none
          leaseExpiresAt := none
          nextAttemptAt := some next.toUtc
          lastErrorCode := some LEASE_EXPIRED_ERROR_CODE } := by
  simp only [reclaim, reject_bind_eq_ok, inUtc_bind_eq_ok, not_not] at h
  obtain ⟨running, some_lease, -, -, -, -, h⟩ := h
  refine ⟨running, Option.ne_none_iff_exists'.mp some_lease, ?_⟩
  split at h
  · rw [if_pos ‹_›]
    exact make_ok h
  · rw [if_neg ‹_›]
    exact make_ok h

theorem checks (job : IngestionJob) :
    job.checkRequest = .ok () ∧ ¬(job.attempts < 0 ∨ job.attempts > job.maxAttempts) ∧
      job.checkTimes = .ok () ∧ job.checkStatus = .ok () := by
  have h := job.valid
  simp only [IngestionJobFields.check, unit_bind_eq_ok, reject_eq_ok] at h
  exact h

/-- A pending job with an attempt left can be claimed at any later instant. -/
theorem claim_isOk (job : IngestionJob) {workerId : String} {now lease : DateTime}
    (worker : IngestionPatterns.worker workerId = true) (pending : job.status = .pending)
    (below : job.attempts < job.maxAttempts) (aware : now.zone = .utc ∧ lease.zone = .utc)
    (created : job.createdAt ≤ now) (late : now < lease) :
    ∃ claimed, job.claim workerId now lease = .ok claimed := by
  obtain ⟨request, attempts, times, status⟩ := job.checks
  have named : workerId ≠ "" := by
    rintro rfl
    cases worker
  have nowUtc : now.toUtc = now := by
    rw [DateTime.toUtc, ← aware.1]
  have leaseUtc : lease.toUtc = lease := by
    rw [DateTime.toUtc, ← aware.2]
  let fields : IngestionJobFields := { job.toIngestionJobFields with
    status := .running
    attempts := job.attempts + 1
    leaseOwner := some workerId
    leaseExpiresAt := some lease
    startedAt := some (job.startedAt.getD now)
    nextAttemptAt := none
    lastErrorCode := none }
  simp only [IngestionJobFields.checkStatus, reject_bind_eq_ok, reject_eq_ok, pending] at status
  have unfinished : job.finishedAt = none := by
    by_contra finished
    exact status.2.2.2.2.2.2.2.2.1 ⟨trivial, finished⟩
  simp only [IngestionJobFields.checkTimes, requireAware_bind_eq_ok, reject_bind_eq_ok,
    reject_eq_ok] at times
  obtain ⟨zones, started, -⟩ := times
  have times' : fields.checkTimes = .ok () := by
    simp only [IngestionJobFields.checkTimes, requireAware_bind_eq_ok, reject_bind_eq_ok,
      reject_eq_ok, fields, unfinished]
    refine ⟨?_, ?_, by simp, by simp, by simp, by simp⟩
    · intro t member
      simp only [List.mem_cons, Option.some.injEq, reduceCtorEq, List.not_mem_nil, or_false,
        false_or] at member
      rcases member with rfl | rfl | rfl | rfl
      · cases hs : job.startedAt with
        | none => simp [aware.1]
        | some first => exact zones first (by simp [hs])
      · simp [aware.2]
      · exact zones _ (by simp)
      · exact zones _ (by simp)
    · rintro ⟨_, ⟨⟩, early⟩
      cases hs : job.startedAt with
      | none =>
          rw [hs] at early
          exact DateTime.not_lt.mpr created early
      | some first =>
          rw [hs] at early
          exact started ⟨first, hs, early⟩
  have status' : fields.checkStatus = .ok () := by
    have attempted : ¬job.attempts + 1 < 1 := by omega
    simp [IngestionJobFields.checkStatus, fields, unfinished, named, attempted,
      IngestionJobStatus.terminal]
  have valid : fields.check = .ok () := by
    simp only [IngestionJobFields.check, unit_bind_eq_ok, reject_eq_ok]
    refine ⟨request, ?_, times', status'⟩
    simp only [fields]
    omega
  refine ⟨⟨fields, valid⟩, ?_⟩
  simp only [claim, assertWorker, reject_bind_eq_ok, inUtc_bind_eq_ok, nowUtc, leaseUtc]
  refine ⟨by simpa using worker, not_not.mpr pending, by simp [aware.1], by simp [aware.2],
    fun early => DateTime.not_lt.mpr early late, make_of_check valid⟩

end IngestionJob

structure IngestionJobEventFields where
  eventId : UUID
  jobId : UUID
  sequenceNumber : Int
  kind : IngestionJobEventKind
  occurredAt : DateTime
  attempt : Int
  workerId : Option String := none
  errorCode : Option String := none
  deriving DecidableEq

def IngestionJobEventKind.needsWorker : IngestionJobEventKind → Bool
  | .claimed | .heartbeat | .succeeded | .failed | .retried => true
  | _ => false

def IngestionJobEventKind.needsErrorCode : IngestionJobEventKind → Bool
  | .retried | .failed | .reclaimed => true
  | _ => false

def IngestionJobEventFields.check (e : IngestionJobEventFields) : Except Raised Unit := do
  refuse (e.sequenceNumber < 1 ∨ e.attempt < 0) INVALID_TRANSITION
  requireAware [e.occurredAt]
  refuse (∃ worker ∈ e.workerId, ¬IngestionPatterns.worker worker) WORKER_REQUIRED
  refuse (∃ code ∈ e.errorCode, code ∉ ALLOWED_INGESTION_ERROR_CODES) ERROR_CODE_NOT_ALLOWLISTED
  refuse (e.kind.needsWorker ∧ e.workerId = none) WORKER_REQUIRED
  refuse (e.kind.needsErrorCode ∧ e.errorCode = none) ERROR_CODE_NOT_ALLOWLISTED
  refuse (¬e.kind.needsErrorCode ∧ e.errorCode ≠ none) INVALID_TRANSITION

structure IngestionJobEvent extends IngestionJobEventFields where
  valid : toIngestionJobEventFields.check = .ok ()
  deriving DecidableEq

namespace IngestionJobEvent

def make (fields : IngestionJobEventFields) : Except Raised IngestionJobEvent :=
  construct IngestionJobEventFields.check IngestionJobEvent.mk fields

theorem make_ok {fields : IngestionJobEventFields} {event : IngestionJobEvent}
    (h : make fields = .ok event) : event.toIngestionJobEventFields = fields := by
  obtain ⟨_, rfl⟩ := construct_eq_ok.mp h
  rfl

theorem make_of_check {fields : IngestionJobEventFields} (h : fields.check = .ok ()) :
    make fields = .ok ⟨fields, h⟩ := construct_of_check h

end IngestionJobEvent

end Cinegraph
