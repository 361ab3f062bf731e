import Cinegraph.AgentJobs.Result
import Cinegraph.Domain.SpoilerPolicy

/-!
The agent job resource, its lifecycle transitions and its event records. A job
is its field values together with the proof that the constructor accepts them,
so every transition that returns a job has passed the checks again.
-/

namespace Cinegraph

open Library

namespace AgentJobErrorMessages

def EXECUTION_FAILED : String := "agent_execution_failed"
def DISPATCH_UNAVAILABLE : String := "agent_dispatch_unavailable"
def IDEMPOTENCY_CONFLICT : String := "Idempotency key was reused for a different request."
def SYSTEM_UNAVAILABLE : String := "Agent job system is unavailable."
def CANDIDATES_UNIQUE : String := "Agent job candidate episodes must be unique."
def JOB_QUESTION : String := "Agent job question must be non-empty and trimmed."
def JOB_CANDIDATES : String := "Agent job candidates must be a non-empty immutable tuple."
def JOB_CANDIDATE_SERIES : String := "Agent job candidates must belong to series_id."
def JOB_CANDIDATE_ACCESS : String := "Agent job candidates must be entitled."
def JOB_SCOPE_REVISION : String := "Agent job permission revision must match its scope."
def JOB_IDEMPOTENCY : String := "Agent job idempotency key must be a canonical UUID."
def JOB_FINGERPRINT : String := "Agent job request fingerprint must be a SHA-256 digest."
def JOB_STARTED_ORDER : String := "Agent job started_at cannot predate created_at."
def JOB_FINISHED_START : String := "Agent job finished_at requires started_at except rejection."
def JOB_FINISHED_CREATED_ORDER : String := "Agent job finished_at cannot predate created_at."
def JOB_FINISHED_STARTED_ORDER : String := "Agent job finished_at cannot predate started_at."
def JOB_QUEUED_STATE : String := "Queued agent job execution fields are incoherent."
def JOB_RUNNING_STATE : String := "Running agent job execution fields are incoherent."
def JOB_SUCCESS_STATE : String := "Successful agent job requires result and finished_at."
def JOB_SUCCESS_REFUSAL : String := "Succeeded agent job cannot contain a refusal result."
def JOB_REFUSAL_STATE : String := "Safe-refusal agent job requires a refusal result."
def JOB_FAILED_STATE : String := "Failed agent job requires a sanitized code and finished_at."
def JOB_ERROR_CODE : String := "Agent job error code must be bounded and trimmed."
def JOB_REJECT_STATE : String := "Only queued agent jobs can be rejected."
def REQUEST_ID : String := "request_id is not a sanitized request identifier"
def EVENT_SEQUENCE : String := "Agent job event sequence must be a positive integer."
def EVENT_PAYLOAD_PRIVATE : String := "Agent job event payload contains private fields."
def EVENT_PAYLOAD_FINITE : String := "Agent job event payload numbers must be finite."
def REPOSITORY_ID_CONFLICT : String := "Agent job ID already exists."
def REPOSITORY_TERMINAL_CLAIM : String := "Terminal agent jobs cannot be claimed."
def REPOSITORY_COMPLETE_STATE : String := "Only running agent jobs can complete."
def REPOSITORY_FAIL_STATE : String := "Only running agent jobs can fail."
def REPOSITORY_REJECT_STATE : String := "Only queued agent jobs can be rejected."
def REPOSITORY_RECOVER_STATE : String := "Only running agent jobs can be recovered."
def REPOSITORY_RECOVERY_LIMIT : String :=
  "Agent job recovery limits must be positive integers."
def REPOSITORY_JOB_NOT_FOUND : String := "Agent job was not found in the repository."
def REPOSITORY_EVENT_STATE : String := "Agent job event kind must match current status."
def REPOSITORY_EVENT_SEQUENCE : String := "Agent job events must be monotonic and contiguous."
def REPOSITORY_EVENT_ID : String := "Agent job event ID must be unique."
def REPOSITORY_EVENT_TIME : String := "Agent job event timestamps must be monotonic."
def REPOSITORY_EVENT_ONCE : String :=
  "An agent job terminal event may only be appended once."
def REPOSITORY_CURSOR : String := "Agent job event cursor must be a nonnegative integer."
def UTC_REQUIRED (label : String) : String := label ++ " must be timezone-aware UTC."

end AgentJobErrorMessages

open AgentJobErrorMessages

def ALLOWED_AGENT_JOB_FAILURE_CODES : List String :=
  ["execution_timeout", "provider_unavailable", "budget_exceeded", EXECUTION_FAILED,
    DISPATCH_UNAVAILABLE]

inductive AgentJobStatus where
  | queued | running | succeeded | safeRefusal | failed
  deriving DecidableEq, Repr

def AgentJobStatus.members : List AgentJobStatus :=
  [.queued, .running, .succeeded, .safeRefusal, .failed]

def AgentJobStatus.value : AgentJobStatus → String
  | .queued => "queued"
  | .running => "running"
  | .succeeded => "succeeded"
  | .safeRefusal => "safe_refusal"
  | .failed => "failed"

def AgentJobStatus.terminal : AgentJobStatus → Bool
  | .succeeded | .safeRefusal | .failed => true
  | .queued | .running => false

inductive AgentJobEventKind where
  | queued | running | succeeded | safeRefusal | failed
  deriving DecidableEq, Repr

def AgentJobEventKind.members : List AgentJobEventKind :=
  [.queued, .running, .succeeded, .safeRefusal, .failed]

def AgentJobEventKind.value : AgentJobEventKind → String
  | .queued => "queued"
  | .running => "running"
  | .succeeded => "succeeded"
  | .safeRefusal => "safe_refusal"
  | .failed => "failed"

/-- `AgentJobEventKind(status.value)`. -/
def AgentJobStatus.eventKind : AgentJobStatus → AgentJobEventKind
  | .queued => .queued
  | .running => .running
  | .succeeded => .succeeded
  | .safeRefusal => .safeRefusal
  | .failed => .failed

def AgentJobEventKind.terminal : AgentJobEventKind → Bool
  | .succeeded | .safeRefusal | .failed => true
  | .queued | .running => false

@[simp] theorem AgentJobStatus.terminal_eventKind (status : AgentJobStatus) :
    status.eventKind.terminal = status.terminal := by
  cases status <;> rfl

/-- `_utc`. -/
def requireUtc (value : DateTime) (label : String) : Except Raised Unit :=
  if value.zone = .utc then .ok () else .error (valueError (UTC_REQUIRED label))

@[simp] theorem requireUtc_eq_ok {value : DateTime} {label : String} {u : Unit} :
    requireUtc value label = .ok u ↔ value.zone = .utc := by
  unfold requireUtc
  split <;> simp_all

@[simp] theorem requireUtc_bind_eq_ok {α : Type} {value : DateTime} {label : String}
    {f : Unit → Except Raised α} {a : α} :
    (requireUtc value label >>= f) = .ok a ↔ value.zone = .utc ∧ f () = .ok a := by
  unfold requireUtc
  split
  · exact (and_iff_right ‹_›).symm
  · exact iff_of_false (fun h => by cases h) (fun h => ‹¬_› h.1)

def fingerprintValid (text : String) : Bool :=
  text.length = 64 && text.toList.all (fun c => isDigit c || 'a' ≤ c && c ≤ 'f')

def requestIdValid (text : String) : Bool :=
  1 ≤ text.length && text.length ≤ 64 && text.toList.all (fun c =>
    'A' ≤ c && c ≤ 'Z' || isLower c || isDigit c || c = '.' || c = '_' || c = '-')

variable [Normalization]

structure AgentJobFields where
  jobId : UUID
  ownerProfileId : UUID
  threadId : UUID
  seriesId : UUID
  question : String
  candidateEpisodes : List EpisodeRef
  corpusAccessScope : CorpusAccessScope
  permissionScopeRevision : String
  idempotencyKey : String
  requestFingerprint : String
  createdAt : DateTime
  status : AgentJobStatus := .queued
  startedAt : Option DateTime := none
  finishedAt : Option DateTime := none
  result : Option SeriesAgentResult := none
  errorCode : Option String := none
  requestId : Option String := none
  spoilerMode : SpoilerMode := .relaxed
  safeThroughEpisodeId : Option UUID := none
  deriving DecidableEq

namespace AgentJobFields

/-- The first half of `__post_init__`: the request the job was created for. -/
def checkRequest (j : AgentJobFields) : Except Raised Unit := do
  reject (j.spoilerMode = .relaxed ∧ j.safeThroughEpisodeId.isSome) SPOILER_BOUNDARY_INVALID
  reject (∃ boundary ∈ j.safeThroughEpisodeId,
    boundary ∉ j.candidateEpisodes.map EpisodeRef.episodeId) SPOILER_BOUNDARY_INVALID
  reject (j.question = "" ∨ Text.strip j.question ≠ j.question) JOB_QUESTION
  reject (j.candidateEpisodes = []) JOB_CANDIDATES
  reject (∃ item ∈ j.candidateEpisodes, item.seriesId ≠ j.seriesId) JOB_CANDIDATE_SERIES
  reject (¬(j.candidateEpisodes.map EpisodeRef.episodeId).Nodup) CANDIDATES_UNIQUE
  reject (¬j.corpusAccessScope.allowsAll j.candidateEpisodes) JOB_CANDIDATE_ACCESS
  reject (j.permissionScopeRevision ≠ j.corpusAccessScope.revision) JOB_SCOPE_REVISION
  reject ((UUID.canonical? j.idempotencyKey).isNone) JOB_IDEMPOTENCY
  reject (¬fingerprintValid j.requestFingerprint) JOB_FINGERPRINT
  reject (∃ requestId ∈ j.requestId, ¬requestIdValid requestId) REQUEST_ID
  requireUtc j.createdAt "created_at"

def checkStarted (j : AgentJobFields) : Except Raised Unit :=
  match j.startedAt with
  | none => .ok ()
  | some started => do
      requireUtc started "started_at"
      reject (started < j.createdAt) JOB_STARTED_ORDER

def checkFinished (j : AgentJobFields) : Except Raised Unit :=
  match j.finishedAt with
  | none => .ok ()
  | some finished => do
      requireUtc finished "finished_at"
      match j.startedAt with
      | none => do
          reject (j.status ≠ .failed) JOB_FINISHED_START
          reject (finished < j.createdAt) JOB_FINISHED_CREATED_ORDER
      | some started => reject (finished < started) JOB_FINISHED_STARTED_ORDER

/-- The last part of `__post_init__`: each status admits only its own fields. -/
def checkStatus (j : AgentJobFields) : Except Raised Unit := do
  reject (j.status = .queued ∧ (j.startedAt.isSome ∨ j.finishedAt.isSome ∨ j.result.isSome ∨
    j.errorCode.isSome)) JOB_QUEUED_STATE
  reject (j.status = .running ∧ (j.startedAt.isNone ∨ j.finishedAt.isSome ∨ j.result.isSome ∨
    j.errorCode.isSome)) JOB_RUNNING_STATE
  reject ((j.status = .succeeded ∨ j.status = .safeRefusal) ∧
    (j.finishedAt.isNone ∨ j.errorCode.isSome ∨ j.result.isNone)) JOB_SUCCESS_STATE
  reject (∃ result ∈ j.result, j.status = .succeeded ∧ result.isSafeRefusal)
    JOB_SUCCESS_REFUSAL
  reject (∃ result ∈ j.result, j.status = .safeRefusal ∧ ¬result.isSafeRefusal)
    JOB_REFUSAL_STATE
  reject (j.status = .failed ∧ (j.finishedAt.isNone ∨ j.errorCode = none ∨ j.errorCode = some "" ∨
    j.result.isSome)) JOB_FAILED_STATE
  reject (j.status = .failed ∧ j.startedAt.isNone ∧ j.errorCode ≠ some DISPATCH_UNAVAILABLE)
    JOB_FAILED_STATE
  reject (j.status = .failed ∧ ¬∃ code ∈ j.errorCode, code ∈ ALLOWED_AGENT_JOB_FAILURE_CODES)
    JOB_ERROR_CODE

def check (j : AgentJobFields) : Except Raised Unit := do
  j.checkRequest
  j.checkStarted
  j.checkFinished
  j.checkStatus

end AgentJobFields

structure AgentJob extends AgentJobFields where
  valid : toAgentJobFields.check = .ok ()
  deriving DecidableEq

namespace AgentJob

def make (fields : AgentJobFields) : Except Raised AgentJob :=
  construct AgentJobFields.check AgentJob.mk fields

theorem make_ok {fields : AgentJobFields} {job : AgentJob} (h : make fields = .ok job) :
    job.toAgentJobFields = fields := by
  obtain ⟨_, rfl⟩ := construct_eq_ok.mp h
  rfl

def start (job : AgentJob) (occurredAt : DateTime) : Except Raised AgentJob := do
  requireUtc occurredAt "occurred_at"
  if job.status ≠ .queued then return job
  make { job.toAgentJobFields with status := .running, startedAt := some occurredAt }

def requeueAfterInterruption (job : AgentJob) (occurredAt : DateTime) :
    Except Raised AgentJob := do
  requireUtc occurredAt "occurred_at"
  Cinegraph.reject (job.status ≠ .running) REPOSITORY_RECOVER_STATE
  make { job.toAgentJobFields with status := .queued, startedAt := none }

def complete (job : AgentJob) (result : SeriesAgentResult) (occurredAt : DateTime) :
    Except Raised AgentJob := do
  requireUtc occurredAt "occurred_at"
  if job.status ≠ .running then return job
  let status := if result.isSafeRefusal then .safeRefusal else .succeeded
  make { job.toAgentJobFields with
    status := status, finishedAt := some occurredAt, result := some result }

/-- The bounds `fail` and `reject` put on an error code. -/
def errorCodeValid (errorCode : String) : Bool :=
  errorCode ≠ "" && Text.strip errorCode = errorCode && errorCode.length ≤ 80

def fail (job : AgentJob) (errorCode : String) (occurredAt : DateTime) :
    Except Raised AgentJob := do
  requireUtc occurredAt "occurred_at"
  if job.status ≠ .running then return job
  Cinegraph.reject (¬errorCodeValid errorCode) JOB_ERROR_CODE
  make { job.toAgentJobFields with
    status := .failed, finishedAt := some occurredAt, errorCode := some errorCode }

def reject (job : AgentJob) (errorCode : String) (occurredAt : DateTime) :
    Except Raised AgentJob := do
  requireUtc occurredAt "occurred_at"
  Cinegraph.reject (job.status ≠ .queued) JOB_REJECT_STATE
  Cinegraph.reject (¬errorCodeValid errorCode) JOB_ERROR_CODE
  make { job.toAgentJobFields with
    status := .failed, finishedAt := some occurredAt, errorCode := some errorCode }

/-- A transition in the status it is meant for checks the clock and the new fields. -/
theorem start_ok {job updated : AgentJob} {t : DateTime} (h : job.start t = .ok updated)
    (status : job.status = .queued) :
    t.zone = .utc ∧ updated.toAgentJobFields =
      { job.toAgentJobFields with status := .running, startedAt := some t } := by
  simp only [start, requireUtc_bind_eq_ok, status, ne_eq, not_true, if_false] at h
  exact ⟨h.1, make_ok h.2⟩

theorem requeueAfterInterruption_ok {job updated : AgentJob} {t : DateTime}
    (h : job.requeueAfterInterruption t = .ok updated) :
    t.zone = .utc ∧ job.status = .running ∧ updated.toAgentJobFields =
      { job.toAgentJobFields with status := .queued, startedAt := none } := by
  simp only [requeueAfterInterruption, requireUtc_bind_eq_ok, reject_bind_eq_ok, not_not] at h
  exact ⟨h.1, h.2.1, make_ok h.2.2⟩

theorem complete_ok {job updated : AgentJob} {result : SeriesAgentResult} {t : DateTime}
    (h : job.complete result t = .ok updated) (status : job.status = .running) :
    t.zone = .utc ∧ updated.toAgentJobFields = { job.toAgentJobFields with
      status := if result.isSafeRefusal then .safeRefusal else .succeeded
      finishedAt := some t
      result := some result } := by
  simp only [complete, requireUtc_bind_eq_ok, status, ne_eq, not_true, if_false] at h
  exact ⟨h.1, make_ok h.2⟩

theorem fail_ok {job updated : AgentJob} {errorCode : String} {t : DateTime}
    (h : job.fail errorCode t = .ok updated) (status : job.status = .running) :
    t.zone = .utc ∧ updated.toAgentJobFields = { job.toAgentJobFields with
      status := .failed, finishedAt := some t, errorCode := some errorCode } := by
  simp only [fail, requireUtc_bind_eq_ok, status, ne_eq, not_true, if_false,
    reject_bind_eq_ok] at h
  exact ⟨h.1, make_ok h.2.2⟩

theorem reject_ok {job updated : AgentJob} {errorCode : String} {t : DateTime}
    (h : job.reject errorCode t = .ok updated) :
    t.zone = .utc ∧ job.status = .queued ∧ updated.toAgentJobFields =
      { job.toAgentJobFields with
        status := .failed, finishedAt := some t, errorCode := some errorCode } := by
  simp only [AgentJob.reject, requireUtc_bind_eq_ok, reject_bind_eq_ok, not_not] at h
  exact ⟨h.1, h.2.1, make_ok h.2.2.2⟩

section Facts

theorem make_fields (job : AgentJob) : make job.toAgentJobFields = .ok job :=
  construct_of_check job.valid

private theorem checks (job : AgentJob) :
    job.checkRequest = .ok () ∧ job.checkStarted = .ok () ∧ job.checkFinished = .ok () ∧
      job.checkStatus = .ok () := by
  have h := job.valid
  simp only [AgentJobFields.check, unit_bind_eq_ok] at h
  exact h

theorem createdAt_utc (job : AgentJob) : job.createdAt.zone = .utc := by
  have h := job.checks.1
  simp only [AgentJobFields.checkRequest, reject_bind_eq_ok, requireUtc_eq_ok] at h
  exact h.2.2.2.2.2.2.2.2.2.2.2

theorem idempotencyKey_canonical (job : AgentJob) :
    ∃ u, UUID.canonical? job.idempotencyKey = some u := by
  have h := job.checks.1
  simp only [AgentJobFields.checkRequest, reject_bind_eq_ok, Option.isNone_iff_eq_none] at h
  exact Option.ne_none_iff_exists'.mp h.2.2.2.2.2.2.2.2.1

theorem requestFingerprint_length (job : AgentJob) : job.requestFingerprint.length = 64 := by
  have h := job.checks.1
  simp only [AgentJobFields.checkRequest, reject_bind_eq_ok, not_not] at h
  have valid := h.2.2.2.2.2.2.2.2.2.1
  simp only [fingerprintValid, Bool.and_eq_true, decide_eq_true_eq] at valid
  exact valid.1

theorem startedAt_utc (job : AgentJob) {started : DateTime} (h : job.startedAt = some started) :
    started.zone = .utc ∧ job.createdAt ≤ started := by
  have check := job.checks.2.1
  simp only [AgentJobFields.checkStarted, h, requireUtc_bind_eq_ok, reject_eq_ok,
    DateTime.not_lt] at check
  exact check

theorem finishedAt_utc (job : AgentJob) {finished : DateTime}
    (h : job.finishedAt = some finished) : finished.zone = .utc ∧ job.createdAt ≤ finished := by
  have check := job.checks.2.2.1
  cases hs : job.startedAt with
  | none =>
      simp only [AgentJobFields.checkFinished, h, hs, requireUtc_bind_eq_ok, reject_bind_eq_ok,
        reject_eq_ok, DateTime.not_lt] at check
      exact ⟨check.1, check.2.2⟩
  | some started =>
      simp only [AgentJobFields.checkFinished, h, hs, requireUtc_bind_eq_ok, reject_eq_ok,
        DateTime.not_lt] at check
      exact ⟨check.1, DateTime.le_trans (job.startedAt_utc hs).2 check.2⟩

theorem started_le_finished (job : AgentJob) {started finished : DateTime}
    (hs : job.startedAt = some started) (hf : job.finishedAt = some finished) :
    started ≤ finished := by
  have check := job.checks.2.2.1
  simp only [AgentJobFields.checkFinished, hf, hs, requireUtc_bind_eq_ok, reject_eq_ok,
    DateTime.not_lt] at check
  exact check.2

/-- The execution fields a status admits. -/
theorem execution_fields (job : AgentJob) :
    match job.status with
    | .queued => job.startedAt = none ∧ job.finishedAt = none ∧ job.result = none ∧
        job.errorCode = none
    | .running => (∃ t, job.startedAt = some t) ∧ job.finishedAt = none ∧ job.result = none ∧
        job.errorCode = none
    | .succeeded | .safeRefusal => (∃ t, job.startedAt = some t) ∧
        (∃ t, job.finishedAt = some t) ∧ (∃ r, job.result = some r) ∧ job.errorCode = none
    | .failed => (∃ t, job.finishedAt = some t) ∧ job.result = none ∧
        ∃ code, job.errorCode = some code ∧ code ∈ ALLOWED_AGENT_JOB_FAILURE_CODES := by
  have finishedCheck := job.checks.2.2.1
  have h := job.checks.2.2.2
  simp only [AgentJobFields.checkStatus, reject_bind_eq_ok, reject_eq_ok] at h
  cases hs : job.status with
  | queued =>
      simp only [hs, true_and, not_or, Option.not_isSome_iff_eq_none, Option.isNone_iff_eq_none] at h
      exact h.1
  | running =>
      simp only [hs, true_and, not_or, Option.not_isSome_iff_eq_none, Option.isNone_iff_eq_none,
        ← Option.ne_none_iff_exists'] at h ⊢
      exact h.2.1
  | succeeded | safeRefusal =>
      simp only [hs, true_and, or_true, true_or, not_or, Option.not_isSome_iff_eq_none,
        Option.isNone_iff_eq_none, ← Option.ne_none_iff_exists'] at h ⊢
      refine ⟨?_, h.2.2.1.1, h.2.2.1.2.2, h.2.2.1.2.1⟩
      intro hstarted
      obtain ⟨t, ht⟩ := Option.ne_none_iff_exists'.mp h.2.2.1.1
      simp only [AgentJobFields.checkFinished, ht, hstarted, requireUtc_bind_eq_ok,
        reject_bind_eq_ok, hs] at finishedCheck
      exact finishedCheck.2.1 (by decide)
  | failed =>
      simp only [hs, true_and, not_or, Option.not_isSome_iff_eq_none, Option.isNone_iff_eq_none,
        ← Option.ne_none_iff_exists', not_not] at h ⊢
      exact ⟨h.2.2.2.2.2.1.1, h.2.2.2.2.2.1.2.2.2, h.2.2.2.2.2.2.2⟩

theorem boundary_none (job : AgentJob) (mode : job.spoilerMode = .relaxed) :
    job.safeThroughEpisodeId = none := by
  have h := job.checks.1
  simp only [AgentJobFields.checkRequest, reject_bind_eq_ok, mode, true_and] at h
  simpa using h.1

theorem boundary_candidate (job : AgentJob) {boundary : UUID}
    (h : job.safeThroughEpisodeId = some boundary) :
    ∃ episode ∈ job.candidateEpisodes, episode.episodeId = boundary := by
  have check := job.checks.1
  simp only [AgentJobFields.checkRequest, reject_bind_eq_ok] at check
  have known := check.2.1
  simp only [h, Option.mem_some_iff, exists_eq_left', not_not] at known
  exact List.mem_map.mp known

theorem question_trimmed (job : AgentJob) :
    job.question ≠ "" ∧ Text.strip job.question = job.question := by
  have h := job.checks.1
  simp only [AgentJobFields.checkRequest, reject_bind_eq_ok, not_or, not_not] at h
  exact h.2.2.1

/-- The candidates are episodes of the series, each once. -/
theorem candidates_valid (job : AgentJob) : job.candidateEpisodes ≠ [] ∧
    (∀ item ∈ job.candidateEpisodes, item.seriesId = job.seriesId) ∧
      (job.candidateEpisodes.map EpisodeRef.episodeId).Nodup := by
  have h := job.checks.1
  simp only [AgentJobFields.checkRequest, reject_bind_eq_ok, not_not, not_exists, not_and] at h
  exact ⟨h.2.2.2.1, h.2.2.2.2.1, h.2.2.2.2.2.1⟩

theorem revision_eq (job : AgentJob) :
    job.permissionScopeRevision = job.corpusAccessScope.revision := by
  have h := job.checks.1
  simp only [AgentJobFields.checkRequest, reject_bind_eq_ok, not_not] at h
  exact h.2.2.2.2.2.2.2.1

/-- A running job can be finished at any later UTC instant, with fields that suit
its final status. -/
private theorem finish_valid (job : AgentJob) {started t : DateTime}
    (hs : job.startedAt = some started) (utc : t.zone = .utc) (late : started ≤ t)
    (status : AgentJobStatus) (result : Option SeriesAgentResult) (errorCode : Option String)
    (suits : AgentJobFields.checkStatus { job.toAgentJobFields with
      status := status, finishedAt := some t, result := result, errorCode := errorCode } =
        .ok ()) :
    AgentJobFields.check { job.toAgentJobFields with
      status := status, finishedAt := some t, result := result, errorCode := errorCode } =
        .ok () := by
  simp only [AgentJobFields.check, unit_bind_eq_ok]
  refine ⟨job.checks.1, job.checks.2.1, ?_, suits⟩
  simp only [AgentJobFields.checkFinished, hs, requireUtc_bind_eq_ok, reject_eq_ok]
  exact ⟨utc, DateTime.not_lt.mpr late⟩

/-- A running job can be completed with any result at any later UTC instant. -/
theorem complete_isOk (job : AgentJob) (result : SeriesAgentResult) {started t : DateTime}
    (running : job.status = .running) (hs : job.startedAt = some started)
    (utc : t.zone = .utc) (late : started ≤ t) :
    ∃ updated, job.complete result t = .ok updated := by
  have execution := job.execution_fields
  rw [running] at execution
  obtain ⟨-, -, -, noError⟩ := execution
  have valid := job.finish_valid hs utc late
    (if result.isSafeRefusal then .safeRefusal else .succeeded) (some result) job.errorCode (by
      simp only [AgentJobFields.checkStatus, reject_bind_eq_ok, reject_eq_ok, noError]
      cases h : result.isSafeRefusal <;> simp [h])
  refine ⟨⟨_, valid⟩, ?_⟩
  simp only [complete, requireUtc_bind_eq_ok, running, ne_eq, not_true, if_false]
  exact ⟨utc, make_fields ⟨_, valid⟩⟩

omit [Normalization] in
theorem errorCodeValid_of_allowed {code : String} (h : code ∈ ALLOWED_AGENT_JOB_FAILURE_CODES) :
    errorCodeValid code = true := by
  revert code
  decide

/-- A running job can be failed with any allowed code at any later UTC instant. -/
theorem fail_isOk (job : AgentJob) {errorCode : String} {started t : DateTime}
    (allowed : errorCode ∈ ALLOWED_AGENT_JOB_FAILURE_CODES)
    (running : job.status = .running) (hs : job.startedAt = some started)
    (utc : t.zone = .utc) (late : started ≤ t) :
    ∃ updated, job.fail errorCode t = .ok updated := by
  have execution := job.execution_fields
  rw [running] at execution
  obtain ⟨-, -, noResult, -⟩ := execution
  have nonempty : errorCode ≠ "" := by
    rintro rfl
    revert allowed
    decide
  have valid := job.finish_valid hs utc late .failed job.result (some errorCode) (by
      simp only [AgentJobFields.checkStatus, reject_bind_eq_ok, reject_eq_ok, noResult, hs]
      simp [nonempty, allowed])
  refine ⟨⟨_, valid⟩, ?_⟩
  simp only [fail, requireUtc_bind_eq_ok, running, ne_eq, not_true, if_false, reject_bind_eq_ok,
    errorCodeValid_of_allowed allowed]
  refine ⟨utc, ?_, make_fields ⟨_, valid⟩⟩
  rintro ⟨⟩

end Facts

end AgentJob

end Cinegraph
