import Cinegraph.IngestionJobs.InMemory

/-!
The SQL ingestion job repository under concurrent calls. Every call is a unit of
work of its own, cut into the steps between which others may commit: a call reads
its clock, reads committed rows, and its writes are seen by others on commit.
-/

namespace Cinegraph

open Library IngestionJobErrorMessages

@[simp] theorem DateTime.toUtc_toUtc (value : DateTime) : value.toUtc.toUtc = value.toUtc := rfl

@[simp] theorem DateTime.toUtc_lt (a b : DateTime) : a.toUtc < b.toUtc ↔ a < b := Iff.rfl

@[simp] theorem DateTime.toUtc_zone (value : DateTime) : value.toUtc.zone = .utc := rfl

namespace IngestionJobFields

/-- The fields with every instant in UTC. -/
def utc (j : IngestionJobFields) : IngestionJobFields :=
  { j with
    scheduledAt := j.scheduledAt.toUtc
    createdAt := j.createdAt.toUtc
    leaseExpiresAt := j.leaseExpiresAt.map DateTime.toUtc
    startedAt := j.startedAt.map DateTime.toUtc
    finishedAt := j.finishedAt.map DateTime.toUtc
    nextAttemptAt := j.nextAttemptAt.map DateTime.toUtc }

@[simp] theorem utc_utc (j : IngestionJobFields) : j.utc.utc = j.utc := by
  simp [utc, Option.map_map, Function.comp_def]

theorem checkTimes_utc {j : IngestionJobFields} (checked : j.checkTimes = .ok ()) :
    j.utc.checkTimes = .ok () := by
  simp only [checkTimes, requireAware_bind_eq_ok, reject_bind_eq_ok, reject_eq_ok] at checked ⊢
  obtain ⟨-, started, finished, order, pending, next⟩ := checked
  refine ⟨?_, ?_, ?_, ?_, ?_, ?_⟩
  · intro t member
    simp only [utc, List.mem_cons, List.not_mem_nil, or_false, Option.some.injEq, eq_comm,
      Option.map_eq_some_iff] at member
    rcases member with ⟨_, -, rfl⟩ | ⟨_, -, rfl⟩ | ⟨_, -, rfl⟩ | ⟨_, -, rfl⟩ | rfl | rfl <;>
      exact Zone.noConfusion
  · simpa [utc] using started
  · simpa [utc] using finished
  · simpa [utc] using order
  · simpa [utc] using pending
  · simpa [utc] using next

theorem check_utc {j : IngestionJobFields} (checked : j.check = .ok ()) : j.utc.check = .ok () := by
  simp only [check, unit_bind_eq_ok, reject_eq_ok] at checked ⊢
  obtain ⟨request, attempts, times, status⟩ := checked
  refine ⟨request, attempts, checkTimes_utc times, ?_⟩
  simp only [checkStatus, utc, Option.map_eq_none_iff, ne_eq] at status ⊢
  exact status

end IngestionJobFields

def IngestionJobEventFields.utc (e : IngestionJobEventFields) : IngestionJobEventFields :=
  { e with occurredAt := e.occurredAt.toUtc }

theorem IngestionJobEventFields.check_utc {e : IngestionJobEventFields} (checked : e.check = .ok ()) :
    e.utc.check = .ok () := by
  simp only [check, requireAware_bind_eq_ok, reject_bind_eq_ok, reject_eq_ok] at checked ⊢
  refine ⟨checked.1, ?_, checked.2.2⟩
  rintro t (_ | ⟨_, ⟨⟩⟩)
  exact Zone.noConfusion

/-- A row of the job table: the values of a job, with its instants in UTC. -/
abbrev IngestionJobRow := IngestionJob

/-- The two tables; events stand in the order in which they were committed. -/
structure IngestionTables where
  jobs : List IngestionJobRow
  events : List IngestionJobEvent
  deriving DecidableEq

def IngestionTables.empty : IngestionTables := ⟨[], []⟩

namespace SqlAlchemyIngestionJobRepository

/-- `_row_values` -/
def rowValues (job : IngestionJob) : IngestionJobRow :=
  ⟨job.utc, IngestionJobFields.check_utc job.valid⟩

/-- `_job_from_row` -/
def jobFromRow (row : IngestionJobRow) : IngestionJob :=
  ⟨row.utc, IngestionJobFields.check_utc row.valid⟩

def eventRow (event : IngestionJobEvent) : IngestionJobEvent :=
  ⟨event.utc, IngestionJobEventFields.check_utc event.valid⟩

variable (tables : IngestionTables)

def getByIdempotencyKey (key : String) : Option IngestionJobRow :=
  tables.jobs.find? (·.idempotencyKey = key)

def getRow (jobId : UUID) : Option IngestionJobRow := tables.jobs.find? (·.jobId = jobId)

def events (jobId : UUID) : List IngestionJobEvent :=
  (tables.events.filter (·.jobId = jobId)).insertionSort
    fun a b => a.sequenceNumber ≤ b.sequenceNumber

/-- The unique columns of two job rows agree. -/
def sameJob (a b : IngestionJobRow) : Bool :=
  a.jobId = b.jobId || a.idempotencyKey = b.idempotencyKey

/-- The unique columns of two event rows agree. -/
def sameEvent (a b : IngestionJobEvent) : Bool :=
  (a.jobId = b.jobId && a.sequenceNumber = b.sequenceNumber) || a.eventId = b.eventId

/-- The row that an UPDATE of the job's row leaves. -/
def update (job : IngestionJob) : IngestionTables :=
  { tables with jobs := tables.jobs.map fun row => if row.jobId = job.jobId then rowValues job else row }

/-- A row that `claim_next` may select. -/
def isDue (now : DateTime) (row : IngestionJobRow) : Bool :=
  row.status = .pending && row.scheduledAt ≤ now && row.nextAttemptAt.all (· ≤ now)

/-- The condition of `save_owned`, `save_pending` and `save_reclaimed`, and what they say where
no row meets it. -/
def saveCondition (now : DateTime) (row : IngestionJobRow) : IngestionJobService.SaveGuard → Bool
  | .owned workerId expected =>
      row.status = .running && row.leaseOwner = some workerId &&
        row.leaseExpiresAt.any fun lease => lease.same expected && now < lease
  | .pending => row.status = .pending
  | .reclaimed expected =>
      row.status = .running && row.leaseExpiresAt.any fun lease => lease.same expected && lease ≤ now

def saveMessage : IngestionJobService.SaveGuard → String
  | .owned _ _ => "The worker lease is no longer valid for this ingestion job."
  | .pending => "The pending ingestion job changed before cancellation."
  | .reclaimed _ => "The ingestion job lease changed before reclaim."

def integrityError (constraint : String) : Raised := ⟨.operational, constraint⟩

end SqlAlchemyIngestionJobRepository

/-- The operations on a stored job. -/
inductive IngestionOperation where
  | claimNext (workerId : String)
  | heartbeat (jobId : UUID) (workerId : String)
  | succeed (jobId : UUID) (workerId : String)
  | failOrRetry (jobId : UUID) (workerId errorCode : String)
  | cancel (jobId : UUID)
  | reclaimExpired (jobId : UUID)
  deriving DecidableEq

namespace IngestionOperation

open IngestionJobService SqlAlchemyIngestionJobRepository

/-- The job an operation is called for; `claim_next` finds its own. -/
def jobId? : IngestionOperation → Option UUID
  | claimNext _ => none
  | heartbeat jobId _ | succeed jobId _ | failOrRetry jobId _ _ | cancel jobId
  | reclaimExpired jobId => some jobId

variable (configuration : IngestionJobConfiguration) (now : DateTime)

/-- The plan of `claim_next` for the row it has selected. -/
def claimPlan (workerId : String) (job : IngestionJob) : Except Raised Plan := do
  let updated ← job.claim workerId now.toUtc (now.add configuration.leaseDuration)
  return ⟨updated, .pending, .claimed, some workerId, none⟩

def plan : IngestionOperation → IngestionJob → Except Raised Plan
  | claimNext workerId => claimPlan configuration now workerId
  | heartbeat _ workerId => heartbeatPlan configuration workerId now
  | succeed _ workerId => succeedPlan workerId now
  | failOrRetry _ workerId errorCode => failOrRetryPlan configuration workerId errorCode now
  | cancel _ => cancelPlan now
  | reclaimExpired _ => reclaimPlan configuration now

/-- The condition of the UPDATE of a plan. -/
def condition (plan : Plan) (row : IngestionJobRow) : IngestionOperation → Bool
  | claimNext _ => isDue now row
  | _ => saveCondition now row plan.guard

end IngestionOperation

/-- The UPDATE that an operation has planned for the row that it has read. -/
structure PlannedUpdate where
  operation : IngestionOperation
  now : DateTime
  read : IngestionJobRow
  plan : IngestionJobService.Plan

/-- How far a call is. -/
inductive IngestionPhase where
  | enqueueing (command : EnqueueIngestionJob) (now : DateTime)
  | lookedUp (job : IngestionJob) (now : DateTime)
  /-- `add` has run: the row that holds the key, and whether it is the call's own. -/
  | added (job : IngestionJob) (stored : IngestionJobRow) (own : Bool) (now : DateTime)
  | appended (job : IngestionJob) (stored : IngestionJobRow) (own : Bool) (event : IngestionJobEvent)
  | reading (operation : IngestionOperation) (now : DateTime)
  | updating (planned : PlannedUpdate)
  /-- The call has returned a job; its lookup, insert or update left this row. -/
  | returned (job : IngestionJob) (stored : IngestionJobRow)
  | returnedNone
  | raised (error : Raised)

/-- The committed tables, the last reading of the clock and the calls by their number. -/
structure IngestionSystem where
  tables : IngestionTables
  clock : DateTime
  calls : List IngestionPhase

inductive IngestionAction where
  | enqueue (command : EnqueueIngestionJob) (now : DateTime)
  | operate (operation : IngestionOperation) (now : DateTime)
  /-- The next step of a call; a claim gets the chosen row, the first one not locked. -/
  | proceed (call : Nat) (chosen : UUID)
  /-- The transaction of a call fails or its process dies. -/
  | rollback (call : Nat)

namespace IngestionPhase

open SqlAlchemyIngestionJobRepository

/-- The job row that a call has inserted and not committed. -/
def heldRow : IngestionPhase → Option IngestionJobRow
  | added job _ true _ | appended job _ true _ => some (rowValues job)
  | _ => none

/-- The event row that a call has inserted and not committed. -/
def heldEvent : IngestionPhase → Option IngestionJobEvent
  | appended _ _ _ event => some event
  | _ => none

/-- The UPDATE that a call has planned and not made. -/
def planned? : IngestionPhase → Option PlannedUpdate
  | updating planned => some planned
  | _ => none

def isOpen : IngestionPhase → Bool
  | returned _ _ | returnedNone | raised _ => false
  | _ => true

end IngestionPhase

namespace IngestionSystem

open IngestionJobService SqlAlchemyIngestionJobRepository

def start (tables : IngestionTables) (clock : DateTime) : IngestionSystem := ⟨tables, clock, []⟩

variable (configuration : IngestionJobConfiguration) (s : IngestionSystem)

/-- Another transaction has inserted a row with the unique columns of this one: wait for it. -/
def rowLocked (row : IngestionJobRow) : Bool :=
  s.calls.any fun phase => phase.heldRow.any (sameJob row)

def eventLocked (event : IngestionJobEvent) : Bool :=
  s.calls.any fun phase => phase.heldEvent.any (sameEvent event)

/-- The steps of `enqueue`: lookup, insert, event, commit. Nothing where the call has to wait. -/
def enqueueStep : IngestionPhase → Option (IngestionTables × IngestionPhase)
  | .enqueueing command now =>
      match newJob configuration command now with
      | .error e => some (s.tables, .raised e)
      | .ok job =>
          match getByIdempotencyKey s.tables job.idempotencyKey with
          | some existing => some (s.tables, .returned (jobFromRow existing) existing)
          | none => some (s.tables, .lookedUp job now)
  | .lookedUp job now =>
      if s.rowLocked (rowValues job) then none
      else if s.tables.jobs.any (sameJob (rowValues job)) then
        match getByIdempotencyKey s.tables job.idempotencyKey with
        | none => some (s.tables, .raised (integrityError "ingestion_jobs_pkey"))
        | some winner =>
            if winner.jobId ≠ job.jobId then some (s.tables, .returned (jobFromRow winner) winner)
            else some (s.tables, .added job winner false now)
      else some (s.tables, .added job (rowValues job) true now)
  | .added job stored own now =>
      match newEvent job .enqueued now none none (events s.tables job.jobId).length with
      | .error e => some (s.tables, .raised e)
      | .ok event =>
          if s.eventLocked event then none
          else if s.tables.events.any (sameEvent event) then
            some (s.tables, .raised (integrityError "uq_ingestion_job_events_sequence"))
          else some (s.tables, .appended job stored own event)
  | .appended job stored own event =>
      some (⟨if own then s.tables.jobs ++ [rowValues job] else s.tables.jobs,
        s.tables.events ++ [eventRow event]⟩, .returned job stored)
  | _ => none

/-- The steps of the other operations: the read, and the UPDATE with its event and the commit,
between which the row is locked. -/
def operationStep (chosen : UUID) : IngestionPhase → Option (IngestionTables × IngestionPhase)
  | .reading operation now =>
      match operation.jobId?, getRow s.tables (operation.jobId?.getD chosen) with
      | some jobId, none => some (s.tables, .raised ⟨.keyError, jobId.str⟩)
      | none, none => some (s.tables, .returnedNone)
      | target, some row =>
          if target = none ∧ isDue now row = false then some (s.tables, .returnedNone)
          else
            match operation.plan configuration now (jobFromRow row) with
            | .error e => some (s.tables, .raised e)
            | .ok plan => some (s.tables, .updating ⟨operation, now, row, plan⟩)
  | .updating ⟨operation, now, _, plan⟩ =>
      if (getRow s.tables plan.updated.jobId).any fun row => operation.condition now plan row then
        match newEvent plan.updated plan.kind now plan.workerId plan.errorCode
            (events s.tables plan.updated.jobId).length with
        | .error e => some (s.tables, .raised e)
        | .ok event =>
            if s.eventLocked event then none
            else if s.tables.events.any (sameEvent event) then
              some (s.tables, .raised (integrityError "uq_ingestion_job_events_sequence"))
            else
              let tables := update s.tables plan.updated
              some (⟨tables.jobs, tables.events ++ [eventRow event]⟩,
                .returned plan.updated (rowValues plan.updated))
      else if operation.jobId? = none then some (s.tables, .returnedNone)
      else some (s.tables, .raised (valueError (saveMessage plan.guard)))
  | _ => none

def enter (now : DateTime) (phase : IngestionPhase) : Option IngestionSystem :=
  if s.clock ≤ now then some { s with clock := now, calls := s.calls ++ [phase] } else none

def step : IngestionAction → Option IngestionSystem
  | .enqueue command now => s.enter now (.enqueueing command now)
  | .operate operation now =>
      match operation with
      | .failOrRetry _ _ errorCode =>
          if errorCode ∉ ALLOWED_INGESTION_ERROR_CODES then
            s.enter s.clock (.raised (valueError ERROR_CODE_NOT_ALLOWLISTED))
          else s.enter now (.reading operation now)
      | _ => s.enter now (.reading operation now)
  | .proceed call chosen => do
      let phase ← s.calls[call]?
      let (tables, phase) ← (s.enqueueStep configuration phase).or
        (s.operationStep configuration chosen phase)
      some { s with tables, calls := s.calls.set call phase }
  | .rollback call => do
      let phase ← s.calls[call]?
      if phase.isOpen then
        some { s with calls := s.calls.set call (.raised ⟨.operational, "rolled back"⟩) }
      else none

end IngestionSystem

end Cinegraph
