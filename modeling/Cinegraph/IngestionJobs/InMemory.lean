import Cinegraph.IngestionJobs.Service
import Cinegraph.Library.Dict
import Mathlib.Data.List.Sort

/-!
The in-memory unit of work, its repository and the service on it. A unit of work
reads and writes a copy of the store, which replaces the store on commit.
-/

namespace Cinegraph

open Library IngestionJobErrorMessages

structure IngestionJobStore where
  jobs : Dict UUID IngestionJob
  events : Dict UUID (List IngestionJobEvent)

def IngestionJobStore.empty : IngestionJobStore := ⟨.empty, .empty⟩

/-- The committed store and the copy the open unit of work is using. -/
structure IngestionUnitOfWork where
  committed : IngestionJobStore
  working : IngestionJobStore

namespace IngestionUnitOfWork

def setJob (u : IngestionUnitOfWork) (job : IngestionJob) : IngestionUnitOfWork :=
  { u with working.jobs := u.working.jobs.set job.jobId job }

def setEvents (u : IngestionUnitOfWork) (jobId : UUID) (events : List IngestionJobEvent) :
    IngestionUnitOfWork :=
  { u with working.events := u.working.events.set jobId events }

variable (u : IngestionUnitOfWork) (job : IngestionJob) (jobId : UUID)
  (events : List IngestionJobEvent)

@[simp] theorem setJob_committed : (u.setJob job).committed = u.committed := rfl

@[simp] theorem setEvents_committed : (u.setEvents jobId events).committed = u.committed := rfl

@[simp] theorem setJob_working : (u.setJob job).working =
    ⟨u.working.jobs.set job.jobId job, u.working.events⟩ := rfl

@[simp] theorem setEvents_working : (u.setEvents jobId events).working =
    ⟨u.working.jobs, u.working.events.set jobId events⟩ := rfl

end IngestionUnitOfWork

abbrev IngestionTransaction := Exec IngestionUnitOfWork Raised

namespace InMemoryIngestionJobRepository

def working : IngestionTransaction IngestionJobStore := return (← get).working

def commit : IngestionTransaction Unit := modify fun u => { u with committed := u.working }

/-- `with unit_of_work_factory() as unit_of_work`: what was not committed is lost. -/
def unitOfWork {α : Type} (body : IngestionTransaction α) (store : IngestionJobStore) :
    Except Raised α × IngestionJobStore :=
  let (outcome, u) := Exec.run body ⟨store, store⟩
  (outcome, u.committed)

def replaceJob (job : IngestionJob) : IngestionTransaction Unit := modify (·.setJob job)

def getByIdempotencyKey (s : IngestionJobStore) (key : String) : Option IngestionJob :=
  s.jobs.values.find? (·.idempotencyKey = key)

def add (job : IngestionJob) : IngestionTransaction IngestionJob := do
  match getByIdempotencyKey (← working) job.idempotencyKey with
  | some existing => return existing
  | none =>
      replaceJob job
      modify (·.setEvents job.jobId [])
      return job

def saveOwned (job : IngestionJob) (workerId : String) (now expected : DateTime) :
    IngestionTransaction Unit := do
  let current := (← working).jobs.get? job.jobId
  if ∃ stored ∈ current, stored.leaseOwner = some workerId ∧
      ∃ lease ∈ stored.leaseExpiresAt, lease.same expected ∧ now < lease then
    replaceJob job
  else
    throw (valueError "The worker lease is no longer valid for this ingestion job.")

def savePending (job : IngestionJob) : IngestionTransaction Unit := do
  let current := (← working).jobs.get? job.jobId
  if ∃ stored ∈ current, stored.status = .pending then replaceJob job
  else throw (valueError "The pending ingestion job changed before cancellation.")

def saveReclaimed (job : IngestionJob) (now expected : DateTime) : IngestionTransaction Unit := do
  let current := (← working).jobs.get? job.jobId
  if ∃ stored ∈ current, stored.status = .running ∧
      ∃ lease ∈ stored.leaseExpiresAt, lease.same expected ∧ lease ≤ now then
    replaceJob job
  else
    throw (valueError "The ingestion job lease changed before reclaim.")

/-- A job that may be claimed at an instant. -/
def due (now : DateTime) (job : IngestionJob) : Bool :=
  job.status = .pending && job.scheduledAt ≤ now && job.nextAttemptAt.all (· ≤ now)

/-- The order of the claim queue: priority, then the times, then the identifier. -/
def before (a b : IngestionJob) : Prop :=
  b.priority < a.priority ∨ a.priority = b.priority ∧
    (a.scheduledAt < b.scheduledAt ∨ a.scheduledAt ≤ b.scheduledAt ∧ b.scheduledAt ≤ a.scheduledAt ∧
      (a.createdAt < b.createdAt ∨ a.createdAt ≤ b.createdAt ∧ b.createdAt ≤ a.createdAt ∧
        a.jobId.int.toNat ≤ b.jobId.int.toNat))

instance (a b : IngestionJob) : Decidable (before a b) := inferInstanceAs (Decidable (_ ∨ _))

/-- The job `claim_next` selects. -/
def selected (s : IngestionJobStore) (now : DateTime) : Option IngestionJob :=
  ((s.jobs.values.filter (due now)).insertionSort before).head?

def claimNext (workerId : String) (now leaseExpiresAt : DateTime) :
    IngestionTransaction (Option IngestionJob) := do
  match selected (← working) now with
  | none => return none
  | some job =>
      let claimed ← Exec.lift (job.claim workerId now leaseExpiresAt)
      replaceJob claimed
      return some claimed

def eventsOf (s : IngestionJobStore) (jobId : UUID) : List IngestionJobEvent :=
  (s.events.get? jobId).getD []

def checkAppend (events : List IngestionJobEvent) (event : IngestionJobEvent) :
    Except Raised Unit :=
  match events.getLast? with
  | some last => reject (event.sequenceNumber ≠ last.sequenceNumber + 1)
      "Ingestion job events must be append-only and ordered."
  | none => reject (event.sequenceNumber ≠ 1)
      "The first ingestion job event must have sequence number 1."

def appendEvent (event : IngestionJobEvent) : IngestionTransaction Unit := do
  let events := eventsOf (← working) event.jobId
  Exec.lift (checkAppend events event)
  modify (·.setEvents event.jobId (events ++ [event]))

end InMemoryIngestionJobRepository

namespace IngestionJobService

open InMemoryIngestionJobRepository

/-- `_append_event` -/
def append (job : IngestionJob) (kind : IngestionJobEventKind) (now : DateTime)
    (workerId errorCode : Option String) : IngestionTransaction Unit := do
  let events := eventsOf (← working) job.jobId
  let event ← Exec.lift (newEvent job kind now workerId errorCode events.length)
  appendEvent event

variable (configuration : IngestionJobConfiguration) (now : DateTime)

def enqueue (command : EnqueueIngestionJob) : IngestionTransaction IngestionJob := do
  let job ← Exec.lift (newJob configuration command now)
  match getByIdempotencyKey (← working) job.idempotencyKey with
  | some existing => return existing
  | none =>
      let inserted ← add job
      if inserted.jobId ≠ job.jobId then
        return inserted
      append job .enqueued now none none
      commit
      return job

def claimNext (workerId : String) : IngestionTransaction (Option IngestionJob) := do
  match ← InMemoryIngestionJobRepository.claimNext workerId now
    (now.add configuration.leaseDuration) with
  | none => return none
  | some job =>
      append job .claimed now (some workerId) none
      commit
      return some job

/-- `save_owned`, `save_pending` or `save_reclaimed`. -/
def save (plan : Plan) : IngestionTransaction Unit :=
  match plan.guard with
  | .owned workerId expected => saveOwned plan.updated workerId now expected
  | .pending => savePending plan.updated
  | .reclaimed expected => saveReclaimed plan.updated now expected

/-- The shape of the operations on a stored job. -/
def change (jobId : UUID) (plan : IngestionJob → Except Raised Plan) :
    IngestionTransaction IngestionJob := do
  let job ← Exec.require ((← working).jobs.get? jobId) ⟨.keyError, jobId.str⟩
  let plan ← Exec.lift (plan job)
  save now plan
  append plan.updated plan.kind now plan.workerId plan.errorCode
  commit
  return plan.updated

def heartbeat (jobId : UUID) (workerId : String) : IngestionTransaction IngestionJob :=
  change now jobId (heartbeatPlan configuration workerId now)

def succeed (jobId : UUID) (workerId : String) : IngestionTransaction IngestionJob :=
  change now jobId (succeedPlan workerId now)

def failOrRetry (jobId : UUID) (workerId errorCode : String) :
    IngestionTransaction IngestionJob := do
  if errorCode ∉ ALLOWED_INGESTION_ERROR_CODES then throw (valueError ERROR_CODE_NOT_ALLOWLISTED)
  change now jobId (failOrRetryPlan configuration workerId errorCode now)

def cancel (jobId : UUID) : IngestionTransaction IngestionJob :=
  change now jobId (cancelPlan now)

def reclaimExpired (jobId : UUID) : IngestionTransaction IngestionJob :=
  change now jobId (reclaimPlan configuration now)

end IngestionJobService

/-- The operations of the service, with the arguments of a caller. -/
inductive IngestionCall where
  | enqueue (command : EnqueueIngestionJob)
  | claimNext (workerId : String)
  | heartbeat (jobId : UUID) (workerId : String)
  | succeed (jobId : UUID) (workerId : String)
  | failOrRetry (jobId : UUID) (workerId errorCode : String)
  | cancel (jobId : UUID)
  | reclaimExpired (jobId : UUID)

namespace IngestionCall

def perform (configuration : IngestionJobConfiguration) (now : DateTime) :
    IngestionCall → IngestionTransaction Unit
  | enqueue command => discard (IngestionJobService.enqueue configuration now command)
  | claimNext workerId => discard (IngestionJobService.claimNext configuration now workerId)
  | heartbeat jobId workerId =>
      discard (IngestionJobService.heartbeat configuration now jobId workerId)
  | succeed jobId workerId => discard (IngestionJobService.succeed now jobId workerId)
  | failOrRetry jobId workerId errorCode =>
      discard (IngestionJobService.failOrRetry configuration now jobId workerId errorCode)
  | cancel jobId => discard (IngestionJobService.cancel now jobId)
  | reclaimExpired jobId => discard (IngestionJobService.reclaimExpired configuration now jobId)

/-- The store after one call. -/
def apply (configuration : IngestionJobConfiguration) (s : IngestionJobStore)
    (call : DateTime × IngestionCall) : IngestionJobStore :=
  (InMemoryIngestionJobRepository.unitOfWork (call.2.perform configuration call.1) s).2

/-- The store after a sequence of calls on the empty one, each with its clock reading. -/
def after (configuration : IngestionJobConfiguration) (calls : List (DateTime × IngestionCall)) :
    IngestionJobStore :=
  calls.foldl (apply configuration) .empty

end IngestionCall

end Cinegraph
