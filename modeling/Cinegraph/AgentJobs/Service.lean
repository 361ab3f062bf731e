import Cinegraph.AgentJobs.InMemoryInvariant
import Cinegraph.Library.Run

/-!
The agent job service as its threads: the recovery loop, the requests that
submit jobs and the worker callbacks. A step is one repository call or one
section under the scheduling lock, so that the threads interleave between the
sections; any repository call may find the repository unavailable.
-/

namespace Cinegraph

open Library AgentJobErrorMessages InMemoryAgentJobRepository

variable [Normalization]

/-- What a collaborator outside the repository answers, or that it raises. -/
inductive Answer where
  | yes
  | no
  | raised
  deriving DecidableEq, Repr

/-- Where a call of `_schedule` stands. -/
inductive SchedulePhase where
  | entering
  | checking
  | leasing
  | probing
  | admitting
  | dispatching
  | withdrawing
  deriving DecidableEq, Repr

/-- Where a callback of `_execute_scheduled` stands, inside `execute` until it
is `interrupted` or `finishing`. -/
inductive CallbackPhase where
  | starting
  | claiming
  | refetching
  | executing
  | writing (outcome : Except String SeriesAgentResult)
  | interrupted
  | finishing
  | finished
  deriving DecidableEq

/-- A request that submits a job, or a worker callback. -/
inductive ServiceThread where
  | scheduling (jobId : UUID) (phase : SchedulePhase)
  | rejecting (jobId : UUID)
  | returned
  | callback (jobId : UUID) (phase : CallbackPhase)
  deriving DecidableEq

/-- Where the recovery loop stands; the lists are what is left of its scans. -/
inductive RecoveryPhase where
  | waiting
  | recovering (interrupted : List UUID)
  | discarding (jobId : UUID) (rest : List UUID)
  | listing
  | scheduling (jobId : UUID) (phase : SchedulePhase) (rest : List UUID)
  | stopped
  deriving DecidableEq

structure AgentJobService where
  world : AgentJobWorld
  scheduledJobIds : Finset UUID
  interruptedJobIds : Finset UUID
  supervisorFailed : Bool
  recovery : RecoveryPhase
  threads : List ServiceThread

inductive ServiceAction where
  | submit (job : AgentJob) (available : Bool)
  | stop
  | scan (order : List UUID)
  | requeue (available : Bool)
  | discard
  | listQueued (available : Bool)
  | recoverySchedule (answer : Answer)
  | schedule (thread : Nat) (answer : Answer)
  | reject (thread : Nat) (available : Bool)
  | callRepository (thread : Nat) (available : Bool)
  | converse (thread : Nat) (outcome : Option (Except String SeriesAgentResult))
  | settle (thread : Nat)

namespace AgentJobService

/-- The supervisor has recovered the jobs of the process before it. Its first
scan of the queue is one more scan of the loop. -/
def started (world : AgentJobWorld) : AgentJobService where
  world := world
  scheduledJobIds := ∅
  interruptedJobIds := ∅
  supervisorFailed := false
  recovery := .waiting
  threads := []

/-- A repository call, or the outage it meets. -/
def call {α : Type} (available : Bool) (p : Repository α) : Repository α :=
  if available then p else throw ⟨.agentJobUnavailable, SYSTEM_UNAVAILABLE⟩

def setThread (s : AgentJobService) (i : Nat) (thread : ServiceThread) : AgentJobService :=
  { s with threads := s.threads.set i thread }

def spawn (s : AgentJobService) (thread : ServiceThread) : AgentJobService :=
  { s with threads := s.threads ++ [thread] }

/-- One step of `_schedule`: the next phase, or the value it returns. -/
def scheduleStep (s : AgentJobService) (jobId : UUID) (answer : Answer) :
    SchedulePhase → (SchedulePhase ⊕ Option Bool) × AgentJobService
  | .entering => (if s.supervisorFailed then .inr none else .inl .checking, s)
  | .checking => (if jobId ∈ s.scheduledJobIds then .inr none else .inl .leasing, s)
  | .leasing =>
      if answer = .yes then (.inl .probing, s)
      else (.inr none, { s with supervisorFailed := true })
  | .probing => (if answer = .yes then .inl .admitting else .inr none, s)
  | .admitting =>
      if jobId ∈ s.scheduledJobIds then (.inr none, s)
      else (.inl .dispatching, { s with scheduledJobIds := insert jobId s.scheduledJobIds })
  | .dispatching =>
      if answer = .yes then (.inr (some true), s.spawn (.callback jobId .starting))
      else (.inl .withdrawing, s)
  | .withdrawing =>
      (.inr (some false), { s with scheduledJobIds := s.scheduledJobIds.erase jobId })

/-- The rest of `_recover_local_interruptions_once`, then the scan of the queue. -/
def recoverNext : List UUID → RecoveryPhase
  | [] => .listing
  | interrupted => .recovering interrupted

/-- The rest of `_dispatch_queued_once`. -/
def dispatchNext : List UUID → RecoveryPhase
  | [] => .waiting
  | jobId :: rest => .scheduling jobId .entering rest

/-- An outage ends the scan; any other exception ends the recovery thread. -/
def recoveryRaised (e : Raised) : RecoveryPhase :=
  if e.kind = .agentJobUnavailable then .waiting else .stopped

def requeueStep (clock : Clock) (s : AgentJobService) (jobId : UUID) (rest : List UUID)
    (available : Bool) : AgentJobService :=
  match Exec.run (call available (requeueRunningJobWithEvent clock jobId)) s.world with
  | (.ok _, w) => { s with world := w, recovery := .discarding jobId rest }
  | (.error e, w) => { s with world := w, recovery := recoveryRaised e }

def listStep (recoveryBatchSize : Int) (s : AgentJobService) (available : Bool) :
    AgentJobService :=
  match Exec.run (call available (listQueued recoveryBatchSize)) s.world with
  | (.ok queued, w) => { s with world := w, recovery := dispatchNext (queued.map (·.jobId)) }
  | (.error e, w) => { s with world := w, recovery := recoveryRaised e }

def recoveryScheduleStep (s : AgentJobService) (jobId : UUID) (phase : SchedulePhase)
    (rest : List UUID) (answer : Answer) : AgentJobService :=
  match s.scheduleStep jobId answer phase with
  | (.inl phase', t) => { t with recovery := .scheduling jobId phase' rest }
  | (.inr (some false), t) => { t with recovery := .waiting }
  | (.inr _, t) => { t with recovery := dispatchNext rest }

/-- `submit` up to its call of `_schedule`. -/
def submitStep (clock : Clock) (s : AgentJobService) (job : AgentJob) (available : Bool) :
    AgentJobService :=
  match Exec.run (call available (create clock job)) s.world with
  | (.ok (stored, true), w) =>
      { s with world := w }.spawn (.scheduling stored.jobId .entering)
  | (_, w) => { s with world := w }

def submissionScheduleStep (s : AgentJobService) (i : Nat) (jobId : UUID) (phase : SchedulePhase)
    (answer : Answer) : AgentJobService :=
  match s.scheduleStep jobId answer phase with
  | (.inl phase', t) => t.setThread i (.scheduling jobId phase')
  | (.inr (some false), t) => t.setThread i (.rejecting jobId)
  | (.inr _, t) => t.setThread i .returned

def rejectStep (clock : Clock) (s : AgentJobService) (i : Nat) (jobId : UUID)
    (available : Bool) : AgentJobService :=
  let w := (Exec.run (call available (rejectWithEvent clock jobId DISPATCH_UNAVAILABLE none))
    s.world).2
  { s with world := w }.setThread i .returned

/-- The repository call a callback makes next, and the phase after it. -/
def nextCall (clock : Clock) (jobId : UUID) : CallbackPhase → Option (Repository CallbackPhase)
  | .starting => some do
      match find (← store) jobId none with
      | none => return .finishing
      | some job => return if job.status.terminal then .finishing else .claiming
  | .claiming => some do
      match ← claimWithEvent clock jobId none with
      | none => return .refetching
      | some _ => return .executing
  | .refetching => some (return .finishing)
  | .writing (.ok result) => some do
      let _ ← completeWithEvent clock jobId result none
      return .finishing
  | .writing (.error code) => some do
      let _ ← failWithEvent clock jobId code none
      return .finishing
  | _ => none

/-- `_execute_scheduled` records an outage; its `finally` runs in either case. -/
def callbackRaised (e : Raised) : CallbackPhase :=
  if e.kind = .agentJobUnavailable then .interrupted else .finishing

def callbackStep (s : AgentJobService) (i : Nat) (jobId : UUID)
    (p : Repository CallbackPhase) : AgentJobService :=
  match Exec.run p s.world with
  | (.ok phase, w) => { s with world := w }.setThread i (.callback jobId phase)
  | (.error e, w) => { s with world := w }.setThread i (.callback jobId (callbackRaised e))

/-- One step of one thread; `none` where the thread is not at such a step. The
conversation ends in a result or a public failure code, or something outside its
handlers raises. -/
def step (clock : Clock) (recoveryBatchSize : Int) (s : AgentJobService) :
    ServiceAction → Option AgentJobService
  | .submit job available => some (s.submitStep clock job available)
  | .stop => if s.recovery = .waiting then some { s with recovery := .stopped } else none
  | .scan order =>
      if s.recovery = .waiting ∧ order.Nodup ∧ order.toFinset = s.interruptedJobIds then
        some { s with recovery := recoverNext order }
      else none
  | .requeue available =>
      match s.recovery with
      | .recovering (jobId :: rest) => some (s.requeueStep clock jobId rest available)
      | _ => none
  | .discard =>
      match s.recovery with
      | .discarding jobId rest => some { s with
          interruptedJobIds := s.interruptedJobIds.erase jobId, recovery := recoverNext rest }
      | _ => none
  | .listQueued available =>
      if s.recovery = .listing then some (s.listStep recoveryBatchSize available) else none
  | .recoverySchedule answer =>
      match s.recovery with
      | .scheduling jobId phase rest => some (s.recoveryScheduleStep jobId phase rest answer)
      | _ => none
  | .schedule i answer =>
      match s.threads[i]? with
      | some (.scheduling jobId phase) => some (s.submissionScheduleStep i jobId phase answer)
      | _ => none
  | .reject i available =>
      match s.threads[i]? with
      | some (.rejecting jobId) => some (s.rejectStep clock i jobId available)
      | _ => none
  | .callRepository i available =>
      match s.threads[i]? with
      | some (.callback jobId phase) =>
          (nextCall clock jobId phase).map fun p => s.callbackStep i jobId (call available p)
      | _ => none
  | .converse i outcome =>
      match s.threads[i]? with
      | some (.callback jobId .executing) =>
          let phase := match outcome with
            | some outcome => .writing outcome
            | none => .finishing
          some (s.setThread i (.callback jobId phase))
      | _ => none
  | .settle i =>
      match s.threads[i]? with
      | some (.callback jobId .interrupted) =>
          some ({ s with interruptedJobIds := insert jobId s.interruptedJobIds }.setThread i
            (.callback jobId .finishing))
      | some (.callback jobId .finishing) =>
          some ({ s with scheduledJobIds := s.scheduledJobIds.erase jobId }.setThread i
            (.callback jobId .finished))
      | _ => none

end AgentJobService

end Cinegraph
