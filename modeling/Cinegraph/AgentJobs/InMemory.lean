import Cinegraph.AgentJobs.Event
import Cinegraph.Library.Dict
import Mathlib.Data.List.Sort

/-!
The in-memory agent job repository. Every method mutates the three dictionaries
in the order of the source and undoes its writes by hand when a later step
raises; the clock is read where the source reads it and may raise or go back.
-/

namespace Cinegraph

open Library AgentJobErrorMessages

section Repository

variable [Normalization]

/-- The owner and idempotency key a job is indexed by. -/
def AgentJob.key (job : AgentJob) : UUID × String := (job.ownerProfileId, job.idempotencyKey)

structure AgentJobStore where
  jobs : Dict UUID AgentJob
  events : Dict UUID (List AgentJobEvent)
  keys : Dict (UUID × String) UUID

def AgentJobStore.empty : AgentJobStore := ⟨.empty, .empty, .empty⟩

/-- The store and the number of clock readings taken so far. -/
structure AgentJobWorld where
  store : AgentJobStore
  readings : Nat

abbrev Repository := Exec AgentJobWorld Raised

/-- The outcome of every reading of the repository's clock. -/
abbrev Clock := Nat → Except Raised DateTime

namespace InMemoryAgentJobRepository

def store : Repository AgentJobStore := return (← get).store

def setJob (jobId : UUID) (job : AgentJob) (w : AgentJobWorld) : AgentJobWorld :=
  { w with store.jobs := w.store.jobs.set jobId job }

def setEvents (jobId : UUID) (events : List AgentJobEvent) (w : AgentJobWorld) : AgentJobWorld :=
  { w with store.events := w.store.events.set jobId events }

def setKey (key : UUID × String) (jobId : UUID) (w : AgentJobWorld) : AgentJobWorld :=
  { w with store.keys := w.store.keys.set key jobId }

def jobAt (jobId : UUID) : Repository AgentJob := do
  Exec.require ((← store).jobs.get? jobId) ⟨.keyError, jobId.str⟩

def eventsAt (jobId : UUID) : Repository (List AgentJobEvent) := do
  Exec.require ((← store).events.get? jobId) ⟨.keyError, jobId.str⟩

variable (clock : Clock)

def now : Repository DateTime := do
  let w ← get
  set { w with readings := w.readings + 1 }
  Exec.lift (clock w.readings)

/-- A reading of the clock counts, whether it returns a time or raises. -/
theorem post_now {clock : Clock} {w : AgentJobWorld} {Q : DateTime → AgentJobWorld → Prop}
    {E : Raised → AgentJobWorld → Prop} : Exec.Post (now clock) Q E w ↔
      (∀ t, clock w.readings = .ok t → Q t { w with readings := w.readings + 1 }) ∧
        ∀ e, clock w.readings = .error e → E e { w with readings := w.readings + 1 } := by
  simp only [now, Exec.post_bind, Exec.post_get, Exec.post_set, Exec.post_lift]

theorem post_now_ok {clock : Clock} {w : AgentJobWorld} {t : DateTime}
    (h : clock w.readings = .ok t) {Q : DateTime → AgentJobWorld → Prop}
    {E : Raised → AgentJobWorld → Prop} :
    Exec.Post (now clock) Q E w ↔ Q t { w with readings := w.readings + 1 } := by
  simp [post_now, h]

def appendEventLocked (event : AgentJobEvent) : Repository AgentJobEvent := do
  let job ← Exec.require ((← store).jobs.get? event.jobId)
    ⟨.keyError, REPOSITORY_JOB_NOT_FOUND⟩
  let events ← eventsAt event.jobId
  if event.kind ≠ job.status.eventKind then throw (valueError REPOSITORY_EVENT_STATE)
  if event.sequence ≠ events.length + 1 then throw (valueError REPOSITORY_EVENT_SEQUENCE)
  if ∃ item ∈ events, item.eventId = event.eventId then throw (valueError REPOSITORY_EVENT_ID)
  if ∃ last ∈ events.getLast?, event.occurredAt < last.occurredAt then
    throw (valueError REPOSITORY_EVENT_TIME)
  modify (setEvents event.jobId (events ++ [event]))
  return event

/-- The name an event's identifier is derived from. -/
def eventName (sequence : Nat) : String := "agent-job-event:" ++ sequence.repr

def appendLocked (jobId : UUID) (kind : AgentJobEventKind) (payload : JsonPayload) :
    Repository AgentJobEvent := do
  let job ← jobAt jobId
  if kind ≠ job.status.eventKind then throw (valueError REPOSITORY_EVENT_STATE)
  let events ← eventsAt jobId
  if kind.terminal ∧ ∃ item ∈ events, item.kind = kind then
    throw (valueError REPOSITORY_EVENT_ONCE)
  let event ← Exec.lift (AgentJobEvent.make {
    eventId := jobId.uuid5 (eventName (events.length + 1))
    sequence := events.length + 1
    jobId := jobId
    kind := kind
    occurredAt := ← now clock
    payload := payload })
  appendEventLocked event

def create (job : AgentJob) : Repository (AgentJob × Bool) := do
  let s ← store
  match s.keys.get? job.key with
  | some existingId =>
      let existing ← jobAt existingId
      if existing.requestFingerprint ≠ job.requestFingerprint then
        throw ⟨.agentJobIdempotencyConflict, IDEMPOTENCY_CONFLICT⟩
      return (existing, false)
  | none =>
      if (s.jobs.get? job.jobId).isSome then throw (valueError REPOSITORY_ID_CONFLICT)
      modify (setJob job.jobId job)
      modify (setKey job.key job.jobId)
      modify (setEvents job.jobId [])
      let undo (w : AgentJobWorld) : AgentJobWorld := { w with store := {
        jobs := w.store.jobs.erase job.jobId
        keys := w.store.keys.erase job.key
        events := w.store.events.erase job.jobId } }
      let _ ← Exec.rollback (appendLocked clock job.jobId .queued [("status", .str "queued")]) undo
      return (job, true)

/-- `get` reads only the store. -/
def find (s : AgentJobStore) (jobId : UUID) (owner : Option UUID) : Option AgentJob := do
  let job ← s.jobs.get? jobId
  if ∃ profile ∈ owner, job.ownerProfileId ≠ profile then none else some job

def requireRecoveryLimit (limit : Int) : Except Raised Unit :=
  if limit < 1 then .error (valueError REPOSITORY_RECOVERY_LIMIT) else .ok ()

/-- Order by an instant and then by the hexadecimal identifier. The identifiers
have a fixed number of digits, so their texts compare as the numbers do. -/
def before (stamp : AgentJob → DateTime) (a b : AgentJob) : Prop :=
  stamp a < stamp b ∨
    stamp a ≤ stamp b ∧ stamp b ≤ stamp a ∧ a.jobId.int.toNat ≤ b.jobId.int.toNat

instance (stamp : AgentJob → DateTime) (a b : AgentJob) : Decidable (before stamp a b) :=
  inferInstanceAs (Decidable (_ ∨ _))

def listQueued (limit : Int) : Repository (List AgentJob) := do
  Exec.lift (requireRecoveryLimit limit)
  let queued := ((← store).jobs.values.filter (·.status = .queued)).insertionSort
    (before (·.createdAt))
  return queued.take limit.toNat

/-- One turn of the requeue loop, before the next job is looked at. -/
def requeueOne (job : AgentJob) : Repository AgentJob := do
  let updated ← Exec.lift (job.requeueAfterInterruption (← now clock))
  modify (setJob job.jobId updated)
  let _ ← appendLocked clock job.jobId .queued
    [("status", .str "queued"), ("recovered", .bool true)]
  return updated

/-- The undo of a failed requeue: earlier jobs and log lengths come back. -/
def undoRequeue (running : List AgentJob) (prior : AgentJobStore) (w : AgentJobWorld) :
    AgentJobWorld :=
  running.foldl (fun w job =>
    let kept := ((prior.events.get? job.jobId).getD []).length
    setEvents job.jobId (((w.store.events.get? job.jobId).getD []).take kept)
      (setJob job.jobId job w)) w

def requeueLocked (running : List AgentJob) : Repository (List AgentJob) := do
  let prior ← store
  let _ ← running.mapM (fun job => eventsAt job.jobId)
  Exec.rollback (running.mapM (requeueOne clock)) (undoRequeue running prior)

def requeueRunningWithEvent (limit : Int) : Repository (List AgentJob) := do
  Exec.lift (requireRecoveryLimit limit)
  let running := ((← store).jobs.values.filter (·.status = .running)).insertionSort
    (before (fun job => job.startedAt.getD job.createdAt))
  requeueLocked clock (running.take limit.toNat)

def requeueRunningJobWithEvent (jobId : UUID) : Repository (Option AgentJob × Bool) := do
  match (← store).jobs.get? jobId with
  | none => return (none, false)
  | some job =>
      if job.status ≠ .running then return (some job, false)
      let requeued ← requeueLocked clock [job]
      return (requeued.head?, true)

/-- The shape shared by claim, complete, fail and reject: the job is replaced,
then the matching event is appended, and a failed append puts the job back. -/
def transition (jobId : UUID) (prior : AgentJob)
    (update : DateTime → Except Raised AgentJob)
    (event : AgentJob → AgentJobEventKind × JsonPayload) : Repository (Option AgentJob) := do
  let updated ← Exec.lift (update (← now clock))
  modify (setJob jobId updated)
  let (kind, payload) := event updated
  let _ ← Exec.rollback (appendLocked clock jobId kind payload) (setJob jobId prior)
  return some updated

def claimWithEvent (jobId : UUID) (owner : Option UUID) : Repository (Option AgentJob) := do
  match find (← store) jobId owner with
  | none => return none
  | some job =>
      if job.status = .running then return none
      if job.status.terminal then throw ⟨.agentJobTransition, REPOSITORY_TERMINAL_CLAIM⟩
      transition clock jobId job job.start (fun _ => (.running, [("status", .str "running")]))

def completeWithEvent (jobId : UUID) (result : SeriesAgentResult) (owner : Option UUID) :
    Repository (Option AgentJob) := do
  match find (← store) jobId owner with
  | none => return none
  | some job =>
      if job.status ≠ .running then throw ⟨.agentJobTransition, REPOSITORY_COMPLETE_STATE⟩
      transition clock jobId job (job.complete result) (fun updated =>
        (if updated.status = .safeRefusal then .safeRefusal else .succeeded,
          resultEventPayload result))

/-- The payload of a failure or rejection event. -/
def failurePayload (errorCode : String) : JsonPayload :=
  [("status", .str "failed"), ("error_code", .str errorCode)]

def failWithEvent (jobId : UUID) (errorCode : String) (owner : Option UUID) :
    Repository (Option AgentJob) := do
  match find (← store) jobId owner with
  | none => return none
  | some job =>
      if job.status ≠ .running then throw ⟨.agentJobTransition, REPOSITORY_FAIL_STATE⟩
      transition clock jobId job (job.fail errorCode) (fun _ => (.failed, failurePayload errorCode))

def rejectWithEvent (jobId : UUID) (errorCode : String) (owner : Option UUID) :
    Repository (Option AgentJob) := do
  match find (← store) jobId owner with
  | none => return none
  | some job =>
      if job.status ≠ .queued then throw ⟨.agentJobTransition, REPOSITORY_REJECT_STATE⟩
      transition clock jobId job (job.reject errorCode)
        (fun _ => (.failed, failurePayload errorCode))

def listEventsAfter (jobId : UUID) (sequence : Int) (owner : Option UUID) :
    Repository (List AgentJobEvent) := do
  if sequence < 0 then throw (valueError REPOSITORY_CURSOR)
  match find (← store) jobId owner with
  | none => return []
  | some _ => return (← eventsAt jobId).filter (fun event => sequence < event.sequence)

end InMemoryAgentJobRepository

end Repository

section Sample

/-! A job, a result for it and a clock, to evaluate the repository on. -/

attribute [local instance] Normalization.ascii

def sampleEpisode : EpisodeRef := ⟨⟨10⟩, ⟨11⟩, ⟨12⟩, ⟨1, 1, EpisodePosition.first_pos, EpisodePosition.first_pos⟩⟩

def sampleJob : AgentJob where
  jobId := ⟨1⟩
  ownerProfileId := ⟨2⟩
  threadId := ⟨3⟩
  seriesId := ⟨10⟩
  question := "Who left?"
  candidateEpisodes := [sampleEpisode]
  corpusAccessScope :=
    ⟨.authenticated, "r1", ∅, true, by decide +kernel,
      CorpusAccessScope.authenticated_unrestricted, CorpusAccessScope.authenticated_seasons⟩
  permissionScopeRevision := "r1"
  idempotencyKey := "00000000-0000-0000-0000-000000000005"
  requestFingerprint := String.ofList (List.replicate 64 '0')
  createdAt := ⟨.utc, 5⟩
  valid := by decide +kernel

def sampleCitation : SeriesAgentCitation where
  kind := .transcript
  episode := sampleEpisode
  startMs := 0
  endMs := 1000
  segmentId := some ⟨20⟩
  valid := by decide +kernel

def plainResult : SeriesAgentResult where
  answer := some "The captain left."
  isSafeRefusal := false
  citations := [sampleCitation]
  valid := by decide +kernel

def sampleClock : Clock := fun _ => .ok ⟨.utc, 5⟩

end Sample

end Cinegraph
