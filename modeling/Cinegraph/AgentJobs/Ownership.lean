import Cinegraph.AgentJobs.Completion
import Cinegraph.AgentJobs.ConversationQuery
import Cinegraph.AgentJobs.Recovery

/-!
When every running job has an owner. `execute` claims a job before it builds the
query, and only an outage puts a job into the interrupted set, so any other way
out of a callback has to be a terminal write that is committed.
-/

namespace Cinegraph

open Library AgentJobErrorMessages InMemoryAgentJobRepository

section Ownership

variable [Normalization]

/-- What a thread of the service does next, or the exception its repository call
raises with the stored job as it was. -/
inductive SupervisedAction where
  | perform (action : ServiceAction)
  | refuse (thread : Nat) (error : Raised)
  | refuseRecovery (error : Raised)

def CallbackPhase.outcome : CallbackPhase → Option (Except String SeriesAgentResult)
  | .writing outcome => some outcome
  | _ => none

/-- The job of a callback that has claimed it and not yet ended or reported it. -/
def ServiceThread.owned : ServiceThread → Option UUID
  | .callback jobId .executing | .callback jobId (.writing _)
  | .callback jobId .interrupted => some jobId
  | _ => none

/-- The recovery loop has re-queued the job and is about to discard it. -/
def RecoveryPhase.discards (jobId : UUID) : RecoveryPhase → Bool
  | .discarding other _ => other = jobId
  | _ => false

/-- The callback is in its call of `execute`, up to the handling of what it raises. -/
def CallbackPhase.inExecute : CallbackPhase → Bool
  | .finishing | .finished => false
  | _ => true

/-- A reading of the clock that is UTC and not before an earlier instant. -/
def NotBehind (reading : Except Raised DateTime) (previous : Option DateTime) : Prop :=
  match reading with
  | .ok t => t.zone = .utc ∧ ∀ instant ∈ previous, instant ≤ t
  | .error _ => False

omit [Normalization] in
theorem NotBehind.reads {reading : Except Raised DateTime} {previous : Option DateTime}
    (h : NotBehind reading previous) :
    ∃ t, reading = .ok t ∧ t.zone = .utc ∧ ∀ instant ∈ previous, instant ≤ t := by
  cases reading with
  | error e => exact h.elim
  | ok t => exact ⟨t, rfl, h⟩

instance (reading : Except Raised DateTime) (previous : Option DateTime) :
    Decidable (NotBehind reading previous) :=
  match reading with
  | .ok t => inferInstanceAs (Decidable (t.zone = .utc ∧ ∀ instant ∈ previous, instant ≤ t))
  | .error _ => isFalse id

namespace InMemoryAgentJobRepository

def logOf (w : AgentJobWorld) (job : AgentJob) : List AgentJobEvent :=
  (w.store.events.get? job.jobId).getD []

/-- What the repository checks before it commits the end of a running job: the
clock, the event identifier, and the privacy scan or the list of failure codes. -/
structure Writable (clock : Clock) (w : AgentJobWorld) (job : AgentJob)
    (outcome : Except String SeriesAgentResult) : Prop where
  finished : NotBehind (clock w.readings) job.startedAt
  occurred : NotBehind (clock (w.readings + 1)) ((logOf w job).getLast?.map (·.occurredAt))
  fresh : ∀ event ∈ logOf w job,
    event.eventId ≠ job.jobId.uuid5 (eventName ((logOf w job).length + 1))
  clean : ∀ result, outcome = .ok result → forbiddenItems (resultEventPayload result) = false
  allowed : ∀ code, outcome = .error code → code ∈ ALLOWED_AGENT_JOB_FAILURE_CODES

/-- The checks of a write that do not depend on what is written. -/
def InOrder (clock : Clock) (w : AgentJobWorld) (job : AgentJob) : Prop :=
  NotBehind (clock w.readings) job.startedAt ∧
    NotBehind (clock (w.readings + 1)) ((logOf w job).getLast?.map (·.occurredAt)) ∧
    ∀ event ∈ logOf w job,
      event.eventId ≠ job.jobId.uuid5 (eventName ((logOf w job).length + 1))

instance (clock : Clock) (w : AgentJobWorld) (job : AgentJob) : Decidable (InOrder clock w job) :=
  inferInstanceAs (Decidable (_ ∧ _ ∧ _))

instance (clock : Clock) (w : AgentJobWorld) (job : AgentJob) :
    ∀ outcome, Decidable (Writable clock w job outcome)
  | .ok result => decidable_of_iff
      (InOrder clock w job ∧ forbiddenItems (resultEventPayload result) = false)
      ⟨fun h => ⟨h.1.1, h.1.2.1, h.1.2.2, fun _ same => Except.ok.inj same ▸ h.2, nofun⟩,
        fun h => ⟨⟨h.finished, h.occurred, h.fresh⟩, h.clean result rfl⟩⟩
  | .error code => decidable_of_iff
      (InOrder clock w job ∧ code ∈ ALLOWED_AGENT_JOB_FAILURE_CODES)
      ⟨fun h => ⟨h.1.1, h.1.2.1, h.1.2.2, nofun, fun _ same => Except.error.inj same ▸ h.2⟩,
        fun h => ⟨⟨h.finished, h.occurred, h.fresh⟩, h.allowed code rfl⟩⟩

/-- A terminal transition that finds the clock and the log in order commits. -/
theorem transition_commits {clock : Clock} {w : AgentJobWorld} (h : StoreInvariant w.store)
    {prior updated : AgentJob} (stored : w.store.jobs.get? prior.jobId = some prior)
    (active : prior.status.terminal = false) {outcome : Except String SeriesAgentResult}
    (writable : Writable clock w prior outcome) {update : DateTime → Except Raised AgentJob}
    {event : AgentJob → AgentJobEventKind × JsonPayload}
    (updates : ∀ t, clock w.readings = .ok t → update t = .ok updated)
    (own : updated.jobId = prior.jobId) (ended : updated.status.terminal = true)
    (kind : (event updated).1 = updated.status.eventKind)
    (finite : finiteItems (event updated).2 = true)
    (clean : forbiddenItems (event updated).2 = false) :
    Exec.Post (transition clock prior.jobId prior update event)
      (fun returned _ => returned.isSome = true) (fun _ _ => False) w := by
  obtain ⟨events, logged, log⟩ := h.logged _ prior stored
  have same : logOf w prior = events := by rw [logOf, logged, Option.getD_some]
  obtain ⟨t, ht, -⟩ := writable.finished.reads
  obtain ⟨u, hu, utc, late⟩ := writable.occurred.reads
  have fresh := writable.fresh
  rw [same] at late fresh
  have once : ∀ item ∈ events, item.kind ≠ updated.status.eventKind := by
    intro item member same
    have unended := log.lifecycle.active log.last
      (by rw [AgentJobStatus.terminal_eventKind]; exact active) item.kind
      (List.mem_map.mpr ⟨item, member, rfl⟩)
    rw [same, AgentJobStatus.terminal_eventKind, ended] at unended
    cases unended
  have valid : AgentJobEventFields.check {
      eventId := updated.jobId.uuid5 (eventName (events.length + 1))
      sequence := events.length + 1
      jobId := updated.jobId
      kind := updated.status.eventKind
      occurredAt := u
      payload := (event updated).2 } = .ok () :=
    AgentJobEventFields.check_eq_ok.mpr ⟨Nat.le_add_left _ _, utc, finite, clean⟩
  simp only [transition, Exec.post_bind, post_now_ok ht, updates t ht, Exec.post_lift_ok,
    Exec.post_modify, Exec.post_rollback, Exec.post_pure, kind, ← own]
  rw [appendLocked_terminal (Dict.get?_set_self _ _ _) (own ▸ logged) hu
    (fun last member => late _ (Option.mem_map_of_mem _ member)) once (own ▸ fresh),
    AgentJobEvent.make_eq_ok valid]
  rfl

theorem completeWithEvent_commits {clock : Clock} {w : AgentJobWorld} (h : StoreInvariant w.store)
    {jobId : UUID} {job : AgentJob} (stored : w.store.jobs.get? jobId = some job)
    (running : job.status = .running) {result : SeriesAgentResult}
    (writable : Writable clock w job (.ok result)) :
    Exec.Post (completeWithEvent clock jobId result none)
      (fun returned _ => returned.isSome = true) (fun _ _ => False) w := by
  have found : find w.store jobId none = some job :=
    find_of_get? stored (fun _ member => by cases member)
  have execution := job.execution_fields
  rw [running] at execution
  obtain ⟨⟨started, hstarted⟩, -⟩ := execution
  obtain ⟨t, ht, utc, late⟩ := writable.finished.reads
  obtain ⟨updated, completed⟩ :=
    job.complete_isOk result running hstarted utc (late started hstarted)
  obtain ⟨-, fields⟩ := AgentJob.complete_ok completed running
  have own := h.identified jobId job stored
  simp only [completeWithEvent, store, Exec.post_bind, Exec.post_get, Exec.post_pure, found,
    running, ne_eq, not_true, if_false]
  subst own
  refine transition_commits h stored (by rw [running]; rfl) writable ?_ (by rw [fields]) ?_ ?_
    (finiteItems_resultEventPayload result) (writable.clean result rfl)
  · intro t' ht'
    rw [ht] at ht'
    cases ht'
    exact completed
  · rw [fields]
    cases result.isSafeRefusal <;> rfl
  · rw [fields]
    cases result.isSafeRefusal <;> rfl

omit [Normalization] in
theorem failurePayload_clean {code : String} (h : code ∈ ALLOWED_AGENT_JOB_FAILURE_CODES) :
    forbiddenItems (failurePayload code) = false := by
  revert code
  decide

theorem failWithEvent_commits {clock : Clock} {w : AgentJobWorld} (h : StoreInvariant w.store)
    {jobId : UUID} {job : AgentJob} (stored : w.store.jobs.get? jobId = some job)
    (running : job.status = .running) {code : String}
    (writable : Writable clock w job (.error code)) :
    Exec.Post (failWithEvent clock jobId code none)
      (fun returned _ => returned.isSome = true) (fun _ _ => False) w := by
  have found : find w.store jobId none = some job :=
    find_of_get? stored (fun _ member => by cases member)
  have execution := job.execution_fields
  rw [running] at execution
  obtain ⟨⟨started, hstarted⟩, -⟩ := execution
  obtain ⟨t, ht, utc, late⟩ := writable.finished.reads
  have allowed := writable.allowed code rfl
  obtain ⟨updated, failed⟩ := job.fail_isOk allowed running hstarted utc (late started hstarted)
  obtain ⟨-, fields⟩ := AgentJob.fail_ok failed running
  have own := h.identified jobId job stored
  simp only [failWithEvent, store, Exec.post_bind, Exec.post_get, Exec.post_pure, found,
    running, ne_eq, not_true, if_false]
  subst own
  refine transition_commits h stored (by rw [running]; rfl) writable ?_ (by rw [fields]) ?_ ?_
    rfl (failurePayload_clean allowed)
  · intro t' ht'
    rw [ht] at ht'
    cases ht'
    exact failed
  · rw [fields]
    rfl
  · rw [fields]
    rfl

end InMemoryAgentJobRepository

namespace AgentJobService

/-- One step of the supervised service. A callback calls the conversation service
if it can build the query of its job, and otherwise raises; a transition leaves
the fields of the query as they are. -/
def supervise (clock : Clock) (recoveryBatchSize : Int) (s : AgentJobService) :
    SupervisedAction → Option AgentJobService
  | .perform (.converse i outcome) =>
      match s.threads[i]? with
      | some (.callback jobId .executing) =>
          (s.world.store.jobs.get? jobId).bind fun job =>
            if outcome.isSome = (conversationQuery job).isOk then
              s.step clock recoveryBatchSize (.converse i outcome)
            else none
      | _ => none
  | .perform action => s.step clock recoveryBatchSize action
  | .refuse i error =>
      match s.threads[i]? with
      | some (.callback jobId phase) =>
          if (nextCall clock jobId phase).isSome then
            some (s.setThread i (.callback jobId (callbackRaised error)))
          else none
      | _ => none
  | .refuseRecovery error =>
      match s.recovery with
      | .recovering _ | .listing => some { s with recovery := recoveryRaised error }
      | _ => none

/-- The job of a callback, if it is running, and where the callback stands. -/
def runningJob (s : AgentJobService) (i : Nat) : Option (AgentJob × CallbackPhase) :=
  match s.threads[i]? with
  | some (.callback jobId phase) =>
      ((s.world.store.jobs.get? jobId).filter (·.status = .running)).map (·, phase)
  | _ => none

/-- A callback of a running job can build its query, makes a terminal write that
the repository commits or meets an outage, and does not report its job while the
recovery loop is about to discard it. -/
def Orderly (clock : Clock) (s : AgentJobService) : SupervisedAction → Prop
  | .perform (.converse i _) => ∀ run ∈ s.runningJob i, Conversable run.1
  | .perform (.callRepository i true) =>
      ∀ run ∈ s.runningJob i, ∀ outcome ∈ run.2.outcome, Writable clock s.world run.1 outcome
  | .perform (.settle i) => ∀ run ∈ s.runningJob i, run.2 = .interrupted →
      s.recovery.discards run.1.jobId = false
  | .refuse i error => ∀ run ∈ s.runningJob i, run.2.outcome.isSome = true →
      error.kind = .agentJobUnavailable
  | _ => True

instance (clock : Clock) (s : AgentJobService) : ∀ action, Decidable (s.Orderly clock action)
  | .perform (.converse i _) => inferInstanceAs (Decidable
      (∀ run ∈ s.runningJob i, Conversable run.1))
  | .perform (.callRepository i true) => inferInstanceAs (Decidable
      (∀ run ∈ s.runningJob i, ∀ outcome ∈ run.2.outcome, Writable clock s.world run.1 outcome))
  | .perform (.settle i) => inferInstanceAs (Decidable (∀ run ∈ s.runningJob i,
      run.2 = .interrupted → s.recovery.discards run.1.jobId = false))
  | .refuse i error => inferInstanceAs (Decidable (∀ run ∈ s.runningJob i,
      run.2.outcome.isSome = true → error.kind = .agentJobUnavailable))
  | .perform (.submit _ _) | .perform .stop | .perform (.scan _) | .perform (.requeue _)
  | .perform .discard | .perform (.listQueued _) | .perform (.recoverySchedule _)
  | .perform (.schedule _ _) | .perform (.reject _ _) | .perform (.callRepository _ false)
  | .refuseRecovery _ => isTrue trivial

/-- A running job is held by a callback that is still to end or report it, or it
is to be re-queued. -/
def Owned (s : AgentJobService) : Prop :=
  ∀ jobId, s.world.store.HasStatus jobId .running →
    (∃ (i : Nat) (thread : ServiceThread), s.threads[i]? = some thread ∧
      thread.owned = some jobId) ∨ jobId ∈ s.awaiting

/-- A running job has a callback inside `execute` or is in the interrupted set. -/
def Attended (s : AgentJobService) : Prop :=
  ∀ jobId, s.world.store.HasStatus jobId .running →
    (∃ (i : Nat) (phase : CallbackPhase), s.threads[i]? = some (.callback jobId phase) ∧
      phase.inExecute = true) ∨ jobId ∈ s.interruptedJobIds

theorem Owned.attended {s : AgentJobService} (owned : Owned s) : Attended s := by
  intro jobId running
  rcases owned jobId running with ⟨i, thread, here, own⟩ | awaited
  · left
    cases thread with
    | callback other phase =>
        cases phase <;> cases own <;> exact ⟨i, _, here, rfl⟩
    | scheduling | rejecting | returned => cases own
  · right
    unfold awaiting at awaited
    split at awaited
    · exact Finset.mem_of_mem_erase awaited
    · exact awaited

section Steps

variable {s t : AgentJobService}

/-- A step that keeps the threads, the scan and the interrupted set. -/
theorem Owned.frame (owned : Owned s)
    (running : ∀ jobId, t.world.store.HasStatus jobId .running →
      s.world.store.HasStatus jobId .running)
    (recovery : t.recovery = s.recovery) (interrupted : t.interruptedJobIds = s.interruptedJobIds)
    (kept : ∀ (i : Nat) (thread : ServiceThread),
      s.threads[i]? = some thread → t.threads[i]? = some thread) : Owned t := by
  intro jobId now
  have awaiting : t.awaiting = s.awaiting := by rw [awaiting, awaiting, recovery, interrupted]
  rw [awaiting]
  rcases owned jobId (running jobId now) with ⟨i, thread, here, own⟩ | awaited
  · exact .inl ⟨i, thread, kept i thread here, own⟩
  · exact .inr awaited

/-- A thread moves on; it may let go of a job that is not running any more. -/
theorem Owned.setThread (owned : Owned s) {i : Nat} {old new : ServiceThread}
    (here : s.threads[i]? = some old)
    (keeps : ∀ jobId, old.owned = some jobId → s.world.store.HasStatus jobId .running →
      new.owned = some jobId ∨ jobId ∈ s.awaiting) : Owned (s.setThread i new) := by
  intro jobId running
  rcases owned jobId running with ⟨j, thread, there, own⟩ | awaited
  · by_cases same : j = i
    · subst same
      rw [here] at there
      cases there
      rcases keeps jobId own running with owns | awaited
      · refine .inl ⟨j, new, ?_, owns⟩
        exact List.getElem?_set_self (List.getElem?_eq_some_iff.mp here).1
      · exact .inr awaited
    · refine .inl ⟨j, thread, ?_, own⟩
      exact (List.getElem?_set_ne (Ne.symm same)).trans there
  · exact .inr awaited

theorem Owned.recovery (owned : Owned s) {phase : RecoveryPhase}
    (before : ∀ jobId rest, s.recovery ≠ .discarding jobId rest)
    (after : ∀ jobId rest, phase ≠ .discarding jobId rest) :
    Owned { s with recovery := phase } := by
  intro jobId running
  have same : awaiting { s with recovery := phase } = s.awaiting := by
    rw [awaiting_eq before, awaiting_eq after]
  rw [same]
  exact owned jobId running

/-- What holds in every state of an orderly run. -/
structure Supervision (s : AgentJobService) : Prop where
  store : StoreInvariant s.world.store
  owned : Owned s

theorem Supervision.world (h : Supervision s) {w : AgentJobWorld} (same : w.store = s.world.store) :
    Supervision { s with world := w } := by
  refine ⟨same ▸ h.store, h.owned.frame (fun jobId running => ?_) rfl rfl fun _ _ here => here⟩
  rwa [← same]

theorem Supervision.spawn (h : Supervision s) (thread : ServiceThread) :
    Supervision (s.spawn thread) := by
  refine ⟨h.store, h.owned.frame (fun _ running => running) rfl rfl fun i old here => ?_⟩
  rw [AgentJobService.spawn, List.getElem?_append_left (List.getElem?_eq_some_iff.mp here).1]
  exact here

/-- Every job that is running afterwards was running before. -/
theorem running_of_moved {s t : AgentJobStore} {jobId : UUID} {prior next : AgentJobStatus}
    (moved : Moved s t jobId prior next) (ended : next ≠ .running) (other : UUID)
    (running : t.HasStatus other .running) : other ≠ jobId ∧ s.HasStatus other .running := by
  have different : other ≠ jobId := by
    rintro rfl
    exact ended (AgentJobStore.HasStatus.unique moved.after running)
  exact ⟨different, (hasStatus_of_others moved.others other different .running).mp running⟩

theorem Supervision.submitStep (h : Supervision s) (clock : Clock) (job : AgentJob)
    (available : Bool) : Supervision (s.submitStep clock job available) := by
  have post := post_call (create_post clock job s.world h.store) available
  have effect (w : AgentJobWorld) (hw : w.store = s.world.store ∨ StoreInvariant w.store ∧
      Added s.world.store w.store job.jobId ∧ Queued w.store job.jobId) :
      Supervision { s with world := w } := by
    rcases hw with same | ⟨invariant, added, queued⟩
    · exact h.world same
    · refine ⟨invariant, h.owned.frame (fun jobId running => ?_) rfl rfl fun _ _ here => here⟩
      refine (hasStatus_of_others added.others jobId ?_ .running).mp running
      rintro rfl
      cases AgentJobStore.HasStatus.unique running queued
  unfold AgentJobService.submitStep
  rcases hrun : Exec.run (call available (create clock job)) s.world with ⟨e | ⟨stored, _ | _⟩, w⟩
  · exact effect w (.inl (post.of_error hrun))
  · exact effect w (post.of_ok hrun)
  · exact (effect w (post.of_ok hrun)).spawn _

/-- The recovery loop moves on without a write. -/
theorem Supervision.phase (h : Supervision s) {phase : RecoveryPhase}
    (before : ∀ jobId rest, s.recovery ≠ .discarding jobId rest)
    (after : ∀ jobId rest, phase ≠ .discarding jobId rest) :
    Supervision { s with recovery := phase } :=
  ⟨h.store, h.owned.recovery before after⟩

theorem Supervision.requeueStep (h : Supervision s) (clock : Clock) {jobId : UUID}
    {rest : List UUID} (here : s.recovery = .recovering (jobId :: rest)) (available : Bool) :
    Supervision (s.requeueStep clock jobId rest available) := by
  have post := post_call (requeueRunningJobWithEvent_post clock jobId s.world h.store) available
  have keeps : ∀ jobId rest, s.recovery ≠ .discarding jobId rest := by
    rw [here]
    exact fun _ _ => RecoveryPhase.noConfusion
  unfold AgentJobService.requeueStep
  rcases hrun : Exec.run (call available (requeueRunningJobWithEvent clock jobId)) s.world with
    ⟨e | _, w⟩
  · exact (h.world (post.of_error hrun)).phase keeps
      (not_discarding_of_snapshot (recoveryRaised_snapshot e))
  · obtain ⟨invariant, others, settled⟩ := post.of_ok hrun
    refine ⟨invariant, fun other running => ?_⟩
    have different : other ≠ jobId := by
      rintro rfl
      obtain ⟨job, stored, status⟩ := running
      exact settled job stored status
    have before := (hasStatus_of_others others other different .running).mp running
    rcases h.owned other before with held | awaited
    · exact .inl held
    · rw [awaiting_eq keeps] at awaited
      exact .inr (Finset.mem_erase.mpr ⟨different, awaited⟩)

theorem Supervision.discard (h : Supervision s) {jobId : UUID} {rest : List UUID}
    (here : s.recovery = .discarding jobId rest) :
    Supervision { s with
      interruptedJobIds := s.interruptedJobIds.erase jobId, recovery := recoverNext rest } := by
  refine ⟨h.store, fun other running => ?_⟩
  have same : awaiting { s with interruptedJobIds := s.interruptedJobIds.erase jobId
                                recovery := recoverNext rest } = s.awaiting := by
    rw [awaiting_eq (recoverNext_not_discarding rest)]
    simp [awaiting, here]
  rw [same]
  exact h.owned other running

theorem Supervision.listStep (h : Supervision s) (recoveryBatchSize : Int)
    (here : s.recovery = .listing) (available : Bool) :
    Supervision (s.listStep recoveryBatchSize available) := by
  have post := post_call (listQueued_post recoveryBatchSize s.world) available
  have keeps : ∀ jobId rest, s.recovery ≠ .discarding jobId rest := by
    rw [here]
    exact fun _ _ => RecoveryPhase.noConfusion
  unfold AgentJobService.listStep
  rcases hrun : Exec.run (call available (listQueued recoveryBatchSize)) s.world with
    ⟨e | queued, w⟩
  · exact (h.world (post.of_error hrun)).phase keeps
      (not_discarding_of_snapshot (recoveryRaised_snapshot e))
  · exact (h.world (post.of_ok hrun)).phase keeps
      (not_discarding_of_snapshot (dispatchNext_snapshot _))

theorem Supervision.scheduleStep (h : Supervision s) (jobId : UUID) (answer : Answer)
    (phase : SchedulePhase) : Supervision (s.scheduleStep jobId answer phase).2 := by
  obtain ⟨world, recovery, interrupted, kept⟩ := s.scheduleStep_frame jobId answer phase
  refine ⟨world ▸ h.store, h.owned.frame (fun other running => ?_) recovery interrupted kept⟩
  rwa [← world]

theorem Supervision.recoveryScheduleStep (h : Supervision s) {jobId : UUID}
    {phase : SchedulePhase} {rest : List UUID} (here : s.recovery = .scheduling jobId phase rest)
    (answer : Answer) : Supervision (s.recoveryScheduleStep jobId phase rest answer) := by
  have moved := h.scheduleStep jobId answer phase
  obtain ⟨-, recovery, -, -⟩ := s.scheduleStep_frame jobId answer phase
  have keeps : ∀ jobId' rest',
      (s.scheduleStep jobId answer phase).2.recovery ≠ .discarding jobId' rest' := by
    rw [recovery, here]
    exact fun _ _ => RecoveryPhase.noConfusion
  unfold AgentJobService.recoveryScheduleStep
  rcases hout : s.scheduleStep jobId answer phase with ⟨next | (_ | _ | _), t⟩ <;>
    simp only [hout] at moved keeps
  · exact moved.phase keeps fun _ _ => RecoveryPhase.noConfusion
  · exact moved.phase keeps (not_discarding_of_snapshot (dispatchNext_snapshot rest))
  · exact moved.phase keeps fun _ _ => RecoveryPhase.noConfusion
  · exact moved.phase keeps (not_discarding_of_snapshot (dispatchNext_snapshot rest))

/-- A thread that holds no job moves on. -/
theorem Supervision.setThread (h : Supervision s) {i : Nat} {old : ServiceThread}
    (here : s.threads[i]? = some old) (free : old.owned = none) (new : ServiceThread) :
    Supervision (s.setThread i new) := by
  refine ⟨h.store, h.owned.setThread here fun jobId own => ?_⟩
  rw [free] at own
  cases own

theorem Supervision.submissionScheduleStep (h : Supervision s) {i : Nat} {jobId : UUID}
    {phase : SchedulePhase} (here : s.threads[i]? = some (.scheduling jobId phase))
    (answer : Answer) : Supervision (s.submissionScheduleStep i jobId phase answer) := by
  have moved := h.scheduleStep jobId answer phase
  obtain ⟨-, -, -, kept⟩ := s.scheduleStep_frame jobId answer phase
  have there := kept i _ here
  unfold AgentJobService.submissionScheduleStep
  rcases hout : s.scheduleStep jobId answer phase with ⟨next | (_ | _ | _), t⟩ <;>
    simp only [hout] at moved there <;> exact moved.setThread there rfl _

theorem Supervision.rejectStep (h : Supervision s) (clock : Clock) {i : Nat} {jobId : UUID}
    (here : s.threads[i]? = some (.rejecting jobId)) (available : Bool) :
    Supervision (s.rejectStep clock i jobId available) := by
  have post := post_call
    (rejectWithEvent_post clock jobId DISPATCH_UNAVAILABLE none s.world h.store) available
  have effect (w : AgentJobWorld) (hw : Supervision { s with world := w }) :
      Supervision ({ s with world := w }.setThread i .returned) := hw.setThread here rfl _
  unfold AgentJobService.rejectStep
  rcases hrun : Exec.run (call available (rejectWithEvent clock jobId DISPATCH_UNAVAILABLE none))
    s.world with ⟨e | returned, w⟩
  · exact effect w (h.world (post.of_error hrun))
  · rcases post.of_ok hrun with ⟨-, same⟩ | ⟨-, invariant, moved⟩
    · exact effect w (h.world same)
    · refine effect w ⟨invariant, h.owned.frame (fun other running => ?_) rfl rfl
        fun _ _ there => there⟩
      exact (running_of_moved moved AgentJobStatus.noConfusion other running).2

theorem runningJob_eq {i : Nat} {jobId : UUID} {phase : CallbackPhase} {job : AgentJob}
    (here : s.threads[i]? = some (.callback jobId phase))
    (stored : s.world.store.jobs.get? jobId = some job) (status : job.status = .running) :
    s.runningJob i = some (job, phase) := by
  simp only [runningJob, here, stored]
  rw [Option.filter_some, if_pos (decide_eq_true status)]
  rfl

/-- A terminal write that commits if its job is running lets the callback go. -/
theorem Supervision.write (h : Supervision s) {i : Nat} {jobId : UUID}
    {outcome : Except String SeriesAgentResult}
    (here : s.threads[i]? = some (.callback jobId (.writing outcome)))
    {p : Repository (Option AgentJob)} {next : AgentJobStatus} (ended : next ≠ .running)
    (effect : Exec.Post p (fun returned w => MovedOr s.world w jobId .running next returned)
      (fun _ w => w.store = s.world.store) s.world)
    (commits : s.world.store.HasStatus jobId .running →
      Exec.Post p (fun returned _ => returned.isSome = true) (fun _ _ => False) s.world) :
    Exec.Post p
      (fun _ w => Supervision ({ s with world := w }.setThread i (.callback jobId .finishing)))
      (fun e w => Supervision
        ({ s with world := w }.setThread i (.callback jobId (callbackRaised e)))) s.world := by
  -- The callback may let go of its job in a world where the job is not running.
  have release {w : AgentJobWorld} (after : Supervision { s with world := w })
      (settled : ¬w.store.HasStatus jobId .running) (phase : CallbackPhase) :
      Supervision ({ s with world := w }.setThread i (.callback jobId phase)) := by
    refine ⟨after.store, after.owned.setThread here fun other own running => ?_⟩
    cases own
    exact absurd running settled
  have moves {w : AgentJobWorld} (invariant : StoreInvariant w.store)
      (moved : Moved s.world.store w.store jobId .running next) :
      Supervision ({ s with world := w }.setThread i (.callback jobId .finishing)) := by
    refine release ⟨invariant, h.owned.frame (fun other running => ?_) rfl rfl
      fun _ _ there => there⟩ (fun running => ?_) _
    · exact (running_of_moved moved ended other running).2
    · exact (running_of_moved moved ended jobId running).1 rfl
  by_cases running : s.world.store.HasStatus jobId .running
  · refine (effect.and (commits running)).mono ?_ fun _ _ impossible => impossible.2.elim
    rintro returned w ⟨⟨none, -⟩ | ⟨-, invariant, moved⟩, committed⟩
    · rw [none] at committed
      cases committed
    · exact moves invariant moved
  · refine effect.mono ?_ fun e w same => ?_
    · rintro returned w (⟨-, same⟩ | ⟨-, invariant, moved⟩)
      · exact release (h.world same) (same ▸ running) _
      · exact moves invariant moved
    · exact release (h.world same) (same ▸ running) _

theorem Supervision.claim (h : Supervision s) {i : Nat} {jobId : UUID}
    (here : s.threads[i]? = some (.callback jobId .claiming)) {w : AgentJobWorld}
    (moved : Moved s.world.store w.store jobId .queued .running)
    (invariant : StoreInvariant w.store) :
    Supervision ({ s with world := w }.setThread i (.callback jobId .executing)) := by
  refine ⟨invariant, fun other running => ?_⟩
  by_cases same : other = jobId
  · refine .inl ⟨i, .callback jobId .executing, ?_, same ▸ rfl⟩
    exact List.getElem?_set_self (List.getElem?_eq_some_iff.mp here).1
  · have before := (hasStatus_of_others moved.others other same .running).mp running
    rcases h.owned other before with ⟨j, thread, there, own⟩ | awaited
    · refine .inl ⟨j, thread, ?_, own⟩
      have different : i ≠ j := by
        rintro rfl
        rw [here] at there
        cases there
        cases own
      exact (List.getElem?_set_ne different).trans there
    · exact .inr awaited

theorem Supervision.interrupt (h : Supervision s) {i : Nat} {jobId : UUID} {phase : CallbackPhase}
    (here : s.threads[i]? = some (.callback jobId phase)) :
    Supervision (s.setThread i (.callback jobId .interrupted)) := by
  refine ⟨h.store, h.owned.setThread here fun other own _ => .inl ?_⟩
  cases phase <;> cases own <;> rfl

theorem callbackRaised_eq {e : Raised} (h : e.kind = .agentJobUnavailable) :
    callbackRaised e = .interrupted := if_pos h

theorem Supervision.callbackStep (h : Supervision s) (clock : Clock) {i : Nat} {jobId : UUID}
    {phase : CallbackPhase} (here : s.threads[i]? = some (.callback jobId phase))
    {p : Repository CallbackPhase} (next : nextCall clock jobId phase = some p)
    (available : Bool) (orderly : s.Orderly clock (.perform (.callRepository i available))) :
    Supervision (s.callbackStep i jobId (call available p)) := by
  cases available with
  | false => exact h.interrupt here
  | true =>
      have free {phase' : CallbackPhase} {w : AgentJobWorld} (same : w.store = s.world.store)
          (none : ServiceThread.owned (.callback jobId phase) = none) :
          Supervision ({ s with world := w }.setThread i (.callback jobId phase')) :=
        (h.world same).setThread here none _
      have post : Exec.Post p
          (fun phase' w => Supervision
            ({ s with world := w }.setThread i (.callback jobId phase')))
          (fun e w => Supervision
            ({ s with world := w }.setThread i (.callback jobId (callbackRaised e))))
          s.world := by
        cases phase with
        | starting =>
            cases next
            simp only [InMemoryAgentJobRepository.store, Exec.post_bind, Exec.post_get,
              Exec.post_pure]
            cases find s.world.store jobId none with
            | none => exact free rfl rfl
            | some job =>
                simp only [Exec.post_pure]
                split
                · exact free rfl rfl
                · exact free rfl rfl
        | claiming =>
            cases next
            rw [Exec.post_bind]
            refine (claimWithEvent_post clock jobId none s.world h.store).mono ?_
              fun e w same => free same rfl
            rintro (_ | job) w (⟨returned, same⟩ | ⟨returned, invariant, moved⟩)
            · exact free same rfl
            · cases returned
            · cases returned
            · exact h.claim here moved invariant
        | refetching =>
            cases next
            exact free rfl rfl
        | writing outcome =>
            have writable {job : AgentJob}
                (stored : s.world.store.jobs.get? jobId = some job)
                (status : job.status = .running) : Writable clock s.world job outcome :=
              orderly _ (runningJob_eq here stored status) outcome rfl
            cases outcome with
            | ok result =>
                cases next
                rw [Exec.post_bind]
                refine h.write here ?_ (completeWithEvent_post clock jobId result none s.world
                  h.store) ?_
                · cases result.isSafeRefusal <;> exact AgentJobStatus.noConfusion
                · rintro ⟨job, stored, status⟩
                  exact completeWithEvent_commits h.store stored status (writable stored status)
            | error code =>
                cases next
                rw [Exec.post_bind]
                refine h.write here AgentJobStatus.noConfusion
                  (failWithEvent_post clock jobId code none s.world h.store) ?_
                rintro ⟨job, stored, status⟩
                exact failWithEvent_commits h.store stored status (writable stored status)
        | executing | interrupted | finishing | finished => cases next
      unfold AgentJobService.callbackStep
      rcases hrun : Exec.run (call true p) s.world with ⟨e | phase', w⟩
      · exact post.of_error hrun
      · exact post.of_ok hrun

/-- An outage is recorded: unless the loop is about to discard the job, the job is
re-queued later. -/
theorem Supervision.report (h : Supervision s) {clock : Clock} {i : Nat} {jobId : UUID}
    (here : s.threads[i]? = some (.callback jobId .interrupted))
    (orderly : s.Orderly clock (.perform (.settle i))) :
    Supervision ({ s with interruptedJobIds := insert jobId s.interruptedJobIds }.setThread i
      (.callback jobId .finishing)) := by
  let reported := { s with interruptedJobIds := insert jobId s.interruptedJobIds }
  have grows : ∀ other ∈ s.awaiting, other ∈ reported.awaiting := by
    intro other awaited
    rcases awaiting_insert (s := s) jobId with lost | kept
    · rwa [show reported.awaiting = s.awaiting from lost]
    · rw [show reported.awaiting = insert jobId s.awaiting from kept]
      exact Finset.mem_insert_of_mem awaited
  have owned : Owned reported := by
    intro other running
    rcases h.owned other running with held | awaited
    · exact .inl held
    · exact .inr (grows other awaited)
  refine ⟨h.store, owned.setThread here fun other own running => .inr ?_⟩
  cases own
  obtain ⟨job, stored, status⟩ := running
  have undiscarded := orderly _ (runningJob_eq here stored status) rfl
  rw [h.store.identified jobId job stored] at undiscarded
  have inserted : jobId ∈ reported.interruptedJobIds := Finset.mem_insert_self _ _
  rw [awaiting]
  split
  · rename_i other rest discarding
    refine Finset.mem_erase.mpr ⟨?_, inserted⟩
    rintro rfl
    rw [show s.recovery = _ from discarding] at undiscarded
    exact of_decide_eq_false undiscarded rfl
  · exact inserted

theorem Supervision.release (h : Supervision s) {i : Nat} {jobId : UUID}
    (here : s.threads[i]? = some (.callback jobId .finishing)) :
    Supervision ({ s with scheduledJobIds := s.scheduledJobIds.erase jobId }.setThread i
      (.callback jobId .finished)) := by
  let released := { s with scheduledJobIds := s.scheduledJobIds.erase jobId }
  have after : Supervision released :=
    ⟨h.store, h.owned.frame (fun _ running => running) rfl rfl fun _ _ there => there⟩
  exact after.setThread here rfl _

/-- The conversation ends in an outcome to write, or the query cannot be built; in
an orderly step the second happens to no running job. -/
theorem Supervision.converse (h : Supervision s) {clock : Clock} {i : Nat} {jobId : UUID}
    (here : s.threads[i]? = some (.callback jobId .executing))
    {outcome : Option (Except String SeriesAgentResult)} {job : AgentJob}
    (stored : s.world.store.jobs.get? jobId = some job)
    (built : outcome.isSome = (conversationQuery job).isOk)
    (orderly : s.Orderly clock (.perform (.converse i outcome))) {phase : CallbackPhase}
    (next : ∀ value, outcome = some value → phase = .writing value) :
    Supervision (s.setThread i (.callback jobId phase)) := by
  refine ⟨h.store, h.owned.setThread here fun other own running => .inl ?_⟩
  cases own
  obtain ⟨current, now_stored, status⟩ := running
  rw [stored] at now_stored
  cases now_stored
  obtain ⟨query, made⟩ := (conversationQuery_isOk job).mpr
    (orderly _ (runningJob_eq here stored status))
  rw [made] at built
  cases outcome with
  | some outcome =>
      rw [next outcome rfl]
      rfl
  | none => cases built

theorem Supervision.refuse (h : Supervision s) {clock : Clock} {i : Nat} {jobId : UUID}
    {phase : CallbackPhase} (here : s.threads[i]? = some (.callback jobId phase))
    (calls : (nextCall clock jobId phase).isSome = true) (error : Raised)
    (orderly : s.Orderly clock (.refuse i error)) :
    Supervision (s.setThread i (.callback jobId (callbackRaised error))) := by
  refine ⟨h.store, h.owned.setThread here fun other own running => .inl ?_⟩
  obtain ⟨job, stored, status⟩ := running
  cases phase with
  | writing outcome =>
      cases own
      rw [callbackRaised_eq (orderly _ (runningJob_eq here stored status) rfl)]
      rfl
  | executing | interrupted => cases calls
  | starting | claiming | refetching | finishing | finished => cases own

theorem Supervision.step (h : Supervision s) {clock : Clock} {recoveryBatchSize : Int}
    {action : SupervisedAction} (orderly : s.Orderly clock action)
    (taken : s.supervise clock recoveryBatchSize action = some t) : Supervision t := by
  cases action with
  | refuse i error =>
      simp only [supervise] at taken
      split at taken
      · rw [Option.ite_none_right_eq_some] at taken
        obtain ⟨calls, ⟨⟩⟩ := taken
        exact h.refuse ‹_› calls error orderly
      · cases taken
  | refuseRecovery error =>
      simp only [supervise] at taken
      split at taken
      · rename_i here
        cases taken
        exact h.phase (by rw [here]; exact fun _ _ => RecoveryPhase.noConfusion)
          (not_discarding_of_snapshot (recoveryRaised_snapshot error))
      · rename_i here
        cases taken
        exact h.phase (by rw [here]; exact fun _ _ => RecoveryPhase.noConfusion)
          (not_discarding_of_snapshot (recoveryRaised_snapshot error))
      · cases taken
  | perform action =>
      cases action with
      | converse i outcome =>
          simp only [supervise] at taken
          split at taken
          · rename_i jobId here
            obtain ⟨job, stored, taken⟩ := Option.bind_eq_some_iff.mp taken
            rw [Option.ite_none_right_eq_some] at taken
            obtain ⟨built, taken⟩ := taken
            simp only [AgentJobService.step, here] at taken
            cases taken
            exact h.converse here stored built orderly (fun _ same => by rw [same])
          · cases taken
      | submit job available =>
          cases taken
          exact h.submitStep clock job available
      | stop =>
          obtain ⟨waiting, ⟨⟩⟩ := Option.ite_none_right_eq_some.mp taken
          exact h.phase (by rw [waiting]; exact fun _ _ => RecoveryPhase.noConfusion)
            fun _ _ => RecoveryPhase.noConfusion
      | scan order =>
          obtain ⟨⟨waiting, -⟩, ⟨⟩⟩ := Option.ite_none_right_eq_some.mp taken
          exact h.phase (by rw [waiting]; exact fun _ _ => RecoveryPhase.noConfusion)
            (recoverNext_not_discarding order)
      | requeue available =>
          simp only [supervise, AgentJobService.step] at taken
          split at taken
          · cases taken
            exact h.requeueStep clock ‹_› available
          · cases taken
      | discard =>
          simp only [supervise, AgentJobService.step] at taken
          split at taken
          · cases taken
            exact h.discard ‹_›
          · cases taken
      | listQueued available =>
          obtain ⟨listing, ⟨⟩⟩ := Option.ite_none_right_eq_some.mp taken
          exact h.listStep recoveryBatchSize listing available
      | recoverySchedule answer =>
          simp only [supervise, AgentJobService.step] at taken
          split at taken
          · cases taken
            exact h.recoveryScheduleStep ‹_› answer
          · cases taken
      | schedule i answer =>
          simp only [supervise, AgentJobService.step] at taken
          split at taken
          · cases taken
            exact h.submissionScheduleStep ‹_› answer
          · cases taken
      | reject i available =>
          simp only [supervise, AgentJobService.step] at taken
          split at taken
          · cases taken
            exact h.rejectStep clock ‹_› available
          · cases taken
      | callRepository i available =>
          simp only [supervise, AgentJobService.step] at taken
          split at taken
          · obtain ⟨p, next, rfl⟩ := Option.map_eq_some_iff.mp taken
            exact h.callbackStep clock ‹_› next available orderly
          · cases taken
      | settle i =>
          simp only [supervise, AgentJobService.step] at taken
          split at taken
          · cases taken
            exact h.report ‹_› orderly
          · cases taken
            exact h.release ‹_›
          · cases taken

end Steps

/-- The world in which the supervisor starts its loop: the last batch of
`_recover_interrupted_jobs` was not full. -/
def Recovered (clock : Clock) (recoveryBatchSize : Int) (world : AgentJobWorld) : Prop :=
  ∃ (prior : AgentJobWorld) (batch : List AgentJob), StoreInvariant prior.store ∧
    Exec.run (requeueRunningWithEvent clock recoveryBatchSize) prior = (.ok batch, world) ∧
    batch.length < recoveryBatchSize

theorem Supervision.started {clock : Clock} {recoveryBatchSize : Int} {world : AgentJobWorld}
    (recovered : Recovered clock recoveryBatchSize world) :
    Supervision (AgentJobService.started world) := by
  obtain ⟨prior, batch, invariant, ran, short⟩ := recovered
  obtain ⟨store, settled⟩ :=
    (requeueRunningWithEvent_post clock recoveryBatchSize prior invariant).of_ok ran
  refine ⟨store, fun jobId running => ?_⟩
  obtain ⟨job, stored, status⟩ := running
  exact absurd status (settled short jobId job stored)

/-- In every orderly run of the supervised service each running job has a callback
inside `execute` or is in the interrupted set. -/
theorem running_jobs_attended (clock : Clock) (recoveryBatchSize : Int) {world : AgentJobWorld}
    (recovered : Recovered clock recoveryBatchSize world) {s : AgentJobService}
    (run : Run (supervise clock recoveryBatchSize) (Orderly clock) (started world) s) :
    s.Attended :=
  (run.invariant (Supervision.started recovered)
    (fun _ _ _ h orderly taken => h.step orderly taken)).owned.attended

end AgentJobService

end Ownership

section Sample

open AgentJobService

attribute [local instance] Normalization.ascii

theorem recovered_empty : Recovered sampleClock 32 ⟨.empty, 0⟩ :=
  ⟨⟨.empty, 0⟩, [], StoreInvariant.empty, rfl, by decide⟩

/-- The condition is met by a run in which an outage meets the terminal write: the
job is running without a callback, and is in the interrupted set. -/
theorem running_jobs_attended_outage :
    ∃ s : AgentJobService, s.recovery = .recovering [⟨1⟩] ∧
      s.world.store.HasStatus ⟨1⟩ .running ∧ s.Attended := by
  obtain ⟨s, run, reached⟩ := Run.exists_of_checked (supervise sampleClock 32)
    (Orderly sampleClock) (started ⟨.empty, 0⟩) (outageActions.map .perform)
    (fun s => s.recovery = .recovering [⟨1⟩] ∧
      (s.world.store.jobs.get? ⟨1⟩).map (·.status) = some .running) (by decide +kernel)
  obtain ⟨recovering, running⟩ := of_decide_eq_true reached
  exact ⟨s, recovering, Option.map_eq_some_iff.mp running,
    running_jobs_attended sampleClock 32 recovered_empty run⟩

/-- The job is submitted, a callback claims it, and goes on with `rest`. -/
def claimThen (job : AgentJob) (rest : List ServiceAction) : List SupervisedAction :=
  let claims : List ServiceAction := [.scan [], .submit job true] ++
    List.replicate 6 (.schedule 0 .yes) ++ [.callRepository 1 true, .callRepository 1 true]
  (claims ++ rest).map .perform

/-- The same request in a protected mode, without a boundary. -/
def unboundedJob : AgentJob where
  toAgentJobFields := { sampleJob.toAgentJobFields with spoilerMode := .strict }
  valid := by decide +kernel

/-- The job is running, its callback has ended and nothing will re-queue it. -/
def abandoned (s : AgentJobService) : Bool :=
  s.threads = [.returned, .callback ⟨1⟩ .finished] ∧ ⟨1⟩ ∉ s.interruptedJobIds ∧
    (s.world.store.jobs.get? ⟨1⟩).map (·.status) = some .running

theorem not_attended_of_abandoned {s : AgentJobService} (h : abandoned s = true) :
    ¬s.Attended := by
  obtain ⟨threads, unreported, running⟩ := of_decide_eq_true h
  intro attended
  rcases attended ⟨1⟩ (Option.map_eq_some_iff.mp running) with ⟨i, phase, here, inside⟩ | reported
  · have member := List.mem_of_getElem? here
    rw [threads] at member
    rcases List.mem_cons.mp member with scheduling | member
    · cases scheduling
    · cases List.mem_singleton.mp member
      cases inside
  · exact unreported reported

/-- A result whose answer the privacy scan refuses, and a job whose watch state
cannot be built, each leave the job running with no owner. -/
theorem running_job_abandoned :
    (∃ s, Run (supervise sampleClock 32) (fun _ _ => True) (started ⟨.empty, 0⟩) s ∧
      ¬s.Attended) ∧
    ∃ s, Run (supervise sampleClock 32) (fun _ _ => True) (started ⟨.empty, 0⟩) s ∧
      unboundedJob.key ∈ s.world.store.keys.keys ∧ ¬s.Attended := by
  constructor
  · obtain ⟨s, run, reached⟩ := Run.exists_of_checked (supervise sampleClock 32)
      (fun _ _ => True) (started ⟨.empty, 0⟩) (claimThen sampleJob
        [.converse 1 (some (.ok markedResult)), .callRepository 1 true, .settle 1])
      abandoned (by decide +kernel)
    exact ⟨s, run, not_attended_of_abandoned reached⟩
  · obtain ⟨s, run, reached⟩ := Run.exists_of_checked (supervise sampleClock 32)
      (fun _ _ => True) (started ⟨.empty, 0⟩)
      (claimThen unboundedJob [.converse 1 none, .settle 1])
      (fun s => abandoned s && decide (unboundedJob.key ∈ s.world.store.keys.keys))
      (by decide +kernel)
    rw [Bool.and_eq_true, decide_eq_true_eq] at reached
    exact ⟨s, run, reached.2, not_attended_of_abandoned reached.1⟩

end Sample

end Cinegraph
