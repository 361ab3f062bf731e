import Cinegraph.IngestionJobs.InMemory

/-!
What holds of the in-memory ingestion store in every reachable state: a pending
job has an attempt left, the attempts count the claims in the log, and the log
ends in the job's status, for good once that status is final.
-/

namespace Cinegraph

open Library IngestionJobErrorMessages

/-- The status an event leaves its job in. Of the re-claims only the one that
reports exhausted attempts is final. -/
def IngestionJobEvent.status (event : IngestionJobEvent) : IngestionJobStatus :=
  match event.kind with
  | .enqueued | .retried => .pending
  | .claimed | .heartbeat => .running
  | .succeeded => .succeeded
  | .failed => .failed
  | .cancelled => .cancelled
  | .reclaimed =>
      if event.errorCode = some LEASE_EXPIRED_MAX_ATTEMPTS_ERROR_CODE then .failed else .pending

/-- What one operation does to a stored job and its log. -/
structure JobStep (prior updated : IngestionJob) (kind : IngestionJobEventKind)
    (errorCode : Option String) : Prop where
  active : prior.status.terminal = false
  jobId : updated.jobId = prior.jobId
  idempotencyKey : updated.idempotencyKey = prior.idempotencyKey
  createdAt : updated.createdAt = prior.createdAt
  below : updated.status = .pending → updated.attempts < updated.maxAttempts
  attempts : updated.attempts = prior.attempts + if kind = .claimed then 1 else 0
  status : ∀ event : IngestionJobEvent, event.kind = kind → event.errorCode = errorCode →
    event.status = updated.status

structure JobInvariant (now : DateTime) (job : IngestionJob) (log : List IngestionJobEvent) :
    Prop where
  created : job.createdAt ≤ now
  below : job.status = .pending → job.attempts < job.maxAttempts
  attempts : job.attempts = log.countP (·.kind = .claimed)
  numbered : log.map (·.sequenceNumber) = (List.range' 1 log.length).map Int.ofNat
  last : log.getLast?.map IngestionJobEvent.status = some job.status

/-- The invariant of the store at an instant. -/
structure IngestionInvariant (now : DateTime) (s : IngestionJobStore) : Prop where
  identified : ∀ id job, s.jobs.get? id = some job → job.jobId = id
  logged : ∀ id job, s.jobs.get? id = some job →
    ∃ log, s.events.get? id = some log ∧ JobInvariant now job log

namespace IngestionJobService

variable {configuration : IngestionJobConfiguration} {now : DateTime}

/-- A plan computed from a job describes one step of it. -/
def Steps (plan : IngestionJob → Except Raised Plan) : Prop :=
  ∀ job p, plan job = .ok p → JobStep job p.updated p.kind p.errorCode

theorem heartbeatPlan_steps (workerId : String) :
    Steps (heartbeatPlan configuration workerId now) := by
  intro job p h
  simp only [heartbeatPlan, bind_eq_ok] at h
  obtain ⟨expected, -, updated, hupdated, h⟩ := h
  cases h
  obtain ⟨lease, leased, -, fields⟩ := IngestionJob.heartbeat_ok hupdated
  have running := leased.running
  have status : updated.status = .running := by rw [fields, running]
  refine ⟨by rw [running]; rfl, by rw [fields], by rw [fields], by rw [fields], ?_, ?_, ?_⟩
  · intro pending
    rw [status] at pending
    cases pending
  · rw [fields]
    simp
  · intro event kind _
    rw [IngestionJobEvent.status, kind, status]

theorem succeedPlan_steps (workerId : String) : Steps (succeedPlan workerId now) := by
  intro job p h
  simp only [succeedPlan, bind_eq_ok] at h
  obtain ⟨expected, -, updated, hupdated, h⟩ := h
  cases h
  obtain ⟨lease, leased, fields⟩ := IngestionJob.succeed_ok hupdated
  have status : updated.status = .succeeded := by rw [fields]
  refine ⟨by rw [leased.running]; rfl, by rw [fields], by rw [fields], by rw [fields], ?_, ?_, ?_⟩
  · intro pending
    rw [status] at pending
    cases pending
  · rw [fields]
    simp
  · intro event kind _
    rw [IngestionJobEvent.status, kind, status]

theorem failOrRetryPlan_steps (workerId errorCode : String) :
    Steps (failOrRetryPlan configuration workerId errorCode now) := by
  intro job p h
  simp only [failOrRetryPlan, bind_eq_ok] at h
  obtain ⟨expected, -, h⟩ := h
  split at h
  · obtain ⟨updated, hupdated, h⟩ := (bind_eq_ok _).mp h
    cases h
    obtain ⟨lease, leased, fields⟩ := IngestionJob.fail_ok hupdated
    have status : updated.status = .failed := by rw [fields]
    refine ⟨by rw [leased.running]; rfl, by rw [fields], by rw [fields], by rw [fields], ?_, ?_,
      ?_⟩
    · intro pending
      rw [status] at pending
      cases pending
    · rw [fields]
      simp
    · intro event kind _
      rw [IngestionJobEvent.status, kind, status]
  · obtain ⟨updated, hupdated, h⟩ := (bind_eq_ok _).mp h
    cases h
    have left : job.attempts < job.maxAttempts := by omega
    obtain ⟨lease, leased, fields⟩ := IngestionJob.retry_ok left hupdated
    refine ⟨by rw [leased.running]; rfl, by rw [fields], by rw [fields], by rw [fields], ?_, ?_,
      ?_⟩
    · intro _
      rw [fields]
      exact left
    · rw [fields]
      simp
    · intro event kind _
      rw [IngestionJobEvent.status, kind, fields]

theorem cancelPlan_steps : Steps (cancelPlan now) := by
  intro job p h
  obtain ⟨updated, hupdated, h⟩ := (bind_eq_ok _).mp h
  cases h
  obtain ⟨pending, fields⟩ := IngestionJob.cancel_ok hupdated
  have status : updated.status = .cancelled := by rw [fields]
  refine ⟨by rw [pending]; rfl, by rw [fields], by rw [fields], by rw [fields], ?_, ?_, ?_⟩
  · intro pending
    rw [status] at pending
    cases pending
  · rw [fields]
    simp
  · intro event kind _
    rw [IngestionJobEvent.status, kind, status]

theorem reclaimPlan_steps : Steps (reclaimPlan configuration now) := by
  intro job p h
  simp only [reclaimPlan, bind_eq_ok] at h
  obtain ⟨updated, hupdated, expected, -, h⟩ := h
  cases h
  obtain ⟨running, -, fields⟩ := IngestionJob.reclaim_ok hupdated
  have active : job.status.terminal = false := by rw [running]; rfl
  by_cases spent : job.attempts ≥ job.maxAttempts
  · rw [if_pos spent] at fields
    have status : updated.status = .failed := by rw [fields]
    refine ⟨active, by rw [fields], by rw [fields], by rw [fields], ?_, ?_, ?_⟩
    · intro pending
      rw [status] at pending
      cases pending
    · rw [fields]
      simp
    · intro event kind code
      rw [IngestionJobEvent.status, kind, code, fields]
      rfl
  · rw [if_neg spent] at fields
    refine ⟨active, by rw [fields], by rw [fields], by rw [fields], ?_, ?_, ?_⟩
    · intro _
      rw [fields]
      change job.attempts < job.maxAttempts
      omega
    · rw [fields]
      simp
    · intro event kind code
      rw [IngestionJobEvent.status, kind, code, fields]
      rfl

theorem claim_step {job claimed : IngestionJob} {workerId : String} {lease : DateTime}
    (h : job.claim workerId now lease = .ok claimed) : JobStep job claimed .claimed none := by
  obtain ⟨-, pending, -, fields⟩ := IngestionJob.claim_ok h
  have status : claimed.status = .running := by rw [fields]
  refine ⟨by rw [pending]; rfl, by rw [fields], by rw [fields], by rw [fields], ?_, ?_, ?_⟩
  · intro pending
    rw [status] at pending
    cases pending
  · rw [fields]
    simp
  · intro event kind _
    rw [IngestionJobEvent.status, kind, status]

end IngestionJobService

open IngestionJobService InMemoryIngestionJobRepository

/-- The numbers of a log that is numbered from 1. -/
theorem numbered_concat {log : List IngestionJobEvent} {event : IngestionJobEvent}
    (numbered : log.map (·.sequenceNumber) = (List.range' 1 log.length).map Int.ofNat)
    (next : event.sequenceNumber = log.length + 1) :
    (log ++ [event]).map (·.sequenceNumber) =
      (List.range' 1 (log ++ [event]).length).map Int.ofNat := by
  simp only [List.map_append, numbered, List.length_append, List.length_singleton,
    List.range'_concat, List.map_cons, List.map_nil, next]
  congr 2
  simp only [Nat.one_mul, Int.ofNat_eq_natCast]
  omega

theorem JobInvariant.later {earlier now : DateTime} {job : IngestionJob}
    {log : List IngestionJobEvent} (h : JobInvariant earlier job log) (le : earlier ≤ now) :
    JobInvariant now job log :=
  { h with created := DateTime.le_trans h.created le }

theorem JobInvariant.append {now : DateTime} {prior updated : IngestionJob}
    {log : List IngestionJobEvent} {kind : IngestionJobEventKind} {errorCode : Option String}
    {event : IngestionJobEvent} (h : JobInvariant now prior log)
    (step : JobStep prior updated kind errorCode) (sameKind : event.kind = kind)
    (sameCode : event.errorCode = errorCode) (next : event.sequenceNumber = log.length + 1) :
    JobInvariant now updated (log ++ [event]) := by
  constructor
  · rw [step.createdAt]
    exact h.created
  · exact step.below
  · rw [step.attempts, h.attempts, List.countP_append]
    by_cases claimed : kind = .claimed <;> simp [sameKind, claimed]
  · exact numbered_concat h.numbered next
  · simp [step.status event sameKind sameCode]

/-- A new job was added under its key, with the first event of its log. -/
structure Enqueued (now : DateTime) (command : EnqueueIngestionJob) (s t : IngestionJobStore) :
    Prop where
  fresh : getByIdempotencyKey s (deterministicIngestionIdempotencyKey command) = none
  added : ∃ job event, job.jobId = ingestionJobId command ∧ JobInvariant now job [event] ∧
    t = ⟨s.jobs.set job.jobId job, s.events.set job.jobId [event]⟩

/-- A stored job took one step, which its log records. -/
def Changed (s t : IngestionJobStore) : Prop :=
  ∃ (prior updated : IngestionJob) (kind : IngestionJobEventKind) (errorCode : Option String)
    (event : IngestionJobEvent),
    s.jobs.get? prior.jobId = some prior ∧ JobStep prior updated kind errorCode ∧
    event.kind = kind ∧ event.errorCode = errorCode ∧
    event.sequenceNumber = (eventsOf s prior.jobId).length + 1 ∧
    t = ⟨s.jobs.set prior.jobId updated,
      s.events.set prior.jobId (eventsOf s prior.jobId ++ [event])⟩

theorem append_post (now : DateTime) {u : IngestionUnitOfWork} (job : IngestionJob)
    (kind : IngestionJobEventKind) (workerId errorCode : Option String) :
    Exec.Post (append job kind now workerId errorCode)
      (fun _ v => ∃ event : IngestionJobEvent, event.kind = kind ∧ event.errorCode = errorCode ∧
        event.sequenceNumber = (eventsOf u.working job.jobId).length + 1 ∧
        v = u.setEvents job.jobId (eventsOf u.working job.jobId ++ [event]))
      (fun _ v => v = u) u := by
  simp only [append, appendEvent, working, Exec.post_bind, Exec.post_get, Exec.post_pure,
    Exec.post_lift, Exec.post_modify]
  refine ⟨fun event made => ?_, fun _ _ => trivial⟩
  have fields := IngestionJobEvent.make_ok made
  have own : event.jobId = job.jobId := by rw [fields]
  refine ⟨fun _ _ => ⟨event, by rw [fields], by rw [fields], by rw [fields], ?_⟩,
    fun _ _ => trivial⟩
  rw [own]

theorem save_post (now : DateTime) (plan : Plan) (u : IngestionUnitOfWork) :
    Exec.Post (save now plan) (fun _ v => v = u.setJob plan.updated) (fun _ v => v = u) u := by
  unfold save
  cases plan.guard with
  | owned | pending | reclaimed =>
      simp only [saveOwned, savePending, saveReclaimed, working, replaceJob, Exec.post_bind,
        Exec.post_get, Exec.post_pure, Exec.post_ite, Exec.post_modify, Exec.post_throw]
      exact ⟨fun _ => trivial, fun _ => trivial⟩

theorem change_post (now : DateTime) (jobId : UUID) {plan : IngestionJob → Except Raised Plan}
    (steps : Steps plan) (s : IngestionJobStore)
    (identified : ∀ id job, s.jobs.get? id = some job → job.jobId = id) :
    Exec.Post (change now jobId plan) (fun _ u => Changed s u.committed)
      (fun _ u => u.committed = s) ⟨s, s⟩ := by
  simp only [change, working, Exec.post_bind, Exec.post_get, Exec.post_pure, Exec.post_require,
    Exec.post_lift]
  refine ⟨fun job stored => ⟨fun p planned => ?_, fun _ _ => trivial⟩, fun _ => trivial⟩
  have step := steps job p planned
  have own := identified jobId job stored
  have same : p.updated.jobId = job.jobId := step.jobId
  refine (save_post now p ⟨s, s⟩).mono ?_ fun _ v hv => by simp [hv]
  rintro _ v rfl
  refine (append_post now p.updated p.kind p.workerId p.errorCode).mono ?_
    fun _ v hv => by simp [hv]
  rintro _ v ⟨event, kind, code, next, rfl⟩
  simp only [commit, Exec.post_modify]
  rw [same] at next ⊢
  refine ⟨job, p.updated, p.kind, p.errorCode, event, own ▸ stored, step, kind, code, next, ?_⟩
  simp [same, eventsOf]

theorem selected_some {s : IngestionJobStore} {now : DateTime} {job : IngestionJob}
    (identified : ∀ id job, s.jobs.get? id = some job → job.jobId = id)
    (h : selected s now = some job) : s.jobs.get? job.jobId = some job ∧ due now job = true := by
  have sorted := List.mem_of_head? h
  rw [(List.perm_insertionSort before _).mem_iff] at sorted
  obtain ⟨member, isDue⟩ := List.mem_filter.mp sorted
  obtain ⟨id, stored⟩ := (s.jobs.mem_values_iff job).mp member
  exact ⟨identified id job stored ▸ stored, isDue⟩

theorem claimNext_post (configuration : IngestionJobConfiguration) (now : DateTime)
    (workerId : String) (s : IngestionJobStore)
    (identified : ∀ id job, s.jobs.get? id = some job → job.jobId = id) :
    Exec.Post (IngestionJobService.claimNext configuration now workerId)
      (fun _ u => u.committed = s ∨ Changed s u.committed)
      (fun _ u => u.committed = s) ⟨s, s⟩ := by
  simp only [IngestionJobService.claimNext, InMemoryIngestionJobRepository.claimNext, working,
    Exec.post_bind, Exec.post_get, Exec.post_pure]
  cases hselected : selected s now with
  | none => exact Or.inl rfl
  | some job =>
      simp only [Exec.post_bind, Exec.post_lift, replaceJob, Exec.post_modify, Exec.post_pure]
      refine ⟨fun claimed hclaimed => ?_, fun _ _ => trivial⟩
      have stored := (selected_some identified hselected).1
      have step := claim_step hclaimed
      have same : claimed.jobId = job.jobId := step.jobId
      refine (append_post now claimed .claimed (some workerId) none).mono ?_
        fun _ v hv => by simp [hv]
      rintro _ v ⟨event, kind, code, next, rfl⟩
      simp only [commit, Exec.post_modify]
      rw [same] at next ⊢
      refine Or.inr ⟨job, claimed, .claimed, none, event, stored, step, kind, code, next, ?_⟩
      simp [same, eventsOf]

theorem newJob_ok {configuration : IngestionJobConfiguration} {command : EnqueueIngestionJob}
    {now : DateTime} {job : IngestionJob} (h : newJob configuration command now = .ok job) :
    job.jobId = ingestionJobId command ∧
      job.idempotencyKey = deterministicIngestionIdempotencyKey command ∧
      job.status = .pending ∧ job.attempts = 0 ∧ job.createdAt = now := by
  have fields := IngestionJob.make_ok h
  rw [fields]
  exact ⟨rfl, rfl, rfl, rfl, rfl⟩

/-- A new job has all its attempts left. -/
theorem maxAttempts_pos (job : IngestionJob) : 1 ≤ job.maxAttempts := by
  have request := job.checks.1
  simp only [IngestionJobFields.checkRequest, reject_bind_eq_ok, reject_eq_ok] at request
  omega

theorem enqueue_post (configuration : IngestionJobConfiguration) (now : DateTime)
    (command : EnqueueIngestionJob) (s : IngestionJobStore) :
    Exec.Post (enqueue configuration now command)
      (fun _ u => u.committed = s ∨ Enqueued now command s u.committed)
      (fun _ u => u.committed = s) ⟨s, s⟩ := by
  simp only [enqueue, working, Exec.post_bind, Exec.post_get, Exec.post_pure, Exec.post_lift]
  refine ⟨fun job made => ?_, fun _ _ => trivial⟩
  obtain ⟨own, key, pending, unattempted, created⟩ := newJob_ok made
  cases hkey : getByIdempotencyKey s job.idempotencyKey with
  | some existing => exact Or.inl rfl
  | none =>
      simp only [add, working, Exec.post_bind, Exec.post_get, Exec.post_pure, hkey, replaceJob,
        Exec.post_modify, ne_eq, not_true, if_false]
      refine (append_post now job .enqueued none none).mono ?_ fun _ v hv => by simp [hv]
      rintro _ v ⟨event, kind, code, next, rfl⟩
      simp only [eventsOf, IngestionUnitOfWork.setJob_working,
        IngestionUnitOfWork.setEvents_working, Dict.get?_set_self, Option.getD_some,
        List.length_nil, List.nil_append] at next ⊢
      simp only [commit, Exec.post_modify]
      rw [key] at hkey
      refine Or.inr ⟨hkey, job, event, own, ⟨?_, ?_, ?_, ?_, ?_⟩, ?_⟩
      · rw [created]
        exact DateTime.le_refl now
      · intro _
        have := maxAttempts_pos job
        omega
      · simp [unattempted, kind]
      · simp [next]
      · simp [IngestionJobEvent.status, kind, pending]
      · simp [Dict.set_set]

/-- What a call does to the committed store. -/
inductive Effect (now : DateTime) (call : IngestionCall) (s t : IngestionJobStore) : Prop where
  | unchanged (same : t = s)
  | changed (step : Changed s t)
  | enqueued (command : EnqueueIngestionJob) (named : call = .enqueue command)
      (step : Enqueued now command s t)

theorem apply_effect (configuration : IngestionJobConfiguration) (now : DateTime)
    (call : IngestionCall) (s : IngestionJobStore)
    (identified : ∀ id job, s.jobs.get? id = some job → job.jobId = id) :
    Effect now call s (IngestionCall.apply configuration s (now, call)) := by
  have post : Exec.Post (call.perform configuration now)
      (fun _ u => Effect now call s u.committed) (fun _ u => u.committed = s) ⟨s, s⟩ := by
    have stepped (jobId : UUID) {plan : IngestionJob → Except Raised Plan} (steps : Steps plan) :
        Exec.Post (change now jobId plan) (fun _ u => Effect now call s u.committed)
          (fun _ u => u.committed = s) ⟨s, s⟩ :=
      (change_post now jobId steps s identified).mono (fun _ _ => .changed) fun _ _ same => same
    cases call <;> simp only [IngestionCall.perform, Exec.post_discard]
    case enqueue command =>
      refine (enqueue_post configuration now command s).mono ?_ fun _ _ same => same
      rintro _ u (same | added)
      · exact .unchanged same
      · exact .enqueued command rfl added
    case claimNext workerId =>
      refine (claimNext_post configuration now workerId s identified).mono ?_ fun _ _ same => same
      rintro _ u (same | step)
      · exact .unchanged same
      · exact .changed step
    case heartbeat jobId workerId => exact stepped jobId (heartbeatPlan_steps workerId)
    case succeed jobId workerId => exact stepped jobId (succeedPlan_steps workerId)
    case failOrRetry jobId workerId errorCode =>
      simp only [failOrRetry, Exec.post_ite, Exec.post_bind, Exec.post_throw]
      exact ⟨fun _ => trivial, fun _ => stepped jobId (failOrRetryPlan_steps workerId errorCode)⟩
    case cancel jobId => exact stepped jobId cancelPlan_steps
    case reclaimExpired jobId => exact stepped jobId reclaimPlan_steps
  unfold Exec.Post at post
  unfold IngestionCall.apply unitOfWork
  split at post
  · rw [‹Exec.run _ _ = _›]
    exact post
  · rw [‹Exec.run _ _ = _›]
    exact .unchanged post

theorem IngestionInvariant.set {now : DateTime} {s : IngestionJobStore}
    (h : IngestionInvariant now s) {job : IngestionJob} {log : List IngestionJobEvent}
    (fits : JobInvariant now job log) :
    IngestionInvariant now ⟨s.jobs.set job.jobId job, s.events.set job.jobId log⟩ := by
  constructor
  · intro id other stored
    rw [Dict.get?_set] at stored
    split at stored
    · cases stored
      exact Eq.symm ‹_›
    · exact h.identified id other stored
  · intro id other stored
    rw [Dict.get?_set] at stored ⊢
    split at stored
    · cases stored
      exact ⟨log, if_pos ‹_›, fits⟩
    · rw [if_neg ‹_›]
      exact h.logged id other stored

/-- One call keeps the invariant, at the instant of its clock reading. -/
theorem IngestionInvariant.effect {earlier now : DateTime} {s t : IngestionJobStore}
    {call : IngestionCall} (h : IngestionInvariant earlier s) (le : earlier ≤ now)
    (effect : Effect now call s t) : IngestionInvariant now t := by
  have later : IngestionInvariant now s := by
    refine ⟨h.identified, fun id job stored => ?_⟩
    obtain ⟨log, logged, fits⟩ := h.logged id job stored
    exact ⟨log, logged, fits.later le⟩
  cases effect with
  | unchanged same =>
      rw [same]
      exact later
  | changed step =>
      obtain ⟨prior, updated, kind, code, event, stored, step, sameKind, sameCode, next, rfl⟩ := step
      obtain ⟨log, logged, fits⟩ := later.logged _ prior stored
      have current : eventsOf s prior.jobId = log := by rw [eventsOf, logged, Option.getD_some]
      rw [current] at next ⊢
      rw [← step.jobId]
      exact later.set (fits.append step sameKind sameCode next)
  | enqueued command named step =>
      obtain ⟨job, event, -, fits, rfl⟩ := step.added
      exact later.set fits

/-- Clock readings in UTC that never go back. -/
structure Ticking (readings : List DateTime) : Prop where
  utc : ∀ t ∈ readings, t.zone = .utc
  nondecreasing : readings.Pairwise (· ≤ ·)

/-- Some instant is not before any of the readings. -/
theorem Ticking.exists_last {readings : List DateTime} (ticking : Ticking readings) :
    ∃ last, ∀ t ∈ readings, t ≤ last := by
  cases readings using List.reverseRecOn with
  | nil => exact ⟨⟨.utc, 0⟩, by simp⟩
  | append_singleton rest last =>
      refine ⟨last, fun t member => ?_⟩
      rcases List.mem_append.mp member with member | member
      · exact (List.pairwise_append.mp ticking.nondecreasing).2.2 t member last
          List.mem_cons_self
      · rw [List.mem_singleton.mp member]
        exact DateTime.le_refl last

theorem IngestionInvariant.after (configuration : IngestionJobConfiguration)
    {calls : List (DateTime × IngestionCall)} (ticking : Ticking (calls.map Prod.fst))
    {now : DateTime} (late : ∀ t ∈ calls.map Prod.fst, t ≤ now) :
    IngestionInvariant now (IngestionCall.after configuration calls) := by
  induction calls using List.reverseRecOn generalizing now with
  | nil => constructor <;> simp [IngestionCall.after, IngestionJobStore.empty]
  | append_singleton calls call ih =>
      obtain ⟨reading, call⟩ := call
      have utc := ticking.utc
      have ordered := ticking.nondecreasing
      rw [List.map_append, List.map_singleton] at utc ordered late
      obtain ⟨earlier, -, bounded⟩ := List.pairwise_append.mp ordered
      have before : Ticking (calls.map Prod.fst) :=
        ⟨fun t member => utc t (List.mem_append_left _ member), earlier⟩
      have invariant := ih before fun t member => bounded t member reading List.mem_cons_self
      have step : IngestionCall.after configuration (calls ++ [(reading, call)]) =
          IngestionCall.apply configuration (IngestionCall.after configuration calls)
            (reading, call) := by
        rw [IngestionCall.after, List.foldl_append]
        rfl
      rw [step]
      have kept := invariant.effect (DateTime.le_refl reading)
        (apply_effect configuration reading call _ invariant.identified)
      have le : reading ≤ now := late reading (List.mem_append_right _ List.mem_cons_self)
      refine ⟨kept.identified, fun id job stored => ?_⟩
      obtain ⟨log, logged, fits⟩ := kept.logged id job stored
      exact ⟨log, logged, fits.later le⟩

/-- The identifier of the job that a call may add belongs to no job of another key. -/
def CollisionFree (s : IngestionJobStore) (call : IngestionCall) : Prop :=
  ∀ command, call = .enqueue command → ∀ stored,
    s.jobs.get? (ingestionJobId command) = some stored →
    stored.idempotencyKey = deterministicIngestionIdempotencyKey command

/-- A finished job and its log stay as they are. -/
theorem Effect.frozen {now : DateTime} {call : IngestionCall} {s t : IngestionJobStore}
    (effect : Effect now call s t) (free : CollisionFree s call) {id : UUID} {job : IngestionJob}
    (stored : s.jobs.get? id = some job) (terminal : job.status.terminal = true) :
    t.jobs.get? id = s.jobs.get? id ∧ t.events.get? id = s.events.get? id := by
  cases effect with
  | unchanged same => simp [same]
  | changed step =>
      obtain ⟨prior, updated, kind, code, event, hprior, step, -, -, -, rfl⟩ := step
      have different : id ≠ prior.jobId := by
        rintro rfl
        rw [stored] at hprior
        cases hprior
        rw [step.active] at terminal
        cases terminal
      exact ⟨Dict.get?_set_of_ne _ _ different, Dict.get?_set_of_ne _ _ different⟩
  | enqueued command named step =>
      obtain ⟨added, event, own, -, rfl⟩ := step.added
      have different : id ≠ added.jobId := by
        rw [own]
        rintro rfl
        have key := free command named job stored
        have absent := List.find?_eq_none.mp step.fresh job ((s.jobs.mem_values_iff job).mpr
          ⟨_, stored⟩)
        simp [key] at absent
      exact ⟨Dict.get?_set_of_ne _ _ different, Dict.get?_set_of_ne _ _ different⟩

/-- The next number is accepted by the log. -/
theorem checkAppend_ok {log : List IngestionJobEvent} {event : IngestionJobEvent}
    (numbered : log.map (·.sequenceNumber) = (List.range' 1 log.length).map Int.ofNat)
    (next : event.sequenceNumber = log.length + 1) : checkAppend log event = .ok () := by
  unfold checkAppend
  cases hlast : log.getLast? with
  | none =>
      rw [List.getLast?_eq_none_iff] at hlast
      subst hlast
      simpa using next
  | some last =>
      have number : (log.map (·.sequenceNumber)).getLast? = some last.sequenceNumber := by
        rw [List.getLast?_map, hlast]
        rfl
      rw [numbered, List.getLast?_map, List.getLast?_range'] at number
      have nonempty : log ≠ [] := by
        rintro rfl
        cases hlast
      have length : log.length ≠ 0 := fun h => nonempty (List.length_eq_zero_iff.mp h)
      simp only [length, if_false, Option.map_some, Option.some.injEq, Int.ofNat_eq_natCast]
        at number
      simp only [reject_eq_ok, not_not]
      omega

theorem newEvent_claimed_ok (job : IngestionJob) {now : DateTime} {workerId : String}
    (utc : now.zone = .utc) (worker : IngestionPatterns.worker workerId = true) (count : Nat) :
    ∃ event, newEvent job .claimed now (some workerId) none count = .ok event := by
  have attempts := job.checks.2.1
  unfold newEvent
  generalize NAMESPACE_URL.uuid5 _ = eventId
  refine ⟨_, IngestionJobEvent.make_of_check ?_⟩
  simp only [IngestionJobEventFields.check, reject_bind_eq_ok, requireAware_bind_eq_ok,
    reject_eq_ok]
  refine ⟨by omega, by simp [utc], by simp [worker], by simp, by simp, ?_, by simp⟩
  rintro ⟨⟨⟩⟩

/-- No job blocks the queue: the selected one can be claimed, and the call returns it. -/
theorem claimNext_returns (configuration : IngestionJobConfiguration) {earlier now : DateTime}
    {s : IngestionJobStore} (h : IngestionInvariant earlier s) (le : earlier ≤ now)
    (utc : now.zone = .utc) {workerId : String} (worker : IngestionPatterns.worker workerId = true)
    {job : IngestionJob} (hselected : selected s now = some job) :
    ∃ claimed, job.claim workerId now (now.add configuration.leaseDuration) = .ok claimed ∧
      (unitOfWork (IngestionJobService.claimNext configuration now workerId) s).1 =
        .ok (some claimed) := by
  obtain ⟨stored, isDue⟩ := selected_some h.identified hselected
  obtain ⟨log, logged, fits⟩ := h.logged _ job stored
  have pending : job.status = .pending := by
    simp only [due, Bool.and_eq_true, decide_eq_true_eq] at isDue
    exact isDue.1.1
  have late : now < now.add configuration.leaseDuration := by
    have positive := configuration.leaseDuration_pos
    change now.micros < now.micros + configuration.leaseDuration
    omega
  have aware : now.zone = .utc ∧ (now.add configuration.leaseDuration).zone = .utc := ⟨utc, utc⟩
  obtain ⟨claimed, hclaimed⟩ := job.claim_isOk worker pending (fits.below pending)
    aware (DateTime.le_trans fits.created le) late
  refine ⟨claimed, hclaimed, ?_⟩
  have same : claimed.jobId = job.jobId := (claim_step hclaimed).jobId
  have current : eventsOf s claimed.jobId = log := by
    rw [same, eventsOf, logged, Option.getD_some]
  obtain ⟨event, made⟩ := newEvent_claimed_ok claimed utc worker log.length
  have fields := IngestionJobEvent.make_ok made
  have own : event.jobId = claimed.jobId := by rw [fields]
  have accepted : checkAppend log event = .ok () :=
    checkAppend_ok fits.numbered (by rw [fields])
  have post : Exec.Post (IngestionJobService.claimNext configuration now workerId)
      (fun returned _ => returned = some claimed) (fun _ _ => False) ⟨s, s⟩ := by
    simp only [IngestionJobService.claimNext, InMemoryIngestionJobRepository.claimNext, working,
      Exec.post_bind, Exec.post_get, Exec.post_pure, hselected, hclaimed, Exec.post_lift_ok,
      replaceJob, Exec.post_modify, append, appendEvent, commit]
    have unmoved : eventsOf ⟨s.jobs.set claimed.jobId claimed, s.events⟩ claimed.jobId = log :=
      current
    simp only [IngestionUnitOfWork.setJob_working, unmoved, made, Exec.post_lift_ok, own, accepted]
  obtain ⟨returned, u, hrun, rfl⟩ := post.returns
  simp only [unitOfWork, hrun]

/-- The last event of a log ends the job. -/
def Ends (log : List IngestionJobEvent) : Prop :=
  ∃ last ∈ log.getLast?, last.kind = .succeeded ∨ last.kind = .failed ∨ last.kind = .cancelled ∨
    last.kind = .reclaimed ∧ last.errorCode = some LEASE_EXPIRED_MAX_ATTEMPTS_ERROR_CODE

theorem IngestionJobEvent.terminal_status (event : IngestionJobEvent) :
    event.status.terminal = true ↔
      event.kind = .succeeded ∨ event.kind = .failed ∨ event.kind = .cancelled ∨
        event.kind = .reclaimed ∧
          event.errorCode = some LEASE_EXPIRED_MAX_ATTEMPTS_ERROR_CODE := by
  unfold IngestionJobEvent.status
  cases event.kind with
  | reclaimed =>
      by_cases spent : event.errorCode = some LEASE_EXPIRED_MAX_ATTEMPTS_ERROR_CODE <;>
        simp [spent, IngestionJobStatus.terminal]
  | enqueued | claimed | heartbeat | retried | succeeded | failed | cancelled =>
      simp [IngestionJobStatus.terminal]

theorem JobInvariant.ends_iff {now : DateTime} {job : IngestionJob} {log : List IngestionJobEvent}
    (h : JobInvariant now job log) : Ends log ↔ job.status.terminal = true := by
  obtain ⟨last, hlast, status⟩ := Option.map_eq_some_iff.mp h.last
  rw [← status, last.terminal_status]
  constructor
  · rintro ⟨other, member, ended⟩
    rw [hlast] at member
    cases member
    exact ended
  · exact fun ended => ⟨last, hlast, ended⟩

/-- The store after any sequence of calls with a clock that never goes back: its jobs
are valid and agree with their logs, a pending job has an attempt left, the job that is
next in the queue can be claimed, and a finished job keeps its fields and its log. -/
theorem ingestionStore_reachable (configuration : IngestionJobConfiguration)
    (calls : List (DateTime × IngestionCall)) (ticking : Ticking (calls.map Prod.fst)) :
    (∀ id job, (IngestionCall.after configuration calls).jobs.get? id = some job →
      job.jobId = id ∧ job.check = .ok () ∧
      (job.status = .pending → job.attempts < job.maxAttempts) ∧
      ∃ log, (IngestionCall.after configuration calls).events.get? id = some log ∧
        job.attempts = log.countP (·.kind = .claimed) ∧
        log.map (·.sequenceNumber) = (List.range' 1 log.length).map Int.ofNat ∧
        (Ends log ↔ job.status.terminal = true)) ∧
    (∀ now workerId job, now.zone = .utc → (∀ t ∈ calls.map Prod.fst, t ≤ now) →
      IngestionPatterns.worker workerId = true →
      selected (IngestionCall.after configuration calls) now = some job →
      ∃ claimed, job.claim workerId now (now.add configuration.leaseDuration) = .ok claimed ∧
        (unitOfWork (IngestionJobService.claimNext configuration now workerId)
          (IngestionCall.after configuration calls)).1 = .ok (some claimed)) ∧
    (∀ now call id job, (IngestionCall.after configuration calls).jobs.get? id = some job →
      job.status.terminal = true →
      CollisionFree (IngestionCall.after configuration calls) call →
      let next := IngestionCall.apply configuration (IngestionCall.after configuration calls)
        (now, call)
      next.jobs.get? id = (IngestionCall.after configuration calls).jobs.get? id ∧
        next.events.get? id = (IngestionCall.after configuration calls).events.get? id) := by
  obtain ⟨last, late⟩ := ticking.exists_last
  have invariant := IngestionInvariant.after configuration ticking late
  refine ⟨?_, ?_, ?_⟩
  · intro id job stored
    obtain ⟨log, logged, fits⟩ := invariant.logged id job stored
    exact ⟨invariant.identified id job stored, job.valid, fits.below, log, logged, fits.attempts,
      fits.numbered, fits.ends_iff⟩
  · intro now workerId job utc late worker hselected
    have current := IngestionInvariant.after configuration ticking late
    exact claimNext_returns configuration current (DateTime.le_refl now) utc worker hselected
  · intro now call id job stored terminal free
    exact (apply_effect configuration now call _ invariant.identified).frozen free stored terminal

section Sample

/-- What `enqueue` does once the new job is built. -/
theorem enqueue_eq {configuration : IngestionJobConfiguration} {command : EnqueueIngestionJob}
    {now : DateTime} {job : IngestionJob} (made : newJob configuration command now = .ok job) :
    enqueue configuration now command = (do
      match getByIdempotencyKey (← working) job.idempotencyKey with
      | some existing => return existing
      | none =>
          let inserted ← add job
          if inserted.jobId ≠ job.jobId then
            return inserted
          append job .enqueued now none none
          commit
          return job) := by
  rw [enqueue, made]
  rfl

/-- One job is enqueued and cancelled. -/
def sampleIngestionCalls : List (DateTime × IngestionCall) :=
  [(⟨.utc, 0⟩, .enqueue sampleCommand), (⟨.utc, 1⟩, .cancel sampleIngestionJob.jobId)]

theorem sampleIngestionCalls_enqueued :
    IngestionCall.after DEFAULT_INGESTION_JOB_CONFIGURATION (sampleIngestionCalls.take 1) =
      IngestionCall.apply DEFAULT_INGESTION_JOB_CONFIGURATION .empty
        (⟨.utc, 0⟩, .enqueue sampleCommand) := by
  rw [sampleIngestionCalls, List.take_succ_cons, List.take_zero, IngestionCall.after, List.foldl_cons,
    List.foldl_nil]

theorem sampleIngestionCalls_finished :
    ((IngestionCall.after DEFAULT_INGESTION_JOB_CONFIGURATION sampleIngestionCalls).jobs.get?
      sampleIngestionJob.jobId).map (·.status) = some .cancelled := by
  rw [sampleIngestionCalls, IngestionCall.after, List.foldl_cons, List.foldl_cons, List.foldl_nil,
    IngestionCall.apply, IngestionCall.apply, IngestionCall.perform, enqueue_eq newJob_sampleCommand]
  decide

theorem ingestionStore_reachable_finished :
    Ticking (sampleIngestionCalls.map Prod.fst) ∧ ∃ log,
      (IngestionCall.after DEFAULT_INGESTION_JOB_CONFIGURATION sampleIngestionCalls).events.get?
        sampleIngestionJob.jobId = some log ∧ Ends log := by
  have ticking : Ticking (sampleIngestionCalls.map Prod.fst) := ⟨by decide, by decide⟩
  obtain ⟨job, stored, finished⟩ := Option.map_eq_some_iff.mp sampleIngestionCalls_finished
  obtain ⟨-, -, -, log, logged, -, -, ends⟩ :=
    (ingestionStore_reachable DEFAULT_INGESTION_JOB_CONFIGURATION sampleIngestionCalls ticking).1 _ job
      stored
  exact ⟨ticking, log, logged, ends.mpr (by rw [finished]; rfl)⟩

/-- A claim of the selected job under a malformed worker identifier raises. -/
theorem malformed_worker_refused :
    (selected (IngestionCall.after DEFAULT_INGESTION_JOB_CONFIGURATION (sampleIngestionCalls.take 1))
      ⟨.utc, 1⟩).map (fun job => job.claim "" ⟨.utc, 1⟩ ⟨.utc, 2⟩) =
      some (.error ⟨.invalidModel, WORKER_REQUIRED⟩) := by
  rw [sampleIngestionCalls_enqueued, IngestionCall.apply, IngestionCall.perform,
    enqueue_eq newJob_sampleCommand]
  decide +kernel

end Sample

end Cinegraph
