import Cinegraph.IngestionJobs.Sql
import Cinegraph.Library.Run
import Cinegraph.Library.Versions
import Mathlib.Data.Prod.Lex

/-!
When the conditional UPDATEs of the job table lose nothing. The attempts of a job,
its status and its lease order the rows it has had; a guard compares the status or
the lease, so an UPDATE is only as good as the attempts it was computed from.
-/

namespace Cinegraph

open Library IngestionJobService SqlAlchemyIngestionJobRepository

section Versions

/-- Within one attempt a job is first running, then pending again or done. -/
def IngestionJobStatus.stage : IngestionJobStatus → Nat
  | .running => 0
  | .pending => 1
  | _ => 2

/-- The order in which a job has its rows. -/
def IngestionJobFields.version (row : IngestionJobFields) : Int ×ₗ Nat ×ₗ Int :=
  toLex (row.attempts, toLex (row.status.stage,
    if row.status = .running then (row.leaseExpiresAt.map (·.micros)).getD 0 else 0))

theorem version_lt {a b : IngestionJobFields} : a.version < b.version ↔
    a.attempts < b.attempts ∨ a.attempts = b.attempts ∧
      (a.status.stage < b.status.stage ∨ a.status.stage = b.status.stage ∧
        (if a.status = .running then (a.leaseExpiresAt.map (·.micros)).getD 0 else 0) <
          if b.status = .running then (b.leaseExpiresAt.map (·.micros)).getD 0 else 0) := by
  simp only [IngestionJobFields.version, Prod.Lex.toLex_lt_toLex]

@[simp] theorem version_utc (row : IngestionJobFields) : row.utc.version = row.version := by
  simp only [IngestionJobFields.version, IngestionJobFields.utc, Option.map_map]
  rfl

/-- What every transition does to the row of a job. -/
structure Advances (job updated : IngestionJobFields) : Prop where
  identity : updated.jobId = job.jobId ∧ updated.idempotencyKey = job.idempotencyKey
  later : job.version < updated.version
  attempts : job.attempts ≤ updated.attempts
  started : ∀ t, job.startedAt = some t → updated.startedAt = some t

variable {job updated : IngestionJob} {workerId errorCode : String} {now lease next : DateTime}

theorem claim_advances (claimed : job.claim workerId now lease = .ok updated) :
    Advances job.toIngestionJobFields updated.toIngestionJobFields := by
  obtain ⟨-, -, -, fields⟩ := IngestionJob.claim_ok claimed
  rw [fields]
  constructor
  · exact ⟨rfl, rfl⟩
  · rw [version_lt]
    apply Or.inl
    dsimp only
    omega
  · dsimp only
    omega
  · intro t started
    simp [started]

/-- A transition out of a running job ends or returns it within its attempt. -/
theorem leave_advances (running : job.status = .running) {fields : IngestionJobFields}
    (same : (fields.jobId = job.jobId ∧ fields.idempotencyKey = job.idempotencyKey) ∧
      fields.attempts = job.attempts ∧ fields.startedAt = job.startedAt) (left : fields.status ≠ .running) :
    Advances job.toIngestionJobFields fields := by
  obtain ⟨identity, attempts, started⟩ := same
  have stage : job.status.stage < fields.status.stage := by
    rw [running]
    cases status : fields.status with
    | running => exact absurd status left
    | pending | succeeded | failed | cancelled => decide
  exact ⟨identity, version_lt.mpr (.inr ⟨attempts.symm, .inl stage⟩), attempts.ge,
    fun t here => started.trans here⟩

theorem heartbeat_advances (extended : job.heartbeat workerId now lease = .ok updated) :
    Advances job.toIngestionJobFields updated.toIngestionJobFields := by
  obtain ⟨current, leased, later, fields⟩ := IngestionJob.heartbeat_ok extended
  rw [fields]
  refine ⟨⟨rfl, rfl⟩, version_lt.mpr (.inr ⟨rfl, .inr ⟨rfl, ?_⟩⟩), le_refl _, fun t here => here⟩
  rw [if_pos leased.running, leased.expires]
  simp only [leased.running, if_true]
  exact later

theorem succeed_advances (succeeded : job.succeed workerId now = .ok updated) :
    Advances job.toIngestionJobFields updated.toIngestionJobFields := by
  obtain ⟨_, leased, fields⟩ := IngestionJob.succeed_ok succeeded
  rw [fields]
  exact leave_advances leased.running ⟨⟨rfl, rfl⟩, rfl, rfl⟩ IngestionJobStatus.noConfusion

theorem fail_advances (failed : job.fail workerId now errorCode = .ok updated) :
    Advances job.toIngestionJobFields updated.toIngestionJobFields := by
  obtain ⟨_, leased, fields⟩ := IngestionJob.fail_ok failed
  rw [fields]
  exact leave_advances leased.running ⟨⟨rfl, rfl⟩, rfl, rfl⟩ IngestionJobStatus.noConfusion

theorem retry_advances (below : job.attempts < job.maxAttempts)
    (retried : job.retry workerId now next errorCode = .ok updated) :
    Advances job.toIngestionJobFields updated.toIngestionJobFields := by
  obtain ⟨_, leased, fields⟩ := IngestionJob.retry_ok below retried
  rw [fields]
  exact leave_advances leased.running ⟨⟨rfl, rfl⟩, rfl, rfl⟩ IngestionJobStatus.noConfusion

theorem cancel_advances (cancelled : job.cancel now = .ok updated) :
    Advances job.toIngestionJobFields updated.toIngestionJobFields := by
  obtain ⟨pending, fields⟩ := IngestionJob.cancel_ok cancelled
  rw [fields]
  refine ⟨⟨rfl, rfl⟩, version_lt.mpr (.inr ⟨rfl, .inl ?_⟩), le_refl _, fun t here => here⟩
  rw [pending]
  exact Nat.one_lt_two

theorem reclaim_advances (reclaimed : job.reclaim now next = .ok updated) :
    Advances job.toIngestionJobFields updated.toIngestionJobFields := by
  obtain ⟨running, -, fields⟩ := IngestionJob.reclaim_ok reclaimed
  rw [fields]
  split
  · exact leave_advances running ⟨⟨rfl, rfl⟩, rfl, rfl⟩ IngestionJobStatus.noConfusion
  · exact leave_advances running ⟨⟨rfl, rfl⟩, rfl, rfl⟩ IngestionJobStatus.noConfusion

end Versions

section Plans

variable {configuration : IngestionJobConfiguration} {now : DateTime} {job : IngestionJob}
  {plan : Plan}

theorem requiredLease_eq_ok {lease : DateTime} :
    requiredLease job = .ok lease ↔ job.leaseExpiresAt = some lease := by
  rw [requiredLease]
  cases job.leaseExpiresAt with
  | none => exact ⟨nofun, nofun⟩
  | some current => rw [Except.ok.injEq, Option.some.injEq]

/-- What a plan does to the job it is made for, and what it wants to find in its place. -/
structure PlanOf (operation : IngestionOperation) (job : IngestionJob) (plan : Plan) : Prop where
  advances : Advances job.toIngestionJobFields plan.updated.toIngestionJobFields
  owned : ∀ workerId expected, plan.guard = .owned workerId expected →
    job.leaseExpiresAt = some expected ∧ job.status = .running
  reclaimed : ∀ expected, plan.guard = .reclaimed expected →
    job.leaseExpiresAt = some expected ∧ job.status = .running
  pending : operation.jobId? = none ∨ plan.guard = .pending → job.status = .pending
  attempts : plan.updated.attempts =
    if operation.jobId? = none then job.attempts + 1 else job.attempts
  kind : plan.kind ≠ .enqueued

theorem plan_eq_ok {operation : IngestionOperation}
    (made : operation.plan configuration now job = .ok plan) : PlanOf operation job plan := by
  cases operation with
  | claimNext workerId =>
      simp only [IngestionOperation.plan, IngestionOperation.claimPlan, bind_eq_ok] at made
      obtain ⟨updated, claimed, same⟩ := made
      cases same
      obtain ⟨-, pending, -, fields⟩ := IngestionJob.claim_ok claimed
      exact ⟨claim_advances claimed, nofun, nofun, fun _ => pending, by rw [fields]; rfl,
        IngestionJobEventKind.noConfusion⟩
  | heartbeat jobId workerId =>
      simp only [IngestionOperation.plan, heartbeatPlan, requiredLease_eq_ok, bind_eq_ok] at made
      obtain ⟨lease, expires, updated, extended, same⟩ := made
      cases same
      obtain ⟨_, leased, -, fields⟩ := IngestionJob.heartbeat_ok extended
      refine ⟨heartbeat_advances extended, ?_, nofun, by nofun, by rw [fields]; rfl,
        IngestionJobEventKind.noConfusion⟩
      rintro _ _ ⟨⟩
      exact ⟨expires, leased.running⟩
  | succeed jobId workerId =>
      simp only [IngestionOperation.plan, succeedPlan, requiredLease_eq_ok, bind_eq_ok] at made
      obtain ⟨lease, expires, updated, succeeded, same⟩ := made
      cases same
      obtain ⟨_, leased, fields⟩ := IngestionJob.succeed_ok succeeded
      refine ⟨succeed_advances succeeded, ?_, nofun, nofun, by rw [fields]; rfl,
        IngestionJobEventKind.noConfusion⟩
      rintro _ _ ⟨⟩
      exact ⟨expires, leased.running⟩
  | failOrRetry jobId workerId errorCode =>
      simp only [IngestionOperation.plan, failOrRetryPlan, bind_eq_ok, requiredLease_eq_ok] at made
      obtain ⟨lease, expires, made⟩ := made
      split at made
      · rw [bind_eq_ok] at made
        obtain ⟨updated, failed, same⟩ := made
        cases same
        obtain ⟨_, leased, fields⟩ := IngestionJob.fail_ok failed
        refine ⟨fail_advances failed, ?_, nofun, nofun, by rw [fields]; rfl,
        IngestionJobEventKind.noConfusion⟩
        rintro _ _ ⟨⟩
        exact ⟨expires, leased.running⟩
      · rw [bind_eq_ok] at made
        obtain ⟨updated, retried, same⟩ := made
        cases same
        have below : job.attempts < job.maxAttempts := by omega
        obtain ⟨_, leased, fields⟩ := IngestionJob.retry_ok below retried
        refine ⟨retry_advances below retried, ?_, nofun, nofun, by rw [fields]; rfl,
        IngestionJobEventKind.noConfusion⟩
        rintro _ _ ⟨⟩
        exact ⟨expires, leased.running⟩
  | cancel jobId =>
      simp only [IngestionOperation.plan, cancelPlan, bind_eq_ok] at made
      obtain ⟨updated, cancelled, same⟩ := made
      cases same
      obtain ⟨pending, fields⟩ := IngestionJob.cancel_ok cancelled
      exact ⟨cancel_advances cancelled, nofun, nofun, fun _ => pending, by rw [fields]; rfl,
        IngestionJobEventKind.noConfusion⟩
  | reclaimExpired jobId =>
      simp only [IngestionOperation.plan, reclaimPlan, bind_eq_ok, requiredLease_eq_ok] at made
      obtain ⟨updated, reclaimed, lease, expires, same⟩ := made
      cases same
      obtain ⟨running, -, fields⟩ := IngestionJob.reclaim_ok reclaimed
      refine ⟨reclaim_advances reclaimed, nofun, ?_, nofun, ?_, IngestionJobEventKind.noConfusion⟩
      · rintro _ ⟨⟩
        exact ⟨expires, running⟩
      · rw [fields]
        split <;> rfl

theorem version_pending {a b : IngestionJobFields} (attempts : a.attempts = b.attempts)
    (first : a.status = .pending) (second : b.status = .pending) : a.version = b.version := by
  simp [IngestionJobFields.version, attempts, first, second]

theorem version_running {a b : IngestionJobFields} {left right : DateTime}
    (attempts : a.attempts = b.attempts) (first : a.status = .running) (second : b.status = .running)
    (expires : a.leaseExpiresAt = some left) (too : b.leaseExpiresAt = some right)
    (same : left.same right = true) : a.version = b.version := by
  rw [DateTime.same, decide_eq_true_eq] at same
  simp [IngestionJobFields.version, attempts, first, second, expires, too, same]

/-- A row that meets the condition of a plan and has the attempts of the plan's job is no
later version than that job. -/
theorem condition_version {operation : IngestionOperation} {row : IngestionJobRow}
    (made : PlanOf operation job plan) (meets : operation.condition now plan row = true)
    (attempts : row.attempts = job.attempts) : row.version = job.version := by
  have saved (meets : saveCondition now row plan.guard = true) : row.version = job.version := by
    rw [saveCondition.eq_def] at meets
    split at meets
    · rename_i workerId expected guard
      obtain ⟨expires, running⟩ := made.owned workerId expected guard
      simp only [Bool.and_eq_true, decide_eq_true_eq, Option.any_eq_true] at meets
      obtain ⟨⟨status, -⟩, lease, found, same, -⟩ := meets
      exact version_running attempts status running found expires same
    · rename_i guard
      exact version_pending attempts (decide_eq_true_eq.mp meets) (made.pending (.inr guard))
    · rename_i expected guard
      obtain ⟨expires, running⟩ := made.reclaimed expected guard
      simp only [Bool.and_eq_true, decide_eq_true_eq, Option.any_eq_true] at meets
      obtain ⟨status, lease, found, same, -⟩ := meets
      exact version_running attempts status running found expires same
  cases operation with
  | claimNext workerId =>
      rw [IngestionOperation.condition, isDue, Bool.and_eq_true, Bool.and_eq_true] at meets
      exact version_pending attempts (decide_eq_true_eq.mp meets.1.1) (made.pending (.inl rfl))
  | heartbeat | succeed | failOrRetry | cancel | reclaimExpired => exact saved meets

end Plans

section Tables

variable {tables : IngestionTables} {jobId : UUID} {row : IngestionJobRow}

theorem getRow_jobId (found : getRow tables jobId = some row) : row.jobId = jobId := by
  have here := List.find?_some found
  exact decide_eq_true_eq.mp here

@[simp] theorem rowValues_jobId (job : IngestionJob) : (rowValues job).jobId = job.jobId := rfl

/-- An UPDATE replaces the row of its job and no other. -/
theorem getRow_update {next : IngestionTables} {job : IngestionJob}
    (updated : next.jobs = (update tables job).jobs) : getRow next jobId =
      (getRow tables jobId).map fun row => if jobId = job.jobId then rowValues job else row := by
  rw [getRow, updated, update, getRow, List.find?_map]
  have same : ((fun row : IngestionJobRow => decide (row.jobId = jobId)) ∘
      fun row => if row.jobId = job.jobId then rowValues job else row) =
        fun row => decide (row.jobId = jobId) := by
    funext row
    rw [Function.comp_apply]
    split
    · rename_i here
      rw [rowValues_jobId, here]
    · rfl
  rw [same]
  cases found : tables.jobs.find? fun row => decide (row.jobId = jobId) with
  | none => rfl
  | some row =>
      have here : row.jobId = jobId := getRow_jobId found
      rw [Option.map_some, Option.map_some, here]

/-- An insert leaves the rows that are there. -/
theorem getRow_append {next : IngestionTables} {rows : List IngestionJobRow}
    (inserted : next.jobs = tables.jobs ++ rows) (found : getRow tables jobId = some row) :
    getRow next jobId = some row := by
  rw [getRow] at found
  rw [getRow, inserted, List.find?_append, found]
  rfl

end Tables

/-- An UPDATE whose condition is met, and the row that it meets. -/
structure EffectiveUpdate extends PlannedUpdate where
  stored : IngestionJobRow

namespace EffectiveUpdate

/-- The UPDATE finds the attempts that its operation has read. -/
def Fresh (u : EffectiveUpdate) : Prop := u.stored.attempts = u.read.attempts

instance (u : EffectiveUpdate) : Decidable u.Fresh := inferInstanceAs (Decidable (_ = _))

/-- What is written is the transition of the row as it stands: no attempt is taken back, no start
is moved, and a worker writes under the very lease that it has read. -/
structure Lossless (configuration : IngestionJobConfiguration) (u : EffectiveUpdate) : Prop where
  transition : u.operation.plan configuration u.now (jobFromRow u.stored) = .ok u.plan
  attempts : u.stored.attempts ≤ u.plan.updated.attempts
  started : ∀ t, u.stored.startedAt = some t →
    (rowValues u.plan.updated).startedAt = some t.toUtc
  leased : ∀ workerId expected, u.plan.guard = .owned workerId expected →
    u.stored.leaseOwner = some workerId ∧ u.stored.leaseExpiresAt = u.read.leaseExpiresAt ∧
      u.stored.attempts = u.read.attempts

end EffectiveUpdate

namespace IngestionSystem

variable (s : IngestionSystem)

/-- The UPDATE that a step makes. -/
def effectiveUpdate : IngestionAction → Option EffectiveUpdate
  | .proceed call _ => do
      let planned ← (s.calls[call]?).bind (·.planned?)
      let stored ← (getRow s.tables planned.plan.updated.jobId).filter fun row =>
        planned.operation.condition planned.now planned.plan row
      some { planned with stored }
  | _ => none

def Fresh (action : IngestionAction) : Prop := ∀ u ∈ s.effectiveUpdate action, u.Fresh

def Lossless (configuration : IngestionJobConfiguration) (s : IngestionSystem)
    (action : IngestionAction) : Prop :=
  ∀ u ∈ s.effectiveUpdate action, u.Lossless configuration

variable {s} {t : IngestionSystem} {configuration : IngestionJobConfiguration} {chosen : UUID}
  {phase next : IngestionPhase} {tables : IngestionTables}

/-- An enqueue inserts rows and plans nothing. -/
theorem enqueueStep_eq_some (taken : s.enqueueStep configuration phase = some (tables, next)) :
    (∃ rows, tables.jobs = s.tables.jobs ++ rows) ∧ phase.planned? = none ∧ next.planned? = none := by
  have same : ∃ rows, s.tables.jobs = s.tables.jobs ++ rows := ⟨[], (List.append_nil _).symm⟩
  cases phase with
  | enqueueing command now =>
      rw [enqueueStep] at taken
      split at taken
      · cases taken
        exact ⟨same, rfl, rfl⟩
      · split at taken
        · cases taken
          exact ⟨same, rfl, rfl⟩
        · cases taken
          exact ⟨same, rfl, rfl⟩
  | lookedUp job now =>
      rw [enqueueStep] at taken
      split at taken
      · cases taken
      · split at taken
        · split at taken
          · cases taken
            exact ⟨same, rfl, rfl⟩
          · split at taken
            · cases taken
              exact ⟨same, rfl, rfl⟩
            · cases taken
              exact ⟨same, rfl, rfl⟩
        · cases taken
          exact ⟨same, rfl, rfl⟩
  | added job stored own now =>
      rw [enqueueStep] at taken
      split at taken
      · cases taken
        exact ⟨same, rfl, rfl⟩
      · split at taken
        · cases taken
        · split at taken
          · cases taken
            exact ⟨same, rfl, rfl⟩
          · cases taken
            exact ⟨same, rfl, rfl⟩
  | appended job stored own event =>
      cases taken
      refine ⟨?_, rfl, rfl⟩
      cases own with
      | true => exact ⟨[rowValues job], rfl⟩
      | false => exact same
  | reading | updating | returned | returnedNone | raised => cases taken

/-- The update that a call has planned is made for the row that it has read. -/
def PlannedFor (configuration : IngestionJobConfiguration) (s : IngestionSystem)
    (u : PlannedUpdate) : Prop :=
  u.operation.plan configuration u.now (jobFromRow u.read) = .ok u.plan ∧
    getRow s.tables u.read.jobId = some u.read

/-- A read writes nothing; a plan is made for the row as it is read. -/
theorem reading_eq_some {operation : IngestionOperation} {now : DateTime}
    (taken : s.operationStep configuration chosen (.reading operation now) = some (tables, next)) :
    tables = s.tables ∧ ∀ u ∈ next.planned?, PlannedFor configuration s u := by
  have idle : ∀ u ∈ (none : Option PlannedUpdate), PlannedFor configuration s u :=
    fun u absent => by cases absent
  rw [operationStep] at taken
  split at taken
  · cases taken
    exact ⟨rfl, idle⟩
  · cases taken
    exact ⟨rfl, idle⟩
  · rename_i row found
    split at taken
    · cases taken
      exact ⟨rfl, idle⟩
    · split at taken
      · cases taken
        exact ⟨rfl, idle⟩
      · rename_i plan made
        cases taken
        refine ⟨rfl, fun u here => ?_⟩
        cases here
        exact ⟨made, getRow_jobId found ▸ found⟩

/-- An UPDATE whose condition is met replaces the row; otherwise nothing is written. -/
theorem updating_eq_some {u : PlannedUpdate}
    (taken : s.operationStep configuration chosen (.updating u) = some (tables, next)) :
    (tables = s.tables ∨ tables.jobs = (update s.tables u.plan.updated).jobs ∧
      ∃ stored, getRow s.tables u.plan.updated.jobId = some stored ∧
        u.operation.condition u.now u.plan stored = true) ∧ next.planned? = none := by
  obtain ⟨operation, now, read, plan⟩ := u
  rw [operationStep] at taken
  split at taken
  · rename_i meets
    split at taken
    · cases taken
      exact ⟨.inl rfl, rfl⟩
    · split at taken
      · cases taken
      · split at taken
        · cases taken
          exact ⟨.inl rfl, rfl⟩
        · cases taken
          exact ⟨.inr ⟨rfl, (Option.any_eq_true _ _).mp meets⟩, rfl⟩
  · split at taken
    · cases taken
      exact ⟨.inl rfl, rfl⟩
    · cases taken
      exact ⟨.inl rfl, rfl⟩

/-- What a step does to the rows, and the plans that it makes. -/
structure StepFacts (configuration : IngestionJobConfiguration) (s : IngestionSystem)
    (action : IngestionAction) (t : IngestionSystem) : Prop where
  rows : (∃ rows, t.tables.jobs = s.tables.jobs ++ rows) ∨
    ∃ u ∈ s.effectiveUpdate action, t.tables.jobs = (update s.tables u.plan.updated).jobs
  plans : ∀ phase ∈ t.calls, ∀ u ∈ phase.planned?, phase ∈ s.calls ∨ PlannedFor configuration s u

theorem enter_facts {action : IngestionAction} {now : DateTime} (fresh : phase.planned? = none)
    (taken : s.enter now phase = some t) : StepFacts configuration s action t := by
  rw [enter] at taken
  split at taken
  · cases taken
    refine ⟨.inl ⟨[], (List.append_nil _).symm⟩, fun other member u planned => ?_⟩
    rcases List.mem_append.mp member with old | new
    · exact .inl old
    · rw [List.mem_singleton.mp new, fresh] at planned
      cases planned
  · cases taken

theorem step_facts {action : IngestionAction} (taken : s.step configuration action = some t) :
    StepFacts configuration s action t := by
  have stay : ∃ rows, s.tables.jobs = s.tables.jobs ++ rows := ⟨[], (List.append_nil _).symm⟩
  cases action with
  | enqueue command now => exact enter_facts rfl taken
  | operate operation now =>
      rw [step.eq_def] at taken
      dsimp only at taken
      split at taken
      · split at taken
        · exact enter_facts rfl taken
        · exact enter_facts rfl taken
      · exact enter_facts rfl taken
  | rollback call =>
      obtain ⟨phase, here, taken⟩ := Option.bind_eq_some_iff.mp taken
      split at taken
      · cases taken
        refine ⟨.inl stay, fun other member u planned => ?_⟩
        rcases List.mem_or_eq_of_mem_set member with old | rfl
        · exact .inl old
        · cases planned
      · cases taken
  | proceed call chosen =>
      obtain ⟨phase, here, taken⟩ := Option.bind_eq_some_iff.mp taken
      obtain ⟨⟨tables, next⟩, moved, same⟩ := Option.bind_eq_some_iff.mp taken
      cases same
      have plans (new : ∀ u ∈ next.planned?, PlannedFor configuration s u) :
          ∀ other ∈ s.calls.set call next, ∀ u ∈ other.planned?,
            other ∈ s.calls ∨ PlannedFor configuration s u := by
        intro other member u planned
        rcases List.mem_or_eq_of_mem_set member with old | rfl
        · exact .inl old
        · exact .inr (new u planned)
      rcases Option.or_eq_some_iff.mp moved with enqueued | ⟨-, operated⟩
      · obtain ⟨rows, -, idle⟩ := enqueueStep_eq_some enqueued
        refine ⟨.inl rows, plans fun u planned => ?_⟩
        rw [idle] at planned
        cases planned
      · cases phase with
        | reading operation now =>
            obtain ⟨rfl, made⟩ := reading_eq_some operated
            exact ⟨.inl stay, plans made⟩
        | updating u =>
            obtain ⟨rows, idle⟩ := updating_eq_some operated
            have idle : ∀ v ∈ next.planned?, PlannedFor configuration s v := by
              rw [idle]
              exact fun v absent => by cases absent
            refine ⟨?_, plans idle⟩
            rcases rows with rfl | ⟨rows, stored, found, meets⟩
            · exact .inl stay
            · refine .inr ⟨{ u with stored }, ?_, rows⟩
              have planned : (s.calls[call]?).bind (·.planned?) = some u := by
                rw [here]
                rfl
              have met : ((getRow s.tables u.plan.updated.jobId).filter fun row =>
                  u.operation.condition u.now u.plan row) = some stored :=
                Option.filter_eq_some_iff.mpr ⟨found, meets⟩
              exact Option.bind_eq_some_iff.mpr
                ⟨u, planned, Option.bind_eq_some_iff.mpr ⟨stored, met, rfl⟩⟩
        | enqueueing | lookedUp | added | appended | returned | returnedNone | raised => cases operated

/-- What is known of the operations that have read a row and not yet updated it. -/
def Planned (configuration : IngestionJobConfiguration) (s : IngestionSystem) : Prop :=
  ∀ phase ∈ s.calls, ∀ u ∈ phase.planned?,
    u.operation.plan configuration u.now (jobFromRow u.read) = .ok u.plan ∧
      Seen (fun row : IngestionJobRow => row.version) u.read (getRow s.tables u.read.jobId)

theorem effectiveUpdate_eq_some {action : IngestionAction} {u : EffectiveUpdate}
    (made : s.effectiveUpdate action = some u) :
    (∃ phase ∈ s.calls, phase.planned? = some u.toPlannedUpdate) ∧
      getRow s.tables u.plan.updated.jobId = some u.stored ∧
      u.operation.condition u.now u.plan u.stored = true := by
  cases action with
  | proceed call chosen =>
      obtain ⟨planned, here, made⟩ := Option.bind_eq_some_iff.mp made
      obtain ⟨stored, found, same⟩ := Option.bind_eq_some_iff.mp made
      cases same
      obtain ⟨phase, listed, same⟩ := Option.bind_eq_some_iff.mp here
      rw [Option.filter_eq_some_iff] at found
      exact ⟨⟨phase, List.mem_of_getElem? listed, same⟩, found⟩
  | enqueue | operate | rollback => cases made

/-- An UPDATE that finds the attempts it was computed from finds the row it was computed from. -/
theorem stored_eq_read {action : IngestionAction} {u : EffectiveUpdate}
    (planned : Planned configuration s) (made : s.effectiveUpdate action = some u)
    (fresh : u.Fresh) : u.stored = u.read := by
  obtain ⟨⟨phase, listed, same⟩, found, meets⟩ := effectiveUpdate_eq_some made
  obtain ⟨plan, seen⟩ := planned phase listed _ same
  have planOf := plan_eq_ok plan
  have level := condition_version planOf meets fresh
  have sameId : u.plan.updated.jobId = u.read.jobId := planOf.advances.identity.1
  rw [sameId] at found
  rw [found] at seen
  exact (seen.eq_current (level.trans (version_utc _)).le).symm

theorem step_planned {action : IngestionAction} (planned : Planned configuration s)
    (fresh : s.Fresh action) (taken : s.step configuration action = some t) :
    Planned configuration t := by
  obtain ⟨rows, plans⟩ := step_facts taken
  intro phase listed u own
  have before : u.operation.plan configuration u.now (jobFromRow u.read) = .ok u.plan ∧
      Seen (fun row : IngestionJobRow => row.version) u.read (getRow s.tables u.read.jobId) := by
    rcases plans phase listed u own with old | ⟨made, found⟩
    · exact planned phase old u own
    · exact ⟨made, .of_stored found⟩
  refine ⟨before.1, ?_⟩
  obtain ⟨current, found, order⟩ := before.2
  rcases rows with ⟨rows, inserted⟩ | ⟨made, effective, written⟩
  · exact ⟨current, getRow_append inserted found, order⟩
  · rw [getRow_update written, found, Option.map_some]
    split
    · rename_i here
      obtain ⟨⟨other, member, same⟩, met, -⟩ := effectiveUpdate_eq_some effective
      have stored := stored_eq_read planned effective (fresh made effective)
      have advances := (plan_eq_ok (planned other member _ same).1).advances
      rw [← here, found, Option.some.injEq] at met
      have later : current.version < (rowValues made.plan.updated).version := by
        rw [met, stored]
        exact (version_utc _).symm.trans_lt (advances.later.trans_eq (version_utc _).symm)
      exact Seen.write ⟨current, rfl, order⟩ later
    · exact ⟨current, rfl, order⟩

theorem planned_start (tables : IngestionTables) (clock : DateTime) :
    Planned configuration (start tables clock) := fun _ absent => absurd absent List.not_mem_nil

/-- A fresh UPDATE writes the transition of the row that it meets. -/
theorem lossless_of_fresh {action : IngestionAction} (planned : Planned configuration s)
    (fresh : s.Fresh action) : Lossless configuration s action := by
  intro u made
  obtain ⟨⟨phase, listed, same⟩, -, meets⟩ := effectiveUpdate_eq_some made
  have stored := stored_eq_read planned made (fresh u made)
  obtain ⟨plan, -⟩ := planned phase listed _ same
  have planOf := plan_eq_ok plan
  rw [← stored] at plan planOf
  refine ⟨plan, planOf.advances.attempts, fun t started => ?_, fun workerId expected guard => ?_⟩
  · have read : (jobFromRow u.stored).startedAt = some t.toUtc := by
      change u.stored.startedAt.map DateTime.toUtc = _
      rw [started]
      rfl
    change u.plan.updated.startedAt.map DateTime.toUtc = _
    rw [planOf.advances.started _ read]
    rfl
  · refine ⟨?_, by rw [stored], by rw [stored]⟩
    have running := (planOf.owned workerId expected guard).2
    cases operation : u.operation with
    | claimNext claimant =>
        have pending := planOf.pending (.inl (by rw [operation]; rfl))
        rw [pending] at running
        cases running
    | heartbeat | succeed | failOrRetry | cancel | reclaimExpired =>
        rw [operation] at meets
        have met : saveCondition u.now u.stored (.owned workerId expected) = true := guard ▸ meets
        rw [saveCondition, Bool.and_eq_true, Bool.and_eq_true] at met
        exact decide_eq_true_eq.mp met.1.2

/-- A transition that takes the stored attempts on has read them. -/
theorem fresh_of_lossless {action : IngestionAction} (planned : Planned configuration s)
    (lossless : Lossless configuration s action) : s.Fresh action := by
  intro u made
  obtain ⟨⟨phase, listed, same⟩, -, -⟩ := effectiveUpdate_eq_some made
  obtain ⟨plan, -⟩ := planned phase listed _ same
  have first := (plan_eq_ok plan).attempts
  have second := (plan_eq_ok (lossless u made).transition).attempts
  rw [first] at second
  have fresh : u.read.attempts = u.stored.attempts := by
    split at second
    · exact (add_left_injective _ second)
    · exact second
  exact fresh.symm

/-- Every job of the one state is in the other, with no fewer attempts and the same start. -/
def Keeps (s t : IngestionSystem) : Prop :=
  ∀ jobId row, getRow s.tables jobId = some row → ∃ later, getRow t.tables jobId = some later ∧
    row.attempts ≤ later.attempts ∧
    ∀ started, row.startedAt.map DateTime.toUtc = some started →
      later.startedAt.map DateTime.toUtc = some started

theorem Keeps.refl (s : IngestionSystem) : Keeps s s :=
  fun _ row found => ⟨row, found, le_refl _, fun _ started => started⟩

theorem Keeps.trans {r : IngestionSystem} (first : Keeps s t) (second : Keeps t r) : Keeps s r := by
  intro jobId row found
  obtain ⟨middle, there, attempts, started⟩ := first jobId row found
  obtain ⟨later, here, more, still⟩ := second jobId middle there
  exact ⟨later, here, attempts.trans more, fun moment began => still moment (started moment began)⟩

/-- A step whose UPDATE is fresh takes no attempt back and moves no start. -/
theorem step_keeps {action : IngestionAction} (planned : Planned configuration s)
    (fresh : s.Fresh action) (taken : s.step configuration action = some t) : Keeps s t := by
  intro jobId row found
  rcases (step_facts taken).rows with ⟨rows, inserted⟩ | ⟨made, effective, written⟩
  · exact ⟨row, getRow_append inserted found, le_refl _, fun _ started => started⟩
  · rw [getRow_update written, found, Option.map_some]
    refine ⟨_, rfl, ?_⟩
    split
    · rename_i here
      obtain ⟨-, met, -⟩ := effectiveUpdate_eq_some effective
      have stored : row = made.stored := by
        rw [← here, found, Option.some.injEq] at met
        exact met
      have lossless := lossless_of_fresh planned fresh made effective
      refine ⟨by rw [stored]; exact lossless.attempts, fun moment began => ?_⟩
      obtain ⟨started, known, utc⟩ := Option.map_eq_some_iff.mp began
      rw [stored] at known
      rw [lossless.started started known, ← utc]
      rfl
    · exact ⟨le_refl _, fun _ started => started⟩

theorem run_planned {tables : IngestionTables} {clock : DateTime}
    (run : Run (step configuration) Fresh (start tables clock) s) : Planned configuration s := by
  apply run.invariant (planned_start tables clock)
  intro before after action planned fresh taken
  exact step_planned planned fresh taken

/-- In every state of a run whose UPDATEs find the attempts that they were computed from, a further
UPDATE writes the transition of the row as it stands exactly if it finds them too; and such a run
takes no attempt back and moves no start. -/
theorem no_lost_update_iff {tables : IngestionTables} {clock : DateTime}
    (run : Run (step configuration) Fresh (start tables clock) s) :
    (∀ action, s.Fresh action ↔ Lossless configuration s action) ∧
      ∀ t, Run (step configuration) Fresh s t → Keeps s t := by
  have planned := run_planned run
  refine ⟨fun action => ⟨lossless_of_fresh planned, fresh_of_lossless planned⟩, ?_⟩
  intro t more
  induction more with
  | start => exact .refl s
  | next more fresh taken ih =>
      exact ih.trans (step_keeps (run_planned (run.trans more)) fresh taken)

/-- A worker claims the job: it has read the row, and its UPDATE is next. -/
def claimRead : List IngestionAction :=
  [.operate (.claimNext "worker") ⟨.utc, 1⟩, .proceed 0 sampleIngestionJob.jobId]

instance (s : IngestionSystem) (action : IngestionAction) : Decidable (s.Fresh action) :=
  inferInstanceAs (Decidable (∀ u ∈ s.effectiveUpdate action, u.Fresh))

/-- The UPDATE of the claim takes effect, as the transition of the row that it meets. -/
theorem no_lost_update_claim :
    ∃ s u t, Run (step DEFAULT_INGESTION_JOB_CONFIGURATION) Fresh
        (start ⟨[rowValues sampleIngestionJob], []⟩ ⟨.utc, 0⟩) s ∧
      s.effectiveUpdate (.proceed 0 ⟨0⟩) = some u ∧
      u.Lossless DEFAULT_INGESTION_JOB_CONFIGURATION ∧
      s.step DEFAULT_INGESTION_JOB_CONFIGURATION (.proceed 0 ⟨0⟩) = some t ∧ Keeps s t := by
  obtain ⟨s, run, test⟩ := Run.exists_of_checked (step DEFAULT_INGESTION_JOB_CONFIGURATION) Fresh
    (start ⟨[rowValues sampleIngestionJob], []⟩ ⟨.utc, 0⟩) claimRead
    (fun s => (s.effectiveUpdate (.proceed 0 ⟨0⟩)).isSome && decide (s.Fresh (.proceed 0 ⟨0⟩)) &&
      (s.step DEFAULT_INGESTION_JOB_CONFIGURATION (.proceed 0 ⟨0⟩)).isSome) (by decide +kernel)
  simp only [Bool.and_eq_true, decide_eq_true_eq, Option.isSome_iff_exists] at test
  obtain ⟨⟨⟨u, made⟩, fresh⟩, t, taken⟩ := test
  obtain ⟨lossless, keeps⟩ := no_lost_update_iff run
  exact ⟨s, u, t, run, made, (lossless _).mp fresh u made, taken,
    keeps t (Run.start.next fresh taken)⟩

/-- A job is read for its cancellation, claimed and given back: the cancellation then finds it
pending again and takes the attempt back. -/
def cancelledBetween : List IngestionAction :=
  [.operate (.cancel sampleIngestionJob.jobId) ⟨.utc, 1⟩, .proceed 0 ⟨0⟩,
    .operate (.claimNext "worker") ⟨.utc, 2⟩, .proceed 1 sampleIngestionJob.jobId,
    .proceed 1 ⟨0⟩,
    .operate (.failOrRetry sampleIngestionJob.jobId "worker" "source_invalid") ⟨.utc, 3⟩,
    .proceed 2 ⟨0⟩, .proceed 2 ⟨0⟩]

/-- An attempt is taken back: the row is not the transition of the row that it replaces. -/
theorem cancel_takes_attempt_back :
    ∃ s, Run (step DEFAULT_INGESTION_JOB_CONFIGURATION) (fun _ _ => True)
        (start ⟨[rowValues sampleIngestionJob], []⟩ ⟨.utc, 0⟩) s ∧
      (getRow s.tables sampleIngestionJob.jobId).map (·.attempts) = some 1 ∧
      ((s.step DEFAULT_INGESTION_JOB_CONFIGURATION (.proceed 0 ⟨0⟩)).bind fun t =>
        getRow t.tables sampleIngestionJob.jobId).map (·.attempts) = some 0 ∧
      ¬Lossless DEFAULT_INGESTION_JOB_CONFIGURATION s (.proceed 0 ⟨0⟩) := by
  obtain ⟨s, run, test⟩ := Run.exists_of_checked (step DEFAULT_INGESTION_JOB_CONFIGURATION)
    (fun _ _ => True) (start ⟨[rowValues sampleIngestionJob], []⟩ ⟨.utc, 0⟩) cancelledBetween
    (fun s => (getRow s.tables sampleIngestionJob.jobId).map (·.attempts) = some 1 &&
      ((s.step DEFAULT_INGESTION_JOB_CONFIGURATION (.proceed 0 ⟨0⟩)).bind fun t =>
        getRow t.tables sampleIngestionJob.jobId).map (·.attempts) = some 0 &&
      (s.effectiveUpdate (.proceed 0 ⟨0⟩)).any fun u =>
        u.plan.updated.attempts < u.stored.attempts) (by decide +kernel)
  simp only [Bool.and_eq_true, decide_eq_true_eq, Option.any_eq_true] at test
  obtain ⟨⟨before, after⟩, u, made, fewer⟩ := test
  refine ⟨s, run, before, after, fun lossless => ?_⟩
  have kept := (lossless u made).attempts
  omega

end IngestionSystem

end Cinegraph
