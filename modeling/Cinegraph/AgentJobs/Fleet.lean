import Cinegraph.AgentJobs.Sql
import Cinegraph.Library.Run

/-!
Several API processes over one SQL job store. The supervisor lease is an advisory
lock that goes with its connection; the callbacks its process has dispatched keep
running without it. A step is one transaction, one look at the lease, or one
update of a process's `_scheduled_job_ids`.
-/

namespace Cinegraph

open Library

/-- How far a callback has come: `_schedule` saw the lease held, entered the job
into `_scheduled_job_ids`, and `execute` claimed it. -/
inductive CallbackStage where
  | checked | admitted | executing | ended
  deriving DecidableEq

structure Callback where
  process : Nat
  jobId : UUID
  stage : CallbackStage
  deriving DecidableEq

/-- The job of the callback is in `_scheduled_job_ids` of its process. -/
def Callback.scheduled (callback : Callback) : Bool :=
  callback.stage = .admitted || callback.stage = .executing

/-- A supervisor that has failed or was closed is not started again. -/
inductive SupervisorState where
  | running | failed
  deriving DecidableEq

structure Fleet where
  tables : AgentJobTables
  lease : Option Nat
  supervisors : Dict Nat SupervisorState
  callbacks : Dict Nat Callback
  /-- The callback of the most recent successful claim of each job; no process reads it. -/
  latest : Dict UUID Nat

variable [Normalization]

inductive FleetAction where
  | create (job : AgentJob)
  | acquire (process : Nat)
  | lose
  | failSupervisor (process : Nat)
  | check (callback process : Nat) (jobId : UUID)
  | schedule (callback : Nat)
  | claim (callback : Nat) (now : Except Raised DateTime)
  | complete (callback : Nat) (now : Except Raised DateTime) (result : SeriesAgentResult)
  | fail (callback : Nat) (now : Except Raised DateTime) (errorCode : String)
  | stop (callback : Nat)
  | requeue (process : Nat) (rows : List (AgentJobRow × Except Raised DateTime))

namespace Fleet

def initial : Fleet where
  tables := ⟨.empty, []⟩
  lease := none
  supervisors := .empty
  callbacks := .empty
  latest := .empty

/-- A callback that has come to `stage`. -/
def at? (fleet : Fleet) (n : Nat) (stage : CallbackStage) : Option Callback :=
  (fleet.callbacks.get? n).filter (·.stage = stage)

def enter (fleet : Fleet) (n : Nat) (callback : Callback) (stage : CallbackStage) : Fleet :=
  { fleet with callbacks := fleet.callbacks.set n { callback with stage := stage } }

/-- The last check of `_schedule`: a job that is scheduled already is left alone. -/
def schedule (fleet : Fleet) (n : Nat) : Option Fleet := do
  let callback ← fleet.at? n .checked
  if fleet.callbacks.values.any (fun other => other.scheduled &&
      decide (other.process = callback.process ∧ other.jobId = callback.jobId)) then
    return fleet.enter n callback .ended
  return fleet.enter n callback .admitted

/-- `claim_with_event` of `execute`. A callback that does not get the job, for
whatever reason, is done with it. -/
def claim (fleet : Fleet) (n : Nat) (now : Except Raised DateTime) : Option Fleet := do
  let callback ← fleet.at? n .admitted
  match SqlAlchemyAgentJobRepository.claimWithEvent fleet.tables now callback.jobId none with
  | .ok (some _, tables) =>
      return { fleet.enter n callback .executing with
        tables := tables, latest := fleet.latest.set callback.jobId n }
  | _ => return fleet.enter n callback .ended

/-- The last call of `execute`, with which the callback ends even if it raises. -/
def finish (fleet : Fleet) (n : Nat) (now : Except Raised DateTime)
    (action : SqlAlchemyAgentJobRepository.Action) : Option Fleet := do
  let callback ← fleet.at? n .executing
  match SqlAlchemyAgentJobRepository.transition fleet.tables now callback.jobId none action with
  | .ok (_, tables) => return { fleet.enter n callback .ended with tables := tables }
  | .error _ => return fleet.enter n callback .ended

/-- One step of some process; `none` where that process cannot take it. A requeue
may follow a look at the lease that is no longer true. -/
def step (fleet : Fleet) : FleetAction → Option Fleet
  | .create job =>
      match SqlAlchemyAgentJobRepository.create fleet.tables job with
      | .ok (_, tables) => some { fleet with tables := tables }
      | .error _ => some fleet
  | .acquire process =>
      if fleet.lease = none ∧ fleet.supervisors.get? process = none then
        some { fleet with
          lease := some process, supervisors := fleet.supervisors.set process .running }
      else none
  | .lose => some { fleet with lease := none }
  | .failSupervisor process =>
      if fleet.supervisors.get? process = some .running then
        some { fleet with supervisors := fleet.supervisors.set process .failed }
      else none
  | .check n process jobId =>
      if fleet.lease = some process ∧ fleet.supervisors.get? process = some .running ∧
          fleet.callbacks.get? n = none then
        some { fleet with callbacks := fleet.callbacks.set n ⟨process, jobId, .checked⟩ }
      else none
  | .schedule n => fleet.schedule n
  | .claim n now => fleet.claim n now
  | .complete n now result => fleet.finish n now (.complete result)
  | .fail n now errorCode => fleet.finish n now (.fail errorCode)
  | .stop n => (fleet.callbacks.get? n).map (fleet.enter n · .ended)
  | .requeue process rows =>
      if fleet.supervisors.get? process = some .running ∧
          (∀ item ∈ rows, fleet.tables.jobs.get? item.1.jobId = some item.1 ∧
            item.1.status = "running") ∧ (rows.map (·.1.jobId)).Nodup then
        match SqlAlchemyAgentJobRepository.requeueRows fleet.tables rows with
        | .ok tables => some { fleet with tables := tables }
        | .error _ => some fleet
      else none

end Fleet

/-- The callback that issues a terminal write. -/
def FleetAction.writer : FleetAction → Option Nat
  | .complete n _ _ | .fail n _ _ => some n
  | _ => none

end Cinegraph
