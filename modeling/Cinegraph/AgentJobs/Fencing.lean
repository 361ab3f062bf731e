import Cinegraph.AgentJobs.Completion
import Cinegraph.AgentJobs.Fleet

/-!
What guards the terminal writes of several processes over one SQL store. A write
takes effect only on a running job and at most once, in every run. That it comes
from the latest claimant needs more than the status: either the lease changes
hands only after the callbacks of its last holder have ended, or no job is put
back into the queue while its latest claimant is executing.
-/

namespace Cinegraph

open Library

section Fencing

variable [Normalization]

namespace SqlAlchemyAgentJobRepository

def terminalKind (kind : String) : Bool :=
  kind = "succeeded" || kind = "safe_refusal" || kind = "failed"

omit [Normalization] in
@[simp] theorem terminalKind_value (kind : AgentJobEventKind) :
    terminalKind kind.value = kind.terminal := by
  cases kind <;> decide

/-- The terminal events of one job. -/
def terminalEvents (tables : AgentJobTables) (id : UUID) : List AgentJobEventRow :=
  tables.events.filter (fun event => event.jobId = id && terminalKind event.kind)

theorem terminalEvents_changed (tables : AgentJobTables) (job : AgentJob)
    (event : AgentJobEventRow) (id : UUID) :
    terminalEvents (changed tables job event) id = terminalEvents tables id ++
      if event.jobId = id ∧ terminalKind event.kind = true then [event] else [] := by
  rw [terminalEvents, changed, List.filter_append, List.filter_cons, List.filter_nil]
  simp only [Bool.and_eq_true, decide_eq_true_eq]
  rfl

theorem Live.terminalEvents {tables : AgentJobTables} {job : AgentJob}
    {events : List AgentJobEvent} (h : Live tables job events) :
    terminalEvents tables job.jobId = [] := by
  have active : ∀ kind ∈ events.map (·.kind), kind.terminal = false :=
    h.log.lifecycle.active h.log.last (by rw [AgentJobStatus.terminal_eventKind]; exact h.active)
  rw [SqlAlchemyAgentJobRepository.terminalEvents, List.filter_eq_nil_iff]
  intro row member
  simp only [Bool.and_eq_true, decide_eq_true_eq, Bool.not_eq_true, not_and]
  intro own
  have logged : row ∈ events.map rowOfEvent := by
    rw [← h.rows]
    exact List.mem_filter.mpr ⟨member, decide_eq_true own⟩
  obtain ⟨event, hevent, rfl⟩ := List.mem_map.mp logged
  rw [rowOfEvent, terminalKind_value]
  exact active event.kind (List.mem_map.mpr ⟨event, hevent, rfl⟩)

/-- At most one terminal event for each job. -/
def Once (tables : AgentJobTables) : Prop := ∀ id, (terminalEvents tables id).length ≤ 1

/-- A change of a job that has no terminal event yet adds at most one. -/
theorem Once.changed {tables : AgentJobTables} (once : Once tables) {job : AgentJob}
    {event : AgentJobEventRow} (own : event.jobId = job.jobId)
    (unfinished : terminalEvents tables job.jobId = [] ∨ terminalKind event.kind = false) :
    Once (changed tables job event) := by
  intro id
  have before := once id
  rw [terminalEvents_changed, List.length_append]
  split
  · rename_i appended
    obtain ⟨rfl, terminal⟩ := appended
    rcases unfinished with none | other
    · rw [own, none]
      exact Nat.le_refl 1
    · rw [terminal] at other
      cases other
  · exact before

theorem requeueRows_once {tables tables' : AgentJobTables} (inv : TablesInvariant tables)
    (once : Once tables) {rows : List (AgentJobRow × Except Raised DateTime)}
    (stored : ∀ item ∈ rows, tables.jobs.get? item.1.jobId = some item.1)
    (distinct : (rows.map (·.1.jobId)).Nodup) (h : requeueRows tables rows = .ok tables') :
    Once tables' := by
  refine (requeueRows_rule inv stored distinct h ?_ once).2
  intro item _ s t inv' once' selected turn
  obtain ⟨_, prior, events, updated, last, -, -, -, -, rfl⟩ :=
    requeueRow_changes inv' selected turn
  exact once'.changed rfl (.inr (terminalKind_value .queued))

theorem Reachable.once {tables : AgentJobTables} (h : Reachable tables) : Once tables := by
  induction h with
  | empty => exact fun id => Nat.zero_le 1
  | create _ committed ih =>
      rcases create_changes committed with rfl | ⟨-, -, rfl⟩
      · exact ih
      · exact ih.changed rfl (.inr (terminalKind_value .queued))
  | transition before committed ih =>
      rcases transition_changes before.invariant committed with ⟨-, rfl⟩ | ⟨t, job, events,
        updated, kind, payload, last, -, live, -, applied, -, rfl⟩
      · exact ih
      · have own := (Action.apply_ok applied).jobId
        exact ih.changed rfl (.inl (by rw [own]; exact live.terminalEvents))
  | requeue before stored distinct committed ih =>
      exact requeueRows_once before.invariant ih stored distinct committed

/-- The statuses an action leads from and to. -/
theorem apply_status {action : Action} {prior updated : AgentJob} {now : DateTime}
    {kind : AgentJobEventKind} {payload : JsonPayload}
    (h : action.apply prior now = .ok (some (updated, kind, payload))) :
    match action with
    | .claim => prior.status = .queued ∧ updated.status = .running
    | .complete _ | .fail _ => prior.status = .running ∧ updated.status.terminal = true
    | .reject _ => prior.status = .queued ∧ updated.status = .failed := by
  cases action with
  | claim =>
      simp only [Action.apply] at h
      split_ifs at h with running terminal
      · cases h
      · obtain ⟨job, started, same⟩ := (bind_eq_ok _).mp h
        cases same
        have queued : prior.status = .queued := by
          cases hs : prior.status <;> simp_all [AgentJobStatus.terminal]
        obtain ⟨-, fields⟩ := AgentJob.start_ok started queued
        exact ⟨queued, by rw [fields]⟩
  | complete result =>
      simp only [Action.apply] at h
      split_ifs at h with other
      have running : prior.status = .running := not_not.mp other
      obtain ⟨job, completed, same⟩ := (bind_eq_ok _).mp h
      cases same
      obtain ⟨-, fields⟩ := AgentJob.complete_ok completed running
      refine ⟨running, ?_⟩
      rw [fields]
      cases result.isSafeRefusal <;> rfl
  | fail errorCode =>
      simp only [Action.apply] at h
      split_ifs at h with other
      all_goals
        have running : prior.status = .running := not_not.mp other
        obtain ⟨job, failed, same⟩ := (bind_eq_ok _).mp h
        cases same
        obtain ⟨-, fields⟩ := AgentJob.fail_ok failed running
        refine ⟨running, ?_⟩
        rw [fields]
        rfl
  | reject errorCode =>
      simp only [Action.apply] at h
      split_ifs at h with other
      all_goals
        obtain ⟨job, rejected, same⟩ := (bind_eq_ok _).mp h
        cases same
        obtain ⟨-, queued, fields⟩ := AgentJob.reject_ok rejected
        exact ⟨queued, by rw [fields]⟩

/-- The job is stored and not waiting to be claimed. -/
def OutOfQueue (tables : AgentJobTables) (id : UUID) : Prop :=
  ∃ row, tables.jobs.get? id = some row ∧ row.status ≠ "queued"

omit [Normalization] in
theorem queued_iff (status : AgentJobStatus) : status.value = "queued" ↔ status = .queued := by
  cases status <;> decide

theorem OutOfQueue.changed {tables : AgentJobTables} {id : UUID} (h : OutOfQueue tables id)
    {job : AgentJob} (event : AgentJobEventRow)
    (active : id = job.jobId → job.status ≠ .queued) : OutOfQueue (changed tables job event) id := by
  obtain ⟨row, stored, status⟩ := h
  rw [OutOfQueue, SqlAlchemyAgentJobRepository.changed, Dict.get?_set]
  split
  · rename_i same
    exact ⟨_, rfl, fun queued => active same ((queued_iff job.status).mp queued)⟩
  · exact ⟨row, stored, status⟩

theorem OutOfQueue.create {tables tables' : AgentJobTables} {id : UUID} (h : OutOfQueue tables id)
    {job : AgentJob} {r : AgentJob × Bool} (created : create tables job = .ok (r, tables')) :
    OutOfQueue tables' id := by
  rcases create_changes created with rfl | ⟨unstored, -, rfl⟩
  · exact h
  · refine h.changed _ fun same => ?_
    obtain ⟨row, stored, -⟩ := h
    rw [same, unstored] at stored
    cases stored

/-- No branch of `_transition` puts a job into the queue. -/
theorem OutOfQueue.transition {tables tables' : AgentJobTables} {id : UUID}
    (h : OutOfQueue tables id) (inv : TablesInvariant tables) {now : Except Raised DateTime}
    {jobId : UUID} {owner : Option UUID} {action : Action} {r : Option AgentJob}
    (written : transition tables now jobId owner action = .ok (r, tables')) :
    OutOfQueue tables' id := by
  rcases transition_changes inv written with ⟨-, rfl⟩ | ⟨t, prior, events, updated, kind, payload,
    last, -, -, -, applied, -, rfl⟩
  · exact h
  · refine h.changed _ fun _ queued => ?_
    have status := apply_status applied
    cases action <;> simp [queued, AgentJobStatus.terminal] at status

theorem OutOfQueue.requeue {tables tables' : AgentJobTables} {id : UUID}
    (h : OutOfQueue tables id) (inv : TablesInvariant tables)
    {rows : List (AgentJobRow × Except Raised DateTime)}
    (stored : ∀ item ∈ rows, tables.jobs.get? item.1.jobId = some item.1)
    (distinct : (rows.map (·.1.jobId)).Nodup) (requeued : requeueRows tables rows = .ok tables')
    (spared : ∀ item ∈ rows, item.1.jobId ≠ id) : OutOfQueue tables' id := by
  refine (requeueRows_rule (P := (OutOfQueue · id)) inv stored distinct requeued ?_ h).2
  intro item member s t inv' out selected turn
  obtain ⟨row, found, status⟩ := out
  refine ⟨row, ?_, status⟩
  rw [(requeueRow_preserves inv' selected turn).2 id (spared item member).symm]
  exact found

/-- A claim takes a job out of the queue. -/
theorem transition_claim {tables tables' : AgentJobTables} (inv : TablesInvariant tables)
    {now : Except Raised DateTime} {id : UUID} {owner : Option UUID} {updated : AgentJob}
    (h : transition tables now id owner .claim = .ok (some updated, tables')) :
    ¬OutOfQueue tables id ∧ OutOfQueue tables' id := by
  rcases transition_changes inv h with ⟨none, -⟩ | ⟨t, prior, events, job, kind, payload, last,
    rfl, live, -, applied, -, rfl⟩
  · cases none
  · obtain ⟨queued, running⟩ := apply_status applied
    constructor
    · rintro ⟨row, stored, status⟩
      rw [live.stored] at stored
      cases stored
      exact status ((queued_iff prior.status).mpr queued)
    · refine ⟨rowOfJob job, ?_, ?_⟩
      · rw [changed, (Action.apply_ok applied).jobId, Dict.get?_set_self]
      · exact fun same => AgentJobStatus.noConfusion (running.symm.trans ((queued_iff _).mp same))

end SqlAlchemyAgentJobRepository

namespace Fleet

open SqlAlchemyAgentJobRepository

variable {fleet after : Fleet} {n : Nat} {now : Except Raised DateTime}

omit [Normalization] in
theorem at?_eq_some {stage : CallbackStage} {callback : Callback} :
    fleet.at? n stage = some callback ↔
      fleet.callbacks.get? n = some callback ∧ callback.stage = stage := by
  rw [at?, Option.filter_eq_some_iff, decide_eq_true_eq]

omit [Normalization] in
theorem schedule_cases (taken : fleet.schedule n = some after) :
    ∃ callback, fleet.callbacks.get? n = some callback ∧ callback.stage = .checked ∧
      (after = fleet.enter n callback .ended ∨
        after = fleet.enter n callback .admitted ∧ ∀ m other,
          fleet.callbacks.get? m = some other → other.scheduled = true →
            other.process = callback.process → other.jobId ≠ callback.jobId) := by
  obtain ⟨callback, found, taken⟩ := Option.bind_eq_some_iff.mp taken
  obtain ⟨stored, stage⟩ := at?_eq_some.mp found
  refine ⟨callback, stored, stage, ?_⟩
  split at taken
  · cases taken
    exact .inl rfl
  · rename_i alone
    cases taken
    refine .inr ⟨rfl, fun m other present scheduled process jobId => alone ?_⟩
    rw [List.any_eq_true]
    refine ⟨other, (Dict.mem_values_iff _ _).mpr ⟨m, present⟩, ?_⟩
    simp [scheduled, process, jobId]

theorem claim_cases (taken : fleet.claim n now = some after) :
    ∃ callback, fleet.callbacks.get? n = some callback ∧ callback.stage = .admitted ∧
      (after = fleet.enter n callback .ended ∨
        ∃ updated tables, transition fleet.tables now callback.jobId none .claim =
            .ok (some updated, tables) ∧
          after = { fleet.enter n callback .executing with
            tables := tables, latest := fleet.latest.set callback.jobId n }) := by
  obtain ⟨callback, found, taken⟩ := Option.bind_eq_some_iff.mp taken
  obtain ⟨stored, stage⟩ := at?_eq_some.mp found
  refine ⟨callback, stored, stage, ?_⟩
  split at taken
  · rename_i updated tables claimed
    cases taken
    exact .inr ⟨updated, tables, claimed, rfl⟩
  · cases taken
    exact .inl rfl

theorem finish_cases {action : SqlAlchemyAgentJobRepository.Action}
    (taken : fleet.finish n now action = some after) :
    ∃ callback tables, fleet.callbacks.get? n = some callback ∧ callback.stage = .executing ∧
      (tables = fleet.tables ∨ ∃ r, transition fleet.tables now callback.jobId none action =
        .ok (r, tables)) ∧
      after = { fleet.enter n callback .ended with tables := tables } := by
  obtain ⟨callback, found, taken⟩ := Option.bind_eq_some_iff.mp taken
  obtain ⟨stored, stage⟩ := at?_eq_some.mp found
  split at taken
  · rename_i r tables written
    cases taken
    exact ⟨callback, tables, stored, stage, .inr ⟨r, written⟩, rfl⟩
  · cases taken
    exact ⟨callback, fleet.tables, stored, stage, .inl rfl, rfl⟩

/-- The rows a requeue may select. -/
theorem requeue_cases {process : Nat} {rows : List (AgentJobRow × Except Raised DateTime)}
    (taken : fleet.step (.requeue process rows) = some after) :
    (∀ item ∈ rows, fleet.tables.jobs.get? item.1.jobId = some item.1) ∧
      (rows.map (·.1.jobId)).Nodup ∧ ∃ tables, after = { fleet with tables := tables } ∧
      (tables = fleet.tables ∨ requeueRows fleet.tables rows = .ok tables) := by
  rw [step] at taken
  split at taken
  · rename_i selected
    refine ⟨fun item member => (selected.2.1 item member).1, selected.2.2, ?_⟩
    split at taken
    · rename_i tables requeued
      cases taken
      exact ⟨tables, rfl, .inr requeued⟩
    · cases taken
      exact ⟨_, rfl, .inl rfl⟩
  · cases taken

theorem create_cases {job : AgentJob} (taken : fleet.step (.create job) = some after) :
    ∃ tables, after = { fleet with tables := tables } ∧
      (tables = fleet.tables ∨ ∃ r, create fleet.tables job = .ok (r, tables)) := by
  rw [step] at taken
  split at taken
  · rename_i r tables created
    cases taken
    exact ⟨tables, rfl, .inr ⟨r, created⟩⟩
  · cases taken
    exact ⟨_, rfl, .inl rfl⟩

/-- Every step of the fleet commits at most one transaction. -/
theorem reachable_step (before : Reachable fleet.tables) {action : FleetAction}
    (taken : fleet.step action = some after) : Reachable after.tables := by
  cases action with
  | create job =>
      obtain ⟨tables, rfl, rfl | ⟨r, created⟩⟩ := create_cases taken
      · exact before
      · exact before.create created
  | acquire process =>
      rw [step, Option.ite_none_right_eq_some] at taken
      obtain ⟨-, ⟨⟩⟩ := taken
      exact before
  | lose =>
      cases taken
      exact before
  | failSupervisor process =>
      rw [step, Option.ite_none_right_eq_some] at taken
      obtain ⟨-, ⟨⟩⟩ := taken
      exact before
  | check n process jobId =>
      rw [step, Option.ite_none_right_eq_some] at taken
      obtain ⟨-, ⟨⟩⟩ := taken
      exact before
  | schedule n =>
      obtain ⟨callback, -, -, rfl | ⟨rfl, -⟩⟩ := schedule_cases taken
      · exact before
      · exact before
  | claim n now =>
      obtain ⟨callback, -, -, rfl | ⟨updated, tables, claimed, rfl⟩⟩ := claim_cases taken
      · exact before
      · exact before.transition claimed
  | complete n now result =>
      obtain ⟨callback, tables, -, -, rfl | ⟨r, written⟩, rfl⟩ := finish_cases taken
      · exact before
      · exact before.transition written
  | fail n now errorCode =>
      obtain ⟨callback, tables, -, -, rfl | ⟨r, written⟩, rfl⟩ := finish_cases taken
      · exact before
      · exact before.transition written
  | stop n =>
      obtain ⟨callback, -, rfl⟩ := Option.map_eq_some_iff.mp taken
      exact before
  | requeue process rows =>
      obtain ⟨stored, distinct, tables, rfl, rfl | requeued⟩ := requeue_cases taken
      · exact before
      · exact before.requeue stored distinct requeued

theorem reachable_of_run {C : Fleet → FleetAction → Prop} (run : Run step C initial fleet) :
    Reachable fleet.tables :=
  run.invariant (I := fun s => Reachable s.tables) .empty
    (fun _ _ _ before _ taken => reachable_step before taken)

/-- The callbacks that have not ended are of one process, which is the holder of
the lease if there is one, and no job is scheduled twice by one process. -/
structure Exclusive (callbacks : Dict Nat Callback) (lease : Option Nat) : Prop where
  together : ∀ m n a b, callbacks.get? m = some a → callbacks.get? n = some b →
    a.stage ≠ .ended → b.stage ≠ .ended → a.process = b.process
  holder : ∀ p n a, lease = some p → callbacks.get? n = some a → a.stage ≠ .ended →
    a.process = p
  scheduled : ∀ m n a b, callbacks.get? m = some a → callbacks.get? n = some b →
    a.scheduled = true → b.scheduled = true → a.jobId = b.jobId → m = n

omit [Normalization] in
theorem live_of_scheduled {callback : Callback} (h : callback.scheduled = true) :
    callback.stage ≠ .ended := by
  intro ended
  rw [Callback.scheduled, ended] at h
  cases h

omit [Normalization] in
theorem Exclusive.set {callbacks : Dict Nat Callback} {lease : Option Nat}
    (h : Exclusive callbacks lease) (new : Callback)
    (process : new.stage ≠ .ended → (∀ m a, callbacks.get? m = some a → a.stage ≠ .ended →
      a.process = new.process) ∧ ∀ p, lease = some p → new.process = p)
    (alone : new.scheduled = true → ∀ m a, callbacks.get? m = some a → a.scheduled = true →
      a.jobId = new.jobId → m = n) :
    Exclusive (callbacks.set n new) lease := by
  constructor
  · intro k m a b ka mb activeA activeB
    rw [Dict.get?_set] at ka mb
    split at ka
    · cases ka
      split at mb
      · cases mb
        rfl
      · exact ((process activeA).1 m b mb activeB).symm
    · split at mb
      · cases mb
        exact (process activeB).1 k a ka activeA
      · exact h.together k m a b ka mb activeA activeB
  · intro p m a held stored active
    rw [Dict.get?_set] at stored
    split at stored
    · cases stored
      exact (process active).2 p held
    · exact h.holder p m a held stored active
  · intro k m a b ka mb scheduledA scheduledB jobId
    rw [Dict.get?_set] at ka mb
    split at ka
    · rename_i first
      cases ka
      split at mb
      · rename_i second
        rw [first, second]
      · rw [first]
        exact (alone scheduledA m b mb scheduledB jobId.symm).symm
    · split at mb
      · rename_i second
        cases mb
        rw [second]
        exact alone scheduledB k a ka scheduledA jobId
      · exact h.scheduled k m a b ka mb scheduledA scheduledB jobId

omit [Normalization] in
/-- A callback moves on; a job newly scheduled was not scheduled before. -/
theorem Exclusive.enter (h : Exclusive fleet.callbacks fleet.lease) {callback : Callback}
    (found : fleet.callbacks.get? n = some callback) (live : callback.stage ≠ .ended)
    {stage : CallbackStage}
    (alone : callback.scheduled = true ∨ ∀ m other,
      fleet.callbacks.get? m = some other → other.scheduled = true →
        other.process = callback.process → other.jobId ≠ callback.jobId) :
    Exclusive (fleet.enter n callback stage).callbacks fleet.lease := by
  have process : ∀ m a, fleet.callbacks.get? m = some a → a.stage ≠ .ended →
      a.process = callback.process :=
    fun m a stored active => h.together m n a callback stored found active live
  refine h.set _ (fun _ => ⟨process, fun p held => h.holder p n callback held found live⟩) ?_
  intro _ m a stored scheduled jobId
  rcases alone with already | guard
  · exact h.scheduled m n a callback stored found scheduled already jobId
  · have same := process m a stored (live_of_scheduled scheduled)
    exact absurd jobId (guard m a stored scheduled same)

omit [Normalization] in
theorem Exclusive.end (h : Exclusive fleet.callbacks fleet.lease) (callback : Callback) :
    Exclusive (fleet.enter n callback .ended).callbacks fleet.lease := by
  refine h.set _ (fun live => absurd rfl live) (fun scheduled => ?_)
  cases scheduled

/-- Every executing callback is the latest claimant of its job. -/
def Claimed (fleet : Fleet) : Prop :=
  ∀ n callback, fleet.callbacks.get? n = some callback → callback.stage = .executing →
    fleet.latest.get? callback.jobId = some n

omit [Normalization] in
/-- A callback that is not executing leaves the claims as they are. -/
theorem Claimed.set (h : Claimed fleet) (new : Callback) (other : new.stage ≠ .executing) :
    Claimed { fleet with callbacks := fleet.callbacks.set n new } := by
  intro m a stored executing
  rw [Dict.get?_set] at stored
  split at stored
  · cases stored
    exact absurd executing other
  · exact h m a stored executing

omit [Normalization] in
/-- A claim keeps every other executing callback the latest claimant, if it is of
another job. -/
theorem Claimed.claim (h : Claimed fleet) {callback : Callback} (tables : AgentJobTables)
    (alone : ∀ m a, fleet.callbacks.get? m = some a → a.stage = .executing →
      a.jobId = callback.jobId → m = n) :
    Claimed { fleet.enter n callback .executing with
      tables := tables, latest := fleet.latest.set callback.jobId n } := by
  intro m a stored executing
  simp only [Fleet.enter, Dict.get?_set] at stored ⊢
  split at stored
  · rename_i same
    cases stored
    simp [same]
  · rename_i different
    have otherJob : a.jobId ≠ callback.jobId := by
      intro same
      exact different (alone m a stored executing same)
    rw [if_neg otherJob]
    exact h m a stored executing

/-- The lease is taken only when no callback of another process is left. -/
def HandsOver (fleet : Fleet) : FleetAction → Prop
  | .acquire process => ∀ callback ∈ fleet.callbacks.values,
      callback.stage ≠ .ended → callback.process = process
  | _ => True

instance (fleet : Fleet) : ∀ action, Decidable (HandsOver fleet action)
  | .acquire process => inferInstanceAs (Decidable (∀ callback ∈ fleet.callbacks.values,
      callback.stage ≠ .ended → callback.process = process))
  | .create _ | .lose | .failSupervisor _ | .check _ _ _ | .schedule _ | .claim _ _
  | .complete _ _ _ | .fail _ _ _ | .stop _ | .requeue _ _ => isTrue trivial

theorem exclusive_step (exclusive : Exclusive fleet.callbacks fleet.lease) (claimed : Claimed fleet)
    {action : FleetAction} (condition : HandsOver fleet action)
    (taken : fleet.step action = some after) :
    Exclusive after.callbacks after.lease ∧ Claimed after := by
  cases action with
  | create job =>
      obtain ⟨tables, rfl, -⟩ := create_cases taken
      exact ⟨exclusive, claimed⟩
  | acquire process =>
      rw [step, Option.ite_none_right_eq_some] at taken
      obtain ⟨-, ⟨⟩⟩ := taken
      refine ⟨⟨exclusive.together, ?_, exclusive.scheduled⟩, claimed⟩
      intro p n a held stored active
      cases held
      exact condition a ((Dict.mem_values_iff _ _).mpr ⟨n, stored⟩) active
  | lose =>
      cases taken
      refine ⟨⟨exclusive.together, ?_, exclusive.scheduled⟩, claimed⟩
      intro p n a held
      cases held
  | failSupervisor process =>
      rw [step, Option.ite_none_right_eq_some] at taken
      obtain ⟨-, ⟨⟩⟩ := taken
      exact ⟨exclusive, claimed⟩
  | check n process jobId =>
      rw [step, Option.ite_none_right_eq_some] at taken
      obtain ⟨⟨held, -, -⟩, ⟨⟩⟩ := taken
      refine ⟨exclusive.set _ (fun _ => ⟨?_, ?_⟩) (fun scheduled => by cases scheduled),
        claimed.set _ CallbackStage.noConfusion⟩
      · exact fun m a stored active => exclusive.holder process m a held stored active
      · intro p other
        rw [held] at other
        exact Option.some.inj other
  | schedule n =>
      obtain ⟨callback, found, stage, rfl | ⟨rfl, alone⟩⟩ := schedule_cases taken
      · exact ⟨exclusive.end callback, claimed.set _ CallbackStage.noConfusion⟩
      · exact ⟨exclusive.enter found (by simp [stage]) (.inr alone),
          claimed.set _ CallbackStage.noConfusion⟩
  | claim n now =>
      obtain ⟨callback, found, stage, rfl | ⟨updated, tables, -, rfl⟩⟩ := claim_cases taken
      · exact ⟨exclusive.end callback, claimed.set _ CallbackStage.noConfusion⟩
      · have scheduled : callback.scheduled = true := by simp [Callback.scheduled, stage]
        refine ⟨exclusive.enter found (by simp [stage]) (.inl scheduled),
          claimed.claim tables ?_⟩
        intro m a stored executing jobId
        exact exclusive.scheduled m n a callback stored found
          (by simp [Callback.scheduled, executing]) scheduled jobId
  | complete n now result =>
      obtain ⟨callback, tables, -, -, -, rfl⟩ := finish_cases taken
      exact ⟨exclusive.end callback, claimed.set _ CallbackStage.noConfusion⟩
  | fail n now errorCode =>
      obtain ⟨callback, tables, -, -, -, rfl⟩ := finish_cases taken
      exact ⟨exclusive.end callback, claimed.set _ CallbackStage.noConfusion⟩
  | stop n =>
      obtain ⟨callback, -, rfl⟩ := Option.map_eq_some_iff.mp taken
      exact ⟨exclusive.end callback, claimed.set _ CallbackStage.noConfusion⟩
  | requeue process rows =>
      obtain ⟨-, -, tables, rfl, -⟩ := requeue_cases taken
      exact ⟨exclusive, claimed⟩

/-- No job goes back into the queue while its latest claimant is executing. -/
def SparesClaimant (fleet : Fleet) : FleetAction → Prop
  | .requeue _ rows => ∀ item ∈ rows, ∀ n ∈ fleet.latest.get? item.1.jobId,
      ∀ callback ∈ fleet.callbacks.get? n, callback.stage ≠ .executing
  | _ => True

instance (fleet : Fleet) : ∀ action, Decidable (SparesClaimant fleet action)
  | .requeue _ rows => inferInstanceAs (Decidable (∀ item ∈ rows,
      ∀ n ∈ fleet.latest.get? item.1.jobId, ∀ callback ∈ fleet.callbacks.get? n,
        callback.stage ≠ .executing))
  | .create _ | .acquire _ | .lose | .failSupervisor _ | .check _ _ _ | .schedule _ | .claim _ _
  | .complete _ _ _ | .fail _ _ _ | .stop _ => isTrue trivial

/-- The job of every executing callback has left the queue. -/
def Unqueued (fleet : Fleet) : Prop :=
  ∀ n callback, fleet.callbacks.get? n = some callback → callback.stage = .executing →
    OutOfQueue fleet.tables callback.jobId

omit [Normalization] in
theorem Unqueued.set (h : Unqueued fleet) (new : Callback) (tables : AgentJobTables)
    (kept : ∀ id, OutOfQueue fleet.tables id → OutOfQueue tables id)
    (own : new.stage = .executing → OutOfQueue tables new.jobId) :
    Unqueued { fleet with callbacks := fleet.callbacks.set n new, tables := tables } := by
  intro m a stored executing
  rw [Dict.get?_set] at stored
  split at stored
  · cases stored
    exact own executing
  · exact kept a.jobId (h m a stored executing)

theorem unqueued_step (before : Reachable fleet.tables) (unqueued : Unqueued fleet)
    (claimed : Claimed fleet) {action : FleetAction} (condition : SparesClaimant fleet action)
    (taken : fleet.step action = some after) : Unqueued after ∧ Claimed after := by
  have inv := before.invariant
  cases action with
  | create job =>
      obtain ⟨tables, rfl, rfl | ⟨r, created⟩⟩ := create_cases taken
      · exact ⟨unqueued, claimed⟩
      · exact ⟨fun n a stored executing => (unqueued n a stored executing).create created, claimed⟩
  | acquire process =>
      rw [step, Option.ite_none_right_eq_some] at taken
      obtain ⟨-, ⟨⟩⟩ := taken
      exact ⟨unqueued, claimed⟩
  | lose =>
      cases taken
      exact ⟨unqueued, claimed⟩
  | failSupervisor process =>
      rw [step, Option.ite_none_right_eq_some] at taken
      obtain ⟨-, ⟨⟩⟩ := taken
      exact ⟨unqueued, claimed⟩
  | check n process jobId =>
      rw [step, Option.ite_none_right_eq_some] at taken
      obtain ⟨-, ⟨⟩⟩ := taken
      exact ⟨unqueued.set _ _ (fun _ out => out) (fun h => by cases h),
        claimed.set _ CallbackStage.noConfusion⟩
  | schedule n =>
      obtain ⟨callback, -, -, rfl | ⟨rfl, -⟩⟩ := schedule_cases taken
      · exact ⟨unqueued.set _ _ (fun _ out => out) (fun h => by cases h),
          claimed.set _ CallbackStage.noConfusion⟩
      · exact ⟨unqueued.set _ _ (fun _ out => out) (fun h => by cases h),
          claimed.set _ CallbackStage.noConfusion⟩
  | claim n now =>
      obtain ⟨callback, found, stage, rfl | ⟨updated, tables, won, rfl⟩⟩ := claim_cases taken
      · exact ⟨unqueued.set _ _ (fun _ out => out) (fun h => by cases h),
          claimed.set _ CallbackStage.noConfusion⟩
      · obtain ⟨queued, started⟩ := transition_claim inv won
        refine ⟨?_, claimed.claim tables ?_⟩
        · exact unqueued.set _ _ (fun _ out => out.transition inv won) (fun _ => started)
        · intro m a stored executing jobId
          have out := unqueued m a stored executing
          rw [jobId] at out
          exact absurd out queued
  | complete n now result =>
      obtain ⟨callback, tables, -, -, written, rfl⟩ := finish_cases taken
      refine ⟨unqueued.set _ _ (fun id out => ?_) (fun h => by cases h), ?_⟩
      · rcases written with rfl | ⟨r, written⟩
        · exact out
        · exact out.transition inv written
      · exact claimed.set _ CallbackStage.noConfusion
  | fail n now errorCode =>
      obtain ⟨callback, tables, -, -, written, rfl⟩ := finish_cases taken
      refine ⟨unqueued.set _ _ (fun id out => ?_) (fun h => by cases h), ?_⟩
      · rcases written with rfl | ⟨r, written⟩
        · exact out
        · exact out.transition inv written
      · exact claimed.set _ CallbackStage.noConfusion
  | stop n =>
      obtain ⟨callback, -, rfl⟩ := Option.map_eq_some_iff.mp taken
      exact ⟨unqueued.set _ _ (fun _ out => out) (fun h => by cases h),
        claimed.set _ CallbackStage.noConfusion⟩
  | requeue process rows =>
      obtain ⟨stored, distinct, tables, rfl, rfl | requeued⟩ := requeue_cases taken
      · exact ⟨unqueued, claimed⟩
      · refine ⟨fun n callback present executing => ?_, claimed⟩
        refine (unqueued n callback present executing).requeue inv stored distinct requeued ?_
        intro item member same
        have latest := claimed n callback present executing
        rw [← same] at latest
        exact condition item member n latest callback present executing

/-- A terminal write of some callback changes the tables. -/
def TakesEffect (fleet : Fleet) (n : Nat) (after : Fleet) : Prop :=
  ∃ action : FleetAction, action.writer = some n ∧ fleet.step action = some after ∧
    after.tables ≠ fleet.tables

/-- Callback `n` is executing a running job without a terminal event, and leaves one. -/
def Settles (fleet : Fleet) (n : Nat) (after : Fleet) : Prop :=
  ∃ callback row, fleet.callbacks.get? n = some callback ∧ callback.stage = .executing ∧
    fleet.tables.jobs.get? callback.jobId = some row ∧ row.status = "running" ∧
    terminalEvents fleet.tables callback.jobId = [] ∧
    (terminalEvents after.tables callback.jobId).length = 1

theorem finish_settles (before : Reachable fleet.tables)
    {action : SqlAlchemyAgentJobRepository.Action}
    (outcome : ∀ prior t updated kind payload,
      action.apply prior t = .ok (some (updated, kind, payload)) →
        prior.status = .running ∧ updated.status.terminal = true)
    (taken : fleet.finish n now action = some after) (changes : after.tables ≠ fleet.tables) :
    fleet.Settles n after := by
  obtain ⟨callback, tables, found, stage, same | ⟨r, written⟩, rfl⟩ := finish_cases taken
  · exact absurd same changes
  · rcases transition_changes before.invariant written with ⟨-, same⟩ | ⟨t, prior, events,
      updated, kind, payload, last, own, live, -, applied, -, rfl⟩
    · exact absurd same changes
    · obtain ⟨running, ended⟩ := outcome prior t updated kind payload applied
      have advances := Action.apply_ok applied
      refine ⟨callback, rowOfJob prior, found, stage, own ▸ live.stored, ?_,
        own ▸ live.terminalEvents, ?_⟩
      · exact congrArg AgentJobStatus.value running
      · have added : updated.jobId = callback.jobId := advances.jobId.trans own
        have terminal : terminalKind kind.value = true := by
          rw [terminalKind_value, advances.kind, AgentJobStatus.terminal_eventKind, ended]
        rw [terminalEvents_changed, ← own, live.terminalEvents, own, if_pos ⟨added, terminal⟩]
        rfl

/-- A terminal write that takes effect settles the job of a claimant. -/
theorem TakesEffect.settles (before : Reachable fleet.tables)
    (effect : fleet.TakesEffect n after) : fleet.Settles n after := by
  obtain ⟨action, writer, taken, changes⟩ := effect
  cases action with
  | complete m now result =>
      cases writer
      refine finish_settles before (fun prior t updated kind payload applied => ?_) taken changes
      exact apply_status applied
  | fail m now errorCode =>
      cases writer
      refine finish_settles before (fun prior t updated kind payload applied => ?_) taken changes
      exact apply_status applied
  | _ => cases writer

/-- Terminal writes that take effect come from the latest claimant of their job. -/
def Fenced (fleet : Fleet) : Prop :=
  ∀ n after, fleet.TakesEffect n after → ∃ callback, fleet.callbacks.get? n = some callback ∧
    fleet.latest.get? callback.jobId = some n

theorem Claimed.fenced (claimed : Claimed fleet) (before : Reachable fleet.tables) :
    Fenced fleet := by
  intro n after effect
  obtain ⟨callback, row, found, executing, -⟩ := effect.settles before
  exact ⟨callback, found, claimed n callback found executing⟩

theorem claimed_of_handsOver (run : Run step HandsOver initial fleet) : Claimed fleet := by
  have start : Exclusive initial.callbacks initial.lease ∧ Claimed initial := by
    refine ⟨⟨?_, ?_, ?_⟩, ?_⟩ <;> simp [initial, Claimed]
  exact (run.invariant start (fun _ _ _ both condition taken =>
    exclusive_step both.1 both.2 condition taken)).2

theorem claimed_of_sparesClaimant (run : Run step SparesClaimant initial fleet) :
    Claimed fleet := by
  have start : Reachable initial.tables ∧ Unqueued initial ∧ Claimed initial := by
    refine ⟨.empty, ?_, ?_⟩ <;> simp [initial, Unqueued, Claimed]
  exact (run.invariant (I := fun s => Reachable s.tables ∧ Unqueued s ∧ Claimed s) start
    (fun _ _ _ all condition taken => ⟨reachable_step all.1 taken,
      unqueued_step all.1 all.2.1 all.2.2 condition taken⟩)).2.2

end Fleet

/-- In every run of the processes each job gets at most one terminal event, and a
complete or fail write takes effect only on a running job. It is a write of the
latest claimant in the runs where the lease passes on only after the callbacks
of its last holder have ended, and in those where no requeue touches a job whose
latest claimant is executing. -/
theorem terminal_writes_fenced (fleet : Fleet) :
    (Run Fleet.step (fun _ _ => True) .initial fleet →
      (∀ id, (SqlAlchemyAgentJobRepository.terminalEvents fleet.tables id).length ≤ 1) ∧
      ∀ n after, fleet.TakesEffect n after → fleet.Settles n after) ∧
    (Run Fleet.step Fleet.HandsOver .initial fleet → fleet.Fenced) ∧
    (Run Fleet.step Fleet.SparesClaimant .initial fleet → fleet.Fenced) := by
  refine ⟨fun run => ?_, fun run => ?_, fun run => ?_⟩
  · have reachable := Fleet.reachable_of_run run
    exact ⟨reachable.once, fun n after effect => effect.settles reachable⟩
  · exact (Fleet.claimed_of_handsOver run).fenced (Fleet.reachable_of_run run)
  · exact (Fleet.claimed_of_sparesClaimant run).fenced (Fleet.reachable_of_run run)

end Fencing

namespace FleetSamples

attribute [local instance] Normalization.ascii

def now : Except Raised DateTime := .ok ⟨.utc, 5⟩

/-- A job is created and claimed by the first process, which holds the lease. -/
def claimed : List FleetAction :=
  [.create sampleJob, .acquire 1, .check 0 1 ⟨1⟩, .schedule 0, .claim 0 now]

/-- The lease is lost to a second process, which requeues the job and claims it. -/
def superseded : List FleetAction :=
  [.lose, .acquire 2, .requeue 2 [(SqlAlchemyAgentJobRepository.rowOfJob runningJob, now)],
    .check 1 2 ⟨1⟩, .schedule 1, .claim 1 now]

/-- The completion by the first callback, and whether it takes effect. -/
def completes (fleet : Fleet) : Bool :=
  (fleet.step (.complete 0 now plainResult)).any (fun after => after.tables ≠ fleet.tables)

theorem takesEffect_of_completes {fleet : Fleet} (h : completes fleet = true) :
    ∃ after, fleet.TakesEffect 0 after := by
  obtain ⟨after, taken, changes⟩ := (Option.any_eq_true _ _).mp h
  exact ⟨after, _, rfl, taken, of_decide_eq_true changes⟩

/-- One process, whose callback completes the job. -/
theorem terminal_writes_fenced_sample : ∃ fleet after,
    Run Fleet.step Fleet.HandsOver .initial fleet ∧ fleet.TakesEffect 0 after ∧
      fleet.Settles 0 after ∧ fleet.Fenced := by
  obtain ⟨fleet, run, completed⟩ := Run.exists_of_checked Fleet.step Fleet.HandsOver .initial
    claimed completes (by decide +kernel)
  obtain ⟨after, effect⟩ := takesEffect_of_completes completed
  obtain ⟨guarded, fenced, -⟩ := terminal_writes_fenced fleet
  exact ⟨fleet, after, run, effect, (guarded (run.mono fun _ _ _ => trivial)).2 0 after effect,
    fenced run⟩

/-- The first callback completes a job that the second has claimed since. -/
theorem superseded_write_takes_effect : ∃ fleet,
    Run Fleet.step (fun _ _ => True) .initial fleet ∧ ¬fleet.Fenced := by
  obtain ⟨fleet, run, test⟩ := Run.exists_of_checked Fleet.step (fun _ _ => True) .initial
    (claimed ++ superseded)
    (fun fleet => completes fleet && decide (fleet.latest.get? ⟨1⟩ = some 1 ∧
      ∀ callback ∈ fleet.callbacks.get? 0, callback.jobId = ⟨1⟩)) (by decide +kernel)
  rw [Bool.and_eq_true, decide_eq_true_eq] at test
  obtain ⟨completed, latest, own⟩ := test
  obtain ⟨after, effect⟩ := takesEffect_of_completes completed
  refine ⟨fleet, run, fun fenced => ?_⟩
  obtain ⟨callback, found, same⟩ := fenced 0 after effect
  rw [own callback found, latest] at same
  cases same

end FleetSamples

end Cinegraph
