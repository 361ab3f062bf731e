import Cinegraph.AgentJobs.InMemoryInvariant
import Cinegraph.AgentJobs.Payload
import Cinegraph.AgentJobs.Sql

/-!
What holds of the SQL tables in every reachable state: the row of an unfinished
job reads back as that job, and so does its whole event log.
-/

namespace Cinegraph

open Library AgentJobErrorMessages

variable [Normalization]

/-- Every job the constructor accepts satisfies the constraints of the table. -/
theorem allowed_rowOfJob (job : AgentJob) :
    (SqlAlchemyAgentJobRepository.rowOfJob job).allowed = true := by
  obtain ⟨key, hkey⟩ := job.idempotencyKey_canonical
  have keyLength : job.idempotencyKey.length = 36 := by
    rw [← UUID.canonical?_eq_some hkey]
    exact UUID.length_str key
  have started : job.startedAt.all (fun started => decide (job.createdAt ≤ started)) = true := by
    cases h : job.startedAt with
    | none => rfl
    | some t => simpa using (job.startedAt_utc h).2
  have finished : job.finishedAt.all (fun t => decide (job.createdAt ≤ t)) = true := by
    cases h : job.finishedAt with
    | none => rfl
    | some t => simpa using (job.finishedAt_utc h).2
  have ordered : job.finishedAt.all (fun finished =>
      job.startedAt.all (fun started => decide (started ≤ finished))) = true := by
    cases hf : job.finishedAt with
    | none => rfl
    | some finished =>
        cases hs : job.startedAt with
        | none => rfl
        | some started => simpa using job.started_le_finished hs hf
  have fields := job.execution_fields
  unfold AgentJobRow.allowed SqlAlchemyAgentJobRepository.rowOfJob
  simp only [keyLength, job.requestFingerprint_length, started, finished, ordered]
  cases hs : job.status with
  | queued =>
      rw [hs] at fields
      obtain ⟨h₁, h₂, h₃, h₄⟩ := fields
      simp [h₁, h₂, h₃, h₄, AgentJobStatus.value]
  | running =>
      rw [hs] at fields
      obtain ⟨⟨t, h₁⟩, h₂, h₃, h₄⟩ := fields
      simp [h₁, h₂, h₃, h₄, AgentJobStatus.value]
  | succeeded | safeRefusal =>
      rw [hs] at fields
      obtain ⟨⟨t, h₁⟩, ⟨u, h₂⟩, ⟨r, h₃⟩, h₄⟩ := fields
      simp [h₁, h₂, h₃, h₄, AgentJobStatus.value]
  | failed =>
      rw [hs] at fields
      obtain ⟨⟨t, h₁⟩, h₂, code, h₃, h₄⟩ := fields
      simp [h₁, h₂, h₃, h₄, AgentJobStatus.value]

namespace SqlAlchemyAgentJobRepository

omit [Normalization] in
theorem asUtc_of_utc {value : DateTime} (h : value.zone = .utc) : asUtc value = value := by
  rw [asUtc, ← h]

/-- The citations of a stored result refer to the job's candidate episodes. -/
def Cited (job : AgentJob) : Prop :=
  ∀ r, job.result = some r → ∀ c ∈ r.citations, c.episode ∈ job.candidateEpisodes

theorem jobOfRow_rowOfJob (job : AgentJob) (cited : Cited job) :
    jobOfRow (rowOfJob job) = .ok job := by
  have made := job.make_fields
  have episodes : (job.candidateEpisodes.map episodeToJson).mapM episodeFromJson =
      .ok job.candidateEpisodes :=
    mapM_map_ok _ fun episode _ => episodeFromJson_episodeToJson episode
  have status : enumOf AgentJobStatus.members AgentJobStatus.value (.str job.status.value) =
      .ok job.status := by
    cases job.status <;> decide
  have spoiler : enumOf SpoilerMode.members SpoilerMode.value (.str job.spoilerMode.value) =
      .ok job.spoilerMode := by
    cases job.spoilerMode <;> decide
  have boundary : nullable uuidOf (nullableJson uuidJson job.safeThroughEpisodeId) =
      .ok job.safeThroughEpisodeId :=
    nullable_nullableJson uuidOf uuidJson uuidOf_uuidJson (fun u => by simp [uuidJson]) _
  have result : storedResult (job.result.map resultToJson) = .ok job.result := by
    cases job.result with
    | none => rfl
    | some r =>
        rw [Option.map_some, storedResult, resultFromJson_resultToJson]
        rfl
  have created := asUtc_of_utc job.createdAt_utc
  have started : job.startedAt.map asUtc = job.startedAt := by
    cases h : job.startedAt with
    | none => rfl
    | some t => rw [Option.map_some, asUtc_of_utc (job.startedAt_utc h).1]
  have finished : job.finishedAt.map asUtc = job.finishedAt := by
    cases h : job.finishedAt with
    | none => rfl
    | some t => rw [Option.map_some, asUtc_of_utc (job.finishedAt_utc h).1]
  simp [jobOfRow, rowOfJob, objectOf, sameKeys, valueAt, nullableAt, listOf, textOf, List.lookup_cons, episodes, status, spoiler, boundary, result, scopeFromJson_scopeToJson, created, started,
    finished]
  exact ⟨cited, made⟩

/-- The row of a readable event. -/
def rowOfEvent (event : AgentJobEvent) : AgentJobEventRow where
  eventId := event.eventId
  jobId := event.jobId
  sequence := event.sequence
  kind := event.kind.value
  occurredAt := event.occurredAt
  payloadJson := .obj event.payload

omit [Normalization] in
theorem enumOf_eventKind (kind : AgentJobEventKind) :
    enumOf AgentJobEventKind.members AgentJobEventKind.value (.str kind.value) = .ok kind := by
  cases kind <;> decide

omit [Normalization] in
theorem eventOfRow_rowOfEvent (event : AgentJobEvent) :
    eventOfRow (rowOfEvent event) = .ok event := by
  have kind := enumOf_eventKind event.kind
  have utc := (AgentJobEventFields.check_eq_ok.mp event.valid).2.1
  simp only [eventOfRow, rowOfEvent, objectOf, kind, ok_bind, asUtc_of_utc utc]
  exact AgentJobEvent.make_eq_ok event.valid

/-- An unfinished job whose row and log read back as written. -/
structure Live (tables : AgentJobTables) (job : AgentJob) (events : List AgentJobEvent) :
    Prop where
  stored : tables.jobs.get? job.jobId = some (rowOfJob job)
  active : job.status.terminal = false
  rows : tables.events.filter (·.jobId = job.jobId) = events.map rowOfEvent
  log : LogInvariant job events

theorem Live.cited {tables : AgentJobTables} {job : AgentJob} {events : List AgentJobEvent}
    (h : Live tables job events) : Cited job := by
  intro r hr
  have active := h.active
  have fields := job.execution_fields
  cases hs : job.status <;> simp_all [AgentJobStatus.terminal]

omit [Normalization] in
theorem insertionSort_numbered {rows : List AgentJobEventRow} {start : Nat}
    (numbered : rows.map (·.sequence) = List.range' start rows.length) :
    rows.insertionSort (fun a b => a.sequence ≤ b.sequence) = rows := by
  apply List.Pairwise.insertionSort_eq
  have sorted : (rows.map (·.sequence)).Pairwise (· ≤ ·) := by
    rw [numbered]
    exact List.pairwise_le_range'
  exact List.pairwise_map.mp sorted

/-- The rows the repository selects for an unfinished job, in order. -/
theorem Live.eventRows {tables : AgentJobTables} {job : AgentJob} {events : List AgentJobEvent}
    (h : Live tables job events) :
    eventRows tables job.jobId = events.map rowOfEvent := by
  have numbered : (events.map rowOfEvent).map (·.sequence) =
      List.range' 1 (events.map rowOfEvent).length := by
    rw [List.map_map, List.length_map]
    exact h.log.numbered
  rw [SqlAlchemyAgentJobRepository.eventRows, h.rows]
  exact insertionSort_numbered numbered

/-- A row whose job has finished; no method changes it again. -/
def Finished (row : AgentJobRow) : Prop :=
  row.status = "succeeded" ∨ row.status = "safe_refusal" ∨ row.status = "failed"

structure TablesInvariant (tables : AgentJobTables) : Prop where
  identified : ∀ id row, tables.jobs.get? id = some row → row.jobId = id
  owned : ∀ event ∈ tables.events, tables.jobs.get? event.jobId ≠ none
  rows : ∀ id row, tables.jobs.get? id = some row →
    Finished row ∨ ∃ job events, job.jobId = id ∧ Live tables job events

theorem TablesInvariant.empty : TablesInvariant ⟨.empty, []⟩ := by
  constructor <;> simp

omit [Normalization] in
theorem finished_iff (status : AgentJobStatus) {row : AgentJobRow}
    (h : row.status = status.value) : Finished row ↔ status.terminal = true := by
  unfold Finished
  rw [h]
  cases status <;> decide

omit [Normalization] in
theorem setRow_ok {tables written : AgentJobTables} {row : AgentJobRow}
    (h : setRow tables row = .ok written) :
    row.allowed = true ∧ written = { tables with jobs := tables.jobs.set row.jobId row } := by
  unfold setRow at h
  split at h
  · cases h
    exact ⟨‹_›, rfl⟩
  · cases h

/-- The row an append adds to the event table. -/
def appendedRow (job : AgentJob) (kind : AgentJobEventKind) (payload : JsonPayload)
    (sequence : Nat) (occurred : DateTime) : AgentJobEventRow where
  eventId := job.jobId.uuid5 (InMemoryAgentJobRepository.eventName sequence)
  jobId := job.jobId
  sequence := sequence
  kind := kind.value
  occurredAt := asUtc occurred
  payloadJson := .obj payload

theorem append_ok {tables appended : AgentJobTables} {job : AgentJob} {kind : AgentJobEventKind}
    {payload : JsonPayload} {sequence : Nat} {occurred : DateTime}
    (h : append tables job kind payload sequence occurred = .ok appended) :
    1 ≤ sequence ∧ appended = { tables with
      events := tables.events ++ [appendedRow job kind payload sequence occurred] } := by
  unfold append at h
  simp only at h
  split at h
  · cases h
  · rename_i allowed
    simp only [not_or] at allowed
    cases h
    exact ⟨by omega, rfl⟩

/-- The row and event that a committed change of one job leaves in the tables. -/
def changed (tables : AgentJobTables) (job : AgentJob) (event : AgentJobEventRow) :
    AgentJobTables where
  jobs := tables.jobs.set job.jobId (rowOfJob job)
  events := tables.events ++ [event]

/-- Writing the row of one job and appending to its log touches no other job. -/
theorem Live.frame {tables : AgentJobTables} {other : AgentJob} {events : List AgentJobEvent}
    (h : Live tables other events) {job : AgentJob} {event : AgentJobEventRow}
    (different : other.jobId ≠ job.jobId) (same : event.jobId = job.jobId) :
    Live (changed tables job event) other events := by
  refine ⟨?_, h.active, ?_, h.log⟩
  · rw [changed, Dict.get?_set_of_ne _ _ different]
    exact h.stored
  · have skipped : ¬event.jobId = other.jobId := fun e => different (by rw [← e, same])
    simp only [changed, List.filter_append, List.filter_cons, skipped, decide_false,
      List.filter_nil, Bool.false_eq_true, if_false, List.append_nil]
    exact h.rows

/-- A step that writes one job's row and event keeps the invariant if the job it
leaves behind is finished or still live. -/
theorem TablesInvariant.write {tables : AgentJobTables} (h : TablesInvariant tables)
    {job : AgentJob} {event : AgentJobEventRow} (same : event.jobId = job.jobId)
    (left : Finished (rowOfJob job) ∨ ∃ job' events, job'.jobId = job.jobId ∧
      Live (changed tables job event) job' events) :
    TablesInvariant (changed tables job event) := by
  unfold changed at left ⊢
  constructor
  · intro id other stored
    rw [Dict.get?_set] at stored
    split at stored
    · cases stored
      exact Eq.symm ‹_›
    · exact h.identified id other stored
  · intro item member
    rw [Dict.get?_set]
    split
    · simp
    · rcases List.mem_append.mp member with old | new
      · exact h.owned item old
      · rename_i different
        exact absurd (by rw [List.mem_singleton.mp new, same]) different
  · intro id row stored
    rw [Dict.get?_set] at stored
    split at stored
    · cases stored
      subst id
      exact left
    · rename_i different
      rcases h.rows id row stored with finished | ⟨other, events, rfl, live⟩
      · exact .inl finished
      · exact .inr ⟨other, events, rfl, live.frame different same⟩

/-- The event a readable append leaves behind, as the reader sees it. -/
theorem appendedRow_readable (job : AgentJob) (kind : AgentJobEventKind) {payload : JsonPayload}
    {sequence : Nat} (occurred : DateTime) (positive : 1 ≤ sequence)
    (finite : finiteItems payload = true) (clean : forbiddenItems payload = false) :
    ∃ event : AgentJobEvent, appendedRow job kind payload sequence occurred = rowOfEvent event ∧
      event.kind = kind ∧ event.jobId = job.jobId ∧ event.sequence = sequence ∧
      event.occurredAt = asUtc occurred ∧ event.payload = payload := by
  let fields : AgentJobEventFields := {
    eventId := job.jobId.uuid5 (InMemoryAgentJobRepository.eventName sequence)
    sequence := sequence
    jobId := job.jobId
    kind := kind
    occurredAt := asUtc occurred
    payload := payload }
  have valid : fields.check = .ok () :=
    AgentJobEventFields.check_eq_ok.mpr ⟨positive, rfl, finite, clean⟩
  exact ⟨⟨fields, valid⟩, rfl, rfl, rfl, rfl, rfl, rfl⟩

omit [Normalization] in
theorem le_later (now previous : DateTime) : previous ≤ later now previous := by
  unfold later
  split
  · exact Int.le_refl _
  · exact DateTime.not_lt.mp ‹_›

/-- What a branch of `_transition` changes: the execution columns and nothing else. -/
structure Advances (prior updated : AgentJob) (kind : AgentJobEventKind)
    (payload : JsonPayload) : Prop where
  jobId : updated.jobId = prior.jobId
  row : updatedRow (rowOfJob prior) updated = rowOfJob updated
  kind : kind = updated.status.eventKind
  follows : Follows prior.status.eventKind updated.status.eventKind
  payload : updated.status.terminal = false → payload = [("status", .str "running")]

theorem Action.apply_ok {action : Action} {prior updated : AgentJob} {now : DateTime}
    {kind : AgentJobEventKind} {payload : JsonPayload}
    (h : action.apply prior now = .ok (some (updated, kind, payload))) :
    Advances prior updated kind payload := by
  cases action with
  | claim =>
      simp only [Action.apply] at h
      split_ifs at h with running terminal
      · cases h
      · obtain ⟨job, started, same⟩ := (bind_eq_ok _).mp h
        cases same
        have queued : prior.status = .queued := by
          cases hs : prior.status <;> simp_all [AgentJobStatus.terminal]
        obtain ⟨-, fields⟩ := AgentJob.start_ok started queued
        refine ⟨by rw [fields], by simp only [updatedRow, rowOfJob, fields], ?_, ?_, fun _ => rfl⟩
        · rw [fields]
          rfl
        · rw [fields, queued]
          exact .claimed
  | complete result =>
      simp only [Action.apply] at h
      split_ifs at h with other
      have running : prior.status = .running := not_not.mp other
      obtain ⟨job, completed, same⟩ := (bind_eq_ok _).mp h
      cases same
      obtain ⟨-, fields⟩ := AgentJob.complete_ok completed running
      refine ⟨by rw [fields], by simp only [updatedRow, rowOfJob, fields], ?_, ?_, ?_⟩
      · rw [fields]
        cases result.isSafeRefusal <;> rfl
      · rw [fields, running]
        cases result.isSafeRefusal <;> exact .finished rfl
      · rw [fields]
        cases result.isSafeRefusal <;> simp [AgentJobStatus.terminal]
  | fail errorCode =>
      simp only [Action.apply] at h
      split_ifs at h with other
      all_goals
        have running : prior.status = .running := not_not.mp other
        obtain ⟨job, failed, same⟩ := (bind_eq_ok _).mp h
        cases same
        obtain ⟨-, fields⟩ := AgentJob.fail_ok failed running
        refine ⟨by rw [fields], by simp only [updatedRow, rowOfJob, fields], ?_, ?_, ?_⟩
        · rw [fields]
          rfl
        · rw [fields, running]
          exact .finished rfl
        · rw [fields]
          simp [AgentJobStatus.terminal]
  | reject errorCode =>
      simp only [Action.apply] at h
      split_ifs at h with other
      all_goals
        obtain ⟨job, rejected, same⟩ := (bind_eq_ok _).mp h
        cases same
        obtain ⟨-, queued, fields⟩ := AgentJob.reject_ok rejected
        refine ⟨by rw [fields], by simp only [updatedRow, rowOfJob, fields], ?_, ?_, ?_⟩
        · rw [fields]
          rfl
        · rw [fields, queued]
          exact .rejected
        · rw [fields]
          simp [AgentJobStatus.terminal]

omit [Normalization] in
theorem orUnavailable_ok {α : Type} {value : Except Raised α} {a : α}
    (h : orUnavailable value = .ok a) : value = .ok a := by
  unfold orUnavailable at h
  split at h
  · exact h
  · split at h <;> cases h

/-- The last event of a live job, and the check of its log. -/
theorem Live.requireLog {tables : AgentJobTables} {job : AgentJob} {events : List AgentJobEvent}
    (h : Live tables job events) (jobs : Dict UUID AgentJobRow) :
    ∃ last, events.getLast? = some last ∧
      requireLog { tables with jobs := jobs } job.jobId =
        .ok (events.map rowOfEvent, rowOfEvent last) := by
  cases hlast : events.getLast? with
  | none =>
      have empty := List.getLast?_eq_none_iff.mp hlast
      have first := h.log.lifecycle.first
      rw [empty] at first
      cases first
  | some last =>
      have rows : SqlAlchemyAgentJobRepository.eventRows { tables with jobs := jobs } job.jobId =
          events.map rowOfEvent := h.eventRows
      have numbered : (events.map rowOfEvent).map (·.sequence) =
          List.range' 1 (events.map rowOfEvent).length := by
        rw [List.map_map, List.length_map]
        exact h.log.numbered
      refine ⟨last, rfl, ?_⟩
      simp only [SqlAlchemyAgentJobRepository.requireLog, rows, List.getLast?_map, hlast,
        Option.map_some, numbered, if_true]

omit [Normalization] in
/-- The payloads the lifecycle events carry pass the checks of an event. -/
theorem queuedPayload : finiteItems [("status", .str "queued")] = true ∧
    forbiddenItems [("status", .str "queued")] = false := by
  decide

omit [Normalization] in
theorem runningPayload : finiteItems [("status", .str "running")] = true ∧
    forbiddenItems [("status", .str "running")] = false := by
  decide

omit [Normalization] in
theorem recoveredPayload :
    finiteItems [("status", .str "queued"), ("recovered", .bool true)] = true ∧
      forbiddenItems [("status", .str "queued"), ("recovered", .bool true)] = false := by
  decide

/-- The row and event of a step that leaves its job unfinished keep it live. -/
theorem Live.advance {tables : AgentJobTables} {prior updated : AgentJob}
    {events : List AgentJobEvent} (h : Live tables prior events) {kind : AgentJobEventKind}
    {payload : JsonPayload} (occurred : DateTime) (jobId : updated.jobId = prior.jobId)
    (status : kind = updated.status.eventKind)
    (follows : Follows prior.status.eventKind updated.status.eventKind)
    (active : updated.status.terminal = false)
    (late : ∀ last ∈ events.getLast?, last.occurredAt ≤ occurred)
    (finite : finiteItems payload = true) (clean : forbiddenItems payload = false) :
    ∃ event, Live
      (changed tables updated (appendedRow updated kind payload (events.length + 1) occurred))
      updated (events ++ [event]) := by
  obtain ⟨event, written, kindEq, own, sequence, time, payloadEq⟩ :=
    appendedRow_readable updated kind occurred (Nat.le_add_left 1 events.length) finite clean
  refine ⟨event, ?_, active, ?_, ?_⟩
  · exact Dict.get?_set_self _ _ _
  · have mine : (rowOfEvent event).jobId = updated.jobId := own
    rw [written]
    simp only [changed, List.filter_append, List.filter_cons, mine, decide_true, List.filter_nil,
      if_true, List.map_append, List.map_cons, List.map_nil]
    rw [jobId, h.rows]
  · refine h.log.append ⟨status, kindEq, own.trans jobId, sequence, ?_, payloadEq⟩ jobId follows
    intro last member
    rw [time]
    exact late last member

omit [Normalization] in
theorem rowAt_some {tables : AgentJobTables} {id : UUID} {owner : Option UUID}
    {row : AgentJobRow} (h : rowAt tables id owner = some row) :
    tables.jobs.get? id = some row := by
  unfold rowAt at h
  exact (Option.filter_eq_some_iff.mp h).1

theorem jobOfRow_status {row : AgentJobRow} {job : AgentJob} (h : jobOfRow row = .ok job) :
    row.status = job.status.value := by
  simp only [jobOfRow, bind_eq_ok] at h
  obtain ⟨_, _, _, _, _, _, _, _, _, _, _, _, _, _, _, _, _, _, status, hstatus, _, _, _, _,
    made⟩ := h
  rw [AgentJob.make_ok made]
  exact (enumOf_ok hstatus).symm

/-- `_transition` on the row of an unfinished job: an early return, or the
branch's new row together with one event. -/
theorem transition_live {tables tables' : AgentJobTables} {prior : AgentJob}
    {events : List AgentJobEvent} (live : Live tables prior events)
    {now : Except Raised DateTime} {owner : Option UUID} {action : Action}
    {r : Option AgentJob} (h : transition tables now prior.jobId owner action = .ok (r, tables')) :
    (r = none ∧ tables' = tables) ∨
    ∃ t updated kind payload last, now = .ok t ∧ events.getLast? = some last ∧
      action.apply prior t = .ok (some (updated, kind, payload)) ∧ r = some updated ∧
      tables' = {
        jobs := tables.jobs.set prior.jobId (rowOfJob updated)
        events := tables.events ++ [appendedRow updated kind payload (events.length + 1)
          (later t last.occurredAt)] } := by
  unfold transition at h
  cases hrow : rowAt tables prior.jobId owner with
  | none =>
      rw [hrow] at h
      cases h
      exact .inl ⟨rfl, rfl⟩
  | some row =>
      have stored := rowAt_some hrow
      rw [live.stored] at stored
      cases stored
      rw [hrow] at h
      simp only [jobOfRow_rowOfJob prior live.cited, orUnavailable, ok_bind, bind_eq_ok] at h
      obtain ⟨t, rfl, _, -, outcome, applied, h⟩ := h
      cases outcome with
      | none =>
          cases h
          exact .inl ⟨rfl, rfl⟩
      | some step =>
          obtain ⟨updated, kind, payload⟩ := step
          have advances := Action.apply_ok applied
          obtain ⟨written, hwritten, log, hlog, appended, happended, h⟩ :=
            by simpa only [bind_eq_ok] using h
          cases h
          rw [advances.row] at hwritten
          obtain ⟨-, rfl⟩ := setRow_ok (orUnavailable_ok hwritten)
          obtain ⟨last, hlast, required⟩ :=
            live.requireLog (tables.jobs.set (rowOfJob updated).jobId (rowOfJob updated))
          rw [required] at hlog
          cases hlog
          obtain ⟨-, rfl⟩ := append_ok (orUnavailable_ok happended)
          refine .inr ⟨t, updated, kind, payload, last, rfl, hlast, applied, rfl, ?_⟩
          rw [List.length_map]
          simp only [rowOfJob, advances.jobId, rowOfEvent]

/-- A transition that returns changes nothing or advances an unfinished job. -/
theorem transition_changes {tables tables' : AgentJobTables} (inv : TablesInvariant tables)
    {now : Except Raised DateTime} {id : UUID} {owner : Option UUID} {action : Action}
    {r : Option AgentJob} (h : transition tables now id owner action = .ok (r, tables')) :
    (r = none ∧ tables' = tables) ∨
    ∃ t prior events updated kind payload last, prior.jobId = id ∧ Live tables prior events ∧
      events.getLast? = some last ∧ action.apply prior t = .ok (some (updated, kind, payload)) ∧
      r = some updated ∧ tables' = changed tables updated
        (appendedRow updated kind payload (events.length + 1) (later t last.occurredAt)) := by
  cases hrow : rowAt tables id owner with
  | none =>
      simp only [transition, hrow] at h
      cases h
      exact .inl ⟨rfl, rfl⟩
  | some row =>
      rcases inv.rows id row (rowAt_some hrow) with finished | ⟨job, events, rfl, live⟩
      · simp only [transition, hrow, bind_eq_ok] at h
        obtain ⟨prior, hprior, t, -, _, -, outcome, applied, h⟩ := h
        have status := jobOfRow_status (orUnavailable_ok hprior)
        have terminal := (finished_iff prior.status status).mp finished
        cases outcome with
        | none =>
            cases h
            exact .inl ⟨rfl, rfl⟩
        | some step =>
            have active := (Action.apply_ok applied).follows.not_terminal
            rw [AgentJobStatus.terminal_eventKind, terminal] at active
            cases active
      · rcases transition_live live h with unchanged | ⟨t, updated, kind, payload, last, -, hlast,
          applied, returned, rfl⟩
        · exact .inl unchanged
        · refine .inr ⟨t, job, events, updated, kind, payload, last, rfl, live, hlast, applied,
            returned, ?_⟩
          rw [changed, (Action.apply_ok applied).jobId]

theorem transition_preserves {tables tables' : AgentJobTables} (inv : TablesInvariant tables)
    {now : Except Raised DateTime} {id : UUID} {owner : Option UUID} {action : Action}
    {r : Option AgentJob} (h : transition tables now id owner action = .ok (r, tables')) :
    TablesInvariant tables' := by
  rcases transition_changes inv h with ⟨-, rfl⟩ | ⟨t, job, events, updated, kind, payload, last,
    -, live, hlast, applied, -, rfl⟩
  · exact inv
  · have advances := Action.apply_ok applied
    have left : Finished (rowOfJob updated) ∨ ∃ job' events', job'.jobId = updated.jobId ∧
        Live (changed tables updated (appendedRow updated kind payload (events.length + 1)
          (later t last.occurredAt))) job' events' := by
      cases active : updated.status.terminal with
      | true => exact .inl ((finished_iff updated.status rfl).mpr active)
      | false =>
          have plain := advances.payload active
          subst plain
          have late : ∀ last' ∈ events.getLast?,
              last'.occurredAt ≤ later t last.occurredAt := by
            intro last' member
            rw [hlast] at member
            cases member
            exact le_later t _
          obtain ⟨event, live'⟩ := live.advance _ advances.jobId advances.kind
            advances.follows active late runningPayload.1 runningPayload.2
          exact .inr ⟨updated, _, rfl, live'⟩
    exact inv.write rfl left

/-- A turn of a requeue puts one running job back into the queue. -/
theorem requeueRow_changes {tables tables' : AgentJobTables} (inv : TablesInvariant tables)
    {row : AgentJobRow} (stored : tables.jobs.get? row.jobId = some row)
    {now : Except Raised DateTime} (h : requeueRow tables row now = .ok tables') :
    ∃ t prior events updated last, prior.jobId = row.jobId ∧ Live tables prior events ∧
      events.getLast? = some last ∧ prior.requeueAfterInterruption t = .ok updated ∧
      tables' = changed tables updated
        (appendedRow updated .queued [("status", .str "queued"), ("recovered", .bool true)]
          (events.length + 1) (later t last.occurredAt)) := by
  simp only [requeueRow, bind_eq_ok] at h
  obtain ⟨prior, hprior, t, -, _, -, updated, requeued, written, hwritten, log, hlog, h⟩ := h
  obtain ⟨-, running, fields⟩ := AgentJob.requeueAfterInterruption_ok requeued
  rcases inv.rows row.jobId row stored with finished | ⟨job, events, own, live⟩
  · have terminal := (finished_iff prior.status (jobOfRow_status hprior)).mp finished
    rw [running] at terminal
    cases terminal
  · have same := live.stored
    rw [own, stored] at same
    cases same
    rw [jobOfRow_rowOfJob job live.cited] at hprior
    cases hprior
    have newRow : { rowOfJob prior with status := updated.status.value, startedAt := none } =
        rowOfJob updated := by
      simp only [rowOfJob, fields]
    rw [newRow] at hwritten
    obtain ⟨-, rfl⟩ := setRow_ok hwritten
    obtain ⟨last, hlast, required⟩ :=
      live.requireLog (tables.jobs.set (rowOfJob updated).jobId (rowOfJob updated))
    rw [show (rowOfJob prior).jobId = prior.jobId from rfl, required] at hlog
    cases hlog
    obtain ⟨-, rfl⟩ := append_ok h
    refine ⟨t, prior, events, updated, last, own, live, hlast, requeued, ?_⟩
    rw [List.length_map]
    rfl

theorem requeueRow_preserves {tables tables' : AgentJobTables} (inv : TablesInvariant tables)
    {row : AgentJobRow} (stored : tables.jobs.get? row.jobId = some row)
    {now : Except Raised DateTime} (h : requeueRow tables row now = .ok tables') :
    TablesInvariant tables' ∧
      ∀ id, id ≠ row.jobId → tables'.jobs.get? id = tables.jobs.get? id := by
  obtain ⟨t, prior, events, updated, last, own, live, hlast, requeued, rfl⟩ :=
    requeueRow_changes inv stored h
  obtain ⟨-, running, fields⟩ := AgentJob.requeueAfterInterruption_ok requeued
  have jobId : updated.jobId = prior.jobId := by rw [fields]
  have queued : updated.status = .queued := by rw [fields]
  have kind : AgentJobEventKind.queued = updated.status.eventKind := by rw [queued]; rfl
  have follows : Follows prior.status.eventKind updated.status.eventKind := by
    rw [running, queued]
    exact .recovered
  have active : updated.status.terminal = false := by rw [queued]; rfl
  have late : ∀ last' ∈ events.getLast?, last'.occurredAt ≤ later t last.occurredAt := by
    intro last' member
    rw [hlast] at member
    cases member
    exact le_later t _
  obtain ⟨event, live'⟩ := live.advance _ jobId kind follows active late recoveredPayload.1
    recoveredPayload.2
  refine ⟨inv.write rfl (.inr ⟨updated, _, rfl, live'⟩), fun id different => ?_⟩
  refine Dict.get?_set_of_ne _ _ ?_
  rw [jobId, own]
  exact different

/-- What every turn of a requeue preserves, on rows that are still as selected, the
whole requeue preserves. -/
theorem requeueRows_rule {P : AgentJobTables → Prop} {tables tables' : AgentJobTables}
    (inv : TablesInvariant tables) {rows : List (AgentJobRow × Except Raised DateTime)}
    (stored : ∀ item ∈ rows, tables.jobs.get? item.1.jobId = some item.1)
    (distinct : (rows.map (·.1.jobId)).Nodup) (h : requeueRows tables rows = .ok tables')
    (turn : ∀ item ∈ rows, ∀ s t, TablesInvariant s → P s →
      s.jobs.get? item.1.jobId = some item.1 → requeueRow s item.1 item.2 = .ok t → P t)
    (before : P tables) : TablesInvariant tables' ∧ P tables' := by
  have loop := orUnavailable_ok h
  clear h
  induction rows generalizing tables with
  | nil =>
      cases loop
      exact ⟨inv, before⟩
  | cons item rest ih =>
      rw [List.foldlM_cons, bind_eq_ok] at loop
      obtain ⟨next, first, loop⟩ := loop
      obtain ⟨absent, tail⟩ := List.nodup_cons.mp distinct
      have selected := stored item List.mem_cons_self
      obtain ⟨inv', frame⟩ := requeueRow_preserves inv selected first
      have after := turn item List.mem_cons_self tables next inv before selected first
      refine ih inv' (fun other member => ?_) tail
        (fun other member => turn other (List.mem_cons_of_mem _ member)) after loop
      have different : other.1.jobId ≠ item.1.jobId := by
        intro same
        exact absent (List.mem_map.mpr ⟨other, member, same⟩)
      rw [frame _ different]
      exact stored other (List.mem_cons_of_mem _ member)

theorem requeueRows_preserves {tables tables' : AgentJobTables} (inv : TablesInvariant tables)
    {rows : List (AgentJobRow × Except Raised DateTime)}
    (stored : ∀ item ∈ rows, tables.jobs.get? item.1.jobId = some item.1)
    (distinct : (rows.map (·.1.jobId)).Nodup) (h : requeueRows tables rows = .ok tables') :
    TablesInvariant tables' :=
  (requeueRows_rule (P := fun _ => True) inv stored distinct h
    (fun _ _ _ _ _ _ _ _ => trivial) trivial).1

/-- A creation that returns changes nothing or stores a new queued job. -/
theorem create_changes {tables tables' : AgentJobTables} {job : AgentJob} {r : AgentJob × Bool}
    (h : create tables job = .ok (r, tables')) :
    tables' = tables ∨ (tables.jobs.get? job.jobId = none ∧ job.status = .queued ∧
      tables' = changed tables job
        (appendedRow job .queued [("status", .str "queued")] 1 job.createdAt)) := by
  unfold create at h
  simp only at h
  split at h
  · rename_i fresh
    obtain ⟨-, unstored⟩ := fresh
    split at h
    · rename_i inserted hinsert
      cases h
      simp only [insert, bind_eq_ok] at hinsert
      obtain ⟨written, hwritten, happended⟩ := hinsert
      obtain ⟨allowed, rfl⟩ := setRow_ok hwritten
      obtain ⟨-, rfl⟩ := append_ok happended
      have queued : job.status = .queued := by
        have coherent : job.status.value = "queued" := by
          simp [AgentJobRow.allowed, insertedRow, rowOfJob] at allowed
          exact of_decide_eq_true allowed.2
        cases hs : job.status <;> rw [hs] at coherent <;> revert coherent <;> decide
      have row : insertedRow job = rowOfJob job := by
        have fields := job.execution_fields
        rw [queued] at fields
        obtain ⟨h₁, h₂, h₃, h₄⟩ := fields
        simp only [insertedRow, rowOfJob, asUtc_of_utc job.createdAt_utc, h₁, h₂, h₃, h₄,
          Option.map_none]
      rw [row]
      exact .inr ⟨unstored, queued, rfl⟩
    · cases h
  · left
    split at h
    · cases h
    · split at h
      · cases h
      · cases hjob : orUnavailable (jobOfRow ‹_›) with
        | error e =>
            rw [hjob] at h
            cases h
        | ok stored =>
            rw [hjob] at h
            cases h
            rfl

theorem create_preserves {tables tables' : AgentJobTables} (inv : TablesInvariant tables)
    {job : AgentJob} {r : AgentJob × Bool} (h : create tables job = .ok (r, tables')) :
    TablesInvariant tables' := by
  rcases create_changes h with rfl | ⟨unstored, queued, rfl⟩
  · exact inv
  · have unlogged : tables.events.filter (·.jobId = job.jobId) = [] := by
      rw [List.filter_eq_nil_iff]
      intro event member
      have owner := inv.owned event member
      simp only [decide_eq_true_eq]
      intro same
      rw [same] at owner
      exact owner unstored
    obtain ⟨event, written, kind, own, sequence, time, payload⟩ :=
      appendedRow_readable job .queued job.createdAt (Nat.le_refl 1) queuedPayload.1
        queuedPayload.2
    refine inv.write rfl (.inr ⟨job, [event], rfl, ?_, by rw [queued]; rfl, ?_, ?_⟩)
    · exact Dict.get?_set_self _ _ _
    · have mine : (rowOfEvent event).jobId = job.jobId := own
      simp only [changed, written, List.filter_append, unlogged, List.nil_append, List.filter_cons,
        mine, decide_true, if_true, List.filter_nil, List.map_cons, List.map_nil]
    · constructor
      · intro item member
        rw [List.mem_singleton.mp member]
        exact own
      · simp [sequence]
      · simp
      · exact ⟨by simp [kind], by simp⟩
      · simp [kind, queued, AgentJobStatus.eventKind]

/-- The tables that committed transactions of the repository can lead to, each
with any clock reading. A requeue selects any stored rows, each once. -/
inductive Reachable : AgentJobTables → Prop where
  | empty : Reachable ⟨.empty, []⟩
  | create {tables tables' job r} (before : Reachable tables)
      (committed : create tables job = .ok (r, tables')) : Reachable tables'
  | transition {tables tables' now id owner action r} (before : Reachable tables)
      (committed : transition tables now id owner action = .ok (r, tables')) : Reachable tables'
  | requeue {tables tables' rows} (before : Reachable tables)
      (stored : ∀ item ∈ rows, tables.jobs.get? item.1.jobId = some item.1)
      (distinct : (rows.map (·.1.jobId)).Nodup)
      (committed : requeueRows tables rows = .ok tables') : Reachable tables'

theorem Reachable.invariant {tables : AgentJobTables} (h : Reachable tables) :
    TablesInvariant tables := by
  induction h with
  | empty => exact TablesInvariant.empty
  | create _ committed ih => exact create_preserves ih committed
  | transition _ committed ih => exact transition_preserves ih committed
  | requeue _ stored distinct committed ih =>
      exact requeueRows_preserves ih stored distinct committed

end SqlAlchemyAgentJobRepository

end Cinegraph
