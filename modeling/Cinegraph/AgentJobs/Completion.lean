import Cinegraph.AgentJobs.SqlInvariant

/-!
When the completion of a running job is durable. Both stores keep the result
and replay the log exactly when the privacy scan lets the answer through: the
in-memory store scans before it commits, the SQL store only when it reads.
-/

namespace Cinegraph

open Library AgentJobErrorMessages

section Durability

variable [Normalization]

/-- The log of a finished job as a reader gets it: one event after the `before`
earlier ones, of the kind of the job's final status. -/
structure Replays (job : AgentJob) (before : Nat) (events : List AgentJobEvent) : Prop where
  terminal : job.status.terminal = true
  numbered : events.map (·.sequence) = List.range' 1 (before + 1)
  last : (events.map (·.kind)).getLast? = some job.status.eventKind

/-- The timestamps a job and its log already carry. -/
def timestamps (job : AgentJob) (events : List AgentJobEvent) : List DateTime :=
  job.createdAt :: (job.startedAt.toList ++ events.map (·.occurredAt))

namespace InMemoryAgentJobRepository

/-- Completing `job` and replaying its log, on the in-memory store. -/
def Durable (clock : Clock) (w : AgentJobWorld) (job : AgentJob) (before : Nat)
    (result : SeriesAgentResult) (owner : Option UUID) : Prop :=
  ∃ updated w', Exec.run (completeWithEvent clock job.jobId result owner) w =
      (.ok (some updated), w') ∧
    updated.result = some result ∧ w'.store.jobs.get? job.jobId = some updated ∧
    ∃ events w'', Exec.run (listEventsAfter job.jobId 0 none) w' = (.ok events, w'') ∧
      Replays updated before events

/-- A stored job, its log, two readings of a clock that is not behind them, and
an event identifier that is not in use. -/
structure Ready (clock : Clock) (w : AgentJobWorld) (job : AgentJob)
    (events : List AgentJobEvent) (owner : Option UUID) : Prop where
  stored : w.store.jobs.get? job.jobId = some job
  logged : w.store.events.get? job.jobId = some events
  owner : ∀ profile ∈ owner, job.ownerProfileId = profile
  readings : ∀ i < 2, ∃ t, clock (w.readings + i) = .ok t ∧ t.zone = .utc ∧
    ∀ previous ∈ timestamps job events, previous ≤ t
  fresh : ∀ event ∈ events, event.eventId ≠ job.jobId.uuid5 (eventName (events.length + 1))

theorem find_of_get? {s : AgentJobStore} {id : UUID} {owner : Option UUID} {job : AgentJob}
    (stored : s.jobs.get? id = some job) (owned : ∀ profile ∈ owner, job.ownerProfileId = profile) :
    find s id owner = some job := by
  have mine : ¬∃ profile ∈ owner, job.ownerProfileId ≠ profile := by
    rintro ⟨profile, member, different⟩
    exact different (owned profile member)
  simp only [find, stored, Option.bind_eq_bind, Option.bind_some, mine, if_false]

/-- The last append of a completion comes down to the constructor of its event. -/
theorem appendLocked_terminal {clock : Clock} {w : AgentJobWorld} {updated : AgentJob}
    {events : List AgentJobEvent} {payload : JsonPayload} {t : DateTime}
    (stored : w.store.jobs.get? updated.jobId = some updated)
    (logged : w.store.events.get? updated.jobId = some events)
    (reading : clock w.readings = .ok t)
    (late : ∀ last ∈ events.getLast?, last.occurredAt ≤ t)
    (once : ∀ item ∈ events, item.kind ≠ updated.status.eventKind)
    (fresh : ∀ item ∈ events,
      item.eventId ≠ updated.jobId.uuid5 (eventName (events.length + 1)))
    {Q : AgentJobEvent → AgentJobWorld → Prop} {E : Raised → AgentJobWorld → Prop} :
    Exec.Post (appendLocked clock updated.jobId updated.status.eventKind payload) Q E w ↔
      match AgentJobEvent.make {
          eventId := updated.jobId.uuid5 (eventName (events.length + 1))
          sequence := events.length + 1
          jobId := updated.jobId
          kind := updated.status.eventKind
          occurredAt := t
          payload := payload } with
      | .ok event => Q event (setEvents updated.jobId (events ++ [event])
          { w with readings := w.readings + 1 })
      | .error e => E e { w with readings := w.readings + 1 } := by
  have noneOfKind : ¬∃ item ∈ events, item.kind = updated.status.eventKind := by
    rintro ⟨item, member, same⟩
    exact once item member same
  have noneOfId : ¬∃ item ∈ events,
      item.eventId = updated.jobId.uuid5 (eventName (events.length + 1)) := by
    rintro ⟨item, member, same⟩
    exact fresh item member same
  have notLate : ¬∃ last ∈ events.getLast?, t < last.occurredAt := by
    rintro ⟨last, member, earlier⟩
    exact DateTime.not_lt.mpr (late last member) earlier
  simp only [appendLocked, jobAt, eventsAt, store, Exec.post_bind, Exec.post_get,
    Exec.post_pure, stored, logged, Exec.post_require, Exec.post_ite, Exec.post_throw,
    Option.some.injEq, forall_eq', reduceCtorEq, false_implies, and_true, ne_eq, not_true,
    not_false_eq_true, true_implies, true_and, noneOfKind, and_false, post_now_ok reading]
  split
  · rename_i event made
    have fields := AgentJobEvent.make_ok made
    have own : event.jobId = updated.jobId := by rw [fields]
    have kind : event.kind = updated.status.eventKind := by rw [fields]
    have sequence : event.sequence = events.length + 1 := by rw [fields]
    have time : event.occurredAt = t := by rw [fields]
    have identifier : event.eventId = updated.jobId.uuid5 (eventName (events.length + 1)) := by
      rw [fields]
    rw [made]
    change Exec.Post (appendEventLocked event) Q E _ ↔ _
    simp only [appendEventLocked, eventsAt, store, own, kind, sequence, time, identifier,
      Exec.post_bind, Exec.post_get, Exec.post_pure, stored, logged, Exec.post_require,
      Exec.post_ite, Exec.post_throw, Exec.post_modify, Option.some.injEq, forall_eq',
      reduceCtorEq, false_implies, and_true, ne_eq, not_true, not_false_eq_true, true_implies,
      true_and, noneOfId, notLate]
  · rename_i e refused
    rw [refused]
    rfl

/-- Completing a job of the in-memory store is durable exactly when its answer
carries no marker. -/
theorem durable_iff {clock : Clock} {w : AgentJobWorld} {job : AgentJob}
    {events : List AgentJobEvent} {owner : Option UUID} (invariant : StoreInvariant w.store)
    (running : job.status = .running) (ready : Ready clock w job events owner)
    (result : SeriesAgentResult) :
    Durable clock w job events.length result owner ↔ result.Unmarked := by
  obtain ⟨logged', hlogged, log⟩ := invariant.logged _ job ready.stored
  rw [ready.logged] at hlogged
  cases hlogged
  have execution := job.execution_fields
  rw [running] at execution
  obtain ⟨⟨started, hstarted⟩, -⟩ := execution
  obtain ⟨t, ht, utc, late⟩ := ready.readings 0 (by decide)
  obtain ⟨u, hu, utc', late'⟩ := ready.readings 1 (by decide)
  obtain ⟨updated, completed⟩ := job.complete_isOk result running hstarted utc
    (late started (by simp [timestamps, hstarted]))
  obtain ⟨-, fields⟩ := AgentJob.complete_ok completed running
  have own : updated.jobId = job.jobId := by rw [fields]
  have terminal : updated.status.terminal = true := by
    rw [fields]
    cases result.isSafeRefusal <;> rfl
  have kind : (if updated.status = .safeRefusal then AgentJobEventKind.safeRefusal
      else .succeeded) = updated.status.eventKind := by
    rw [fields]
    cases result.isSafeRefusal <;> rfl
  have once : ∀ item ∈ events, item.kind ≠ updated.status.eventKind := by
    intro item member same
    have active := log.lifecycle.active log.last (by rw [running]; rfl) item.kind
      (List.mem_map.mpr ⟨item, member, rfl⟩)
    rw [same, AgentJobStatus.terminal_eventKind, terminal] at active
    cases active
  have behind : ∀ last ∈ events.getLast?, last.occurredAt ≤ u := by
    intro last member
    refine late' last.occurredAt ?_
    simp only [timestamps, List.mem_cons, List.mem_append, List.mem_map]
    exact .inr (.inr ⟨last, List.mem_of_getLast? member, rfl⟩)
  let written := setJob job.jobId updated { w with readings := w.readings + 1 }
  have stored : written.store.jobs.get? updated.jobId = some updated := by
    rw [own]
    exact Dict.get?_set_self _ _ _
  have logged : written.store.events.get? updated.jobId = some events := by
    rw [own]
    exact ready.logged
  have completion {Q : Option AgentJob → AgentJobWorld → Prop}
      {E : Raised → AgentJobWorld → Prop} :
      Exec.Post (completeWithEvent clock job.jobId result owner) Q E w ↔
        Exec.Post (appendLocked clock updated.jobId updated.status.eventKind
          (resultEventPayload result)) (fun _ s => Q (some updated) s)
          (fun e s => E e (setJob job.jobId job s)) written := by
    simp only [completeWithEvent, store, Exec.post_bind, Exec.post_get, Exec.post_pure,
      find_of_get? ready.stored ready.owner, running, ne_eq, not_true, if_false, transition,
      post_now_ok ht, completed, Exec.post_lift_ok, kind, Exec.post_modify,
      Exec.post_rollback, own]
    rfl
  constructor
  · rintro ⟨updated', w', returned, -⟩
    by_contra marked
    have refused : forbiddenItems (resultEventPayload result) = true := by
      rw [← Bool.not_eq_false, forbiddenItems_resultEventPayload]
      exact marked
    have raises : Exec.Post (completeWithEvent clock job.jobId result owner)
        (fun _ _ => False) (fun _ _ => True) w := by
      rw [completion, appendLocked_terminal stored logged hu behind once (own ▸ ready.fresh)]
      obtain ⟨e, made⟩ := AgentJobEvent.make_eq_error {
        eventId := updated.jobId.uuid5 (eventName (events.length + 1))
        sequence := events.length + 1
        jobId := updated.jobId
        kind := updated.status.eventKind
        occurredAt := u
        payload := resultEventPayload result } (fun valid => by
          have clean := (AgentJobEventFields.check_eq_ok.mp valid).2.2.2
          rw [refused] at clean
          cases clean)
      rw [made]
      trivial
    exact raises.of_ok returned
  · intro unmarked
    have valid : AgentJobEventFields.check {
        eventId := updated.jobId.uuid5 (eventName (events.length + 1))
        sequence := events.length + 1
        jobId := updated.jobId
        kind := updated.status.eventKind
        occurredAt := u
        payload := resultEventPayload result } = .ok () :=
      AgentJobEventFields.check_eq_ok.mpr ⟨Nat.le_add_left _ _, utc',
        finiteItems_resultEventPayload result,
        (forbiddenItems_resultEventPayload result).mpr unmarked⟩
    let event : AgentJobEvent := ⟨_, valid⟩
    have returns : Exec.Post (completeWithEvent clock job.jobId result owner)
        (fun r s => r = some updated ∧ s.store =
          (setEvents updated.jobId (events ++ [event]) written).store) (fun _ _ => False) w := by
      rw [completion, appendLocked_terminal stored logged hu behind once (own ▸ ready.fresh),
        AgentJobEvent.make_eq_ok valid]
      exact ⟨rfl, rfl⟩
    obtain ⟨_, w', hrun, rfl, hstore⟩ := returns.returns
    have kept : w'.store.jobs.get? job.jobId = some updated := by
      rw [hstore, ← own]
      exact stored
    have log' : w'.store.events.get? job.jobId = some (events ++ [event]) := by
      rw [hstore, own]
      exact Dict.get?_set_self _ _ _
    refine ⟨updated, w', hrun, by rw [fields], kept, ?_⟩
    have numbered : (events ++ [event]).map (·.sequence) = List.range' 1 (events.length + 1) := by
      rw [List.map_append, log.numbered]
      simp [event, List.range'_concat, Nat.add_comm]
    have positive : (events ++ [event]).filter (fun item => decide ((0 : Int) < item.sequence)) =
        events ++ [event] := by
      rw [List.filter_eq_self]
      intro item member
      have inRange : item.sequence ∈ List.range' 1 (events.length + 1) := by
        rw [← numbered]
        exact List.mem_map.mpr ⟨item, member, rfl⟩
      have := (List.mem_range'_1.mp inRange).1
      simp only [decide_eq_true_eq]
      omega
    have reads : Exec.Post (listEventsAfter job.jobId 0 none)
        (fun items _ => items = events ++ [event]) (fun _ _ => False) w' := by
      have found : find w'.store job.jobId none = some updated :=
        find_of_get? kept (fun _ member => by cases member)
      simp only [listEventsAfter, store, eventsAt, Exec.post_bind, Exec.post_get, Exec.post_pure,
        Int.lt_irrefl, if_false, found, log', Exec.post_require, Option.some.injEq, forall_eq',
        reduceCtorEq, false_implies, and_true]
      exact positive
    obtain ⟨items, w'', hread, rfl⟩ := reads.returns
    refine ⟨_, w'', hread, terminal, numbered, ?_⟩
    rw [List.map_append]
    exact List.getLast?_concat

end InMemoryAgentJobRepository

namespace SqlAlchemyAgentJobRepository

/-- Completing `job` and replaying its log, on the SQL store. -/
def Durable (tables : AgentJobTables) (now : Except Raised DateTime) (job : AgentJob)
    (before : Nat) (result : SeriesAgentResult) (owner : Option UUID) : Prop :=
  ∃ updated tables', completeWithEvent tables now job.jobId result owner =
      .ok (some updated, tables') ∧
    updated.result = some result ∧ get tables' job.jobId none = .ok (some updated) ∧
    ∃ events, listEventsAfter tables' job.jobId 0 none = .ok events ∧
      Replays updated before events

/-- The job as the store returns it, its log, one reading of a clock that is not
behind them, and an event identifier that is not in use in the table. -/
structure Ready (tables : AgentJobTables) (now : Except Raised DateTime) (job : AgentJob)
    (events : List AgentJobEvent) (owner : Option UUID) : Prop where
  stored : get tables job.jobId none = .ok (some job)
  logged : listEventsAfter tables job.jobId 0 none = .ok events
  owner : ∀ profile ∈ owner, job.ownerProfileId = profile
  reading : ∃ t, now = .ok t ∧ t.zone = .utc ∧ ∀ previous ∈ timestamps job events, previous ≤ t
  fresh : ∀ row ∈ tables.events, row.eventId ≠
    job.jobId.uuid5 (InMemoryAgentJobRepository.eventName (events.length + 1))

omit [Normalization] in
theorem rowAt_of_get? {tables : AgentJobTables} {id : UUID} {owner : Option UUID}
    {row : AgentJobRow} (stored : tables.jobs.get? id = some row)
    (owned : ∀ profile ∈ owner, row.ownerProfileId = profile) :
    rowAt tables id owner = some row := by
  unfold rowAt
  rw [stored, Option.filter_some, if_pos (decide_eq_true owned)]

omit [Normalization] in
/-- The replay of a log whose rows are numbered from 1 reads each of them. -/
theorem listEventsAfter_zero {tables : AgentJobTables} {id : UUID} {row : AgentJobRow}
    (stored : tables.jobs.get? id = some row) {rows : List AgentJobEventRow}
    (filtered : tables.events.filter (·.jobId = id) = rows)
    (numbered : rows.map (·.sequence) = List.range' 1 rows.length) :
    listEventsAfter tables id 0 none = orUnavailable (rows.mapM eventOfRow) := by
  have found : rowAt tables id none = some row :=
    rowAt_of_get? stored (fun _ member => by cases member)
  have ordered : eventRows tables id = rows := by
    rw [eventRows, filtered]
    exact insertionSort_numbered numbered
  have positive : rows.filter (fun item => decide ((0 : Int) < item.sequence)) = rows := by
    rw [List.filter_eq_self]
    intro item member
    have inRange : item.sequence ∈ List.range' 1 rows.length := by
      rw [← numbered]
      exact List.mem_map.mpr ⟨item, member, rfl⟩
    have := (List.mem_range'_1.mp inRange).1
    simp only [decide_eq_true_eq]
    omega
  simp only [listEventsAfter, Int.lt_irrefl, if_false, found, ordered, positive]
  have passed : reject (rows.map (·.sequence) ≠ List.range' (Int.toNat 0 + 1) rows.length)
      "corrupt event sequence" = .ok () := reject_of_not (not_not.mpr numbered)
  rw [passed, ok_bind]

omit [Normalization] in
theorem mapM_eventOfRow (events : List AgentJobEvent) :
    (events.map rowOfEvent).mapM eventOfRow = .ok events :=
  mapM_map_ok events fun event _ => eventOfRow_rowOfEvent event

/-- A job the store returns as running is live, with the log the store replays. -/
theorem live_of_get {tables : AgentJobTables} {job : AgentJob} {events : List AgentJobEvent}
    (invariant : TablesInvariant tables) (running : job.status = .running)
    (stored : get tables job.jobId none = .ok (some job))
    (logged : listEventsAfter tables job.jobId 0 none = .ok events) :
    Live tables job events := by
  unfold get at stored
  cases hrow : rowAt tables job.jobId none with
  | none =>
      rw [hrow] at stored
      cases stored
  | some row =>
      rw [hrow] at stored
      have read : jobOfRow row = .ok job := by
        have mapped := orUnavailable_ok stored
        cases hjob : jobOfRow row with
        | error e =>
            rw [hjob] at mapped
            cases mapped
        | ok other =>
            rw [hjob] at mapped
            cases mapped
            rfl
      rcases invariant.rows _ row (rowAt_some hrow) with finished | ⟨other, log, own, live⟩
      · have terminal := (finished_iff job.status (jobOfRow_status read)).mp finished
        rw [running] at terminal
        cases terminal
      · have same := live.stored
        rw [own, rowAt_some hrow] at same
        cases same
        rw [jobOfRow_rowOfJob other live.cited] at read
        cases read
        have numbered : (log.map rowOfEvent).map (·.sequence) =
            List.range' 1 (log.map rowOfEvent).length := by
          rw [List.map_map, List.length_map]
          exact live.log.numbered
        rw [listEventsAfter_zero live.stored live.rows numbered, mapM_eventOfRow] at logged
        cases logged
        exact live

/-- A transition of a live job commits its new row and one event, whatever the
payload of that event is. -/
theorem transition_eq {tables : AgentJobTables} {prior updated : AgentJob}
    {events : List AgentJobEvent} (live : Live tables prior events) {owner : Option UUID}
    (owned : ∀ profile ∈ owner, prior.ownerProfileId = profile) {action : Action} {t : DateTime}
    (utc : t.zone = .utc) {kind : AgentJobEventKind} {payload : JsonPayload}
    (applied : action.apply prior t = .ok (some (updated, kind, payload)))
    (fresh : ∀ row ∈ tables.events, row.eventId ≠
      prior.jobId.uuid5 (InMemoryAgentJobRepository.eventName (events.length + 1))) :
    ∃ occurred, transition tables (.ok t) prior.jobId owner action = .ok (some updated, {
      jobs := tables.jobs.set prior.jobId (rowOfJob updated)
      events := tables.events ++
        [appendedRow updated kind payload (events.length + 1) occurred] }) := by
  have advances := Action.apply_ok applied
  have found : rowAt tables prior.jobId owner = some (rowOfJob prior) :=
    rowAt_of_get? live.stored owned
  have inTable : (rowOfJob updated).jobId = prior.jobId := advances.jobId
  have written : setRow tables (rowOfJob updated) =
      .ok { tables with jobs := tables.jobs.set prior.jobId (rowOfJob updated) } := by
    rw [setRow, if_pos (allowed_rowOfJob updated), inTable]
  obtain ⟨last, -, required⟩ := live.requireLog (tables.jobs.set prior.jobId (rowOfJob updated))
  have unused : ¬((∃ other ∈ tables.events,
      other.eventId = updated.jobId.uuid5
        (InMemoryAgentJobRepository.eventName (events.length + 1)) ∨
      other.jobId = updated.jobId ∧ other.sequence = events.length + 1) ∨
      (tables.jobs.set prior.jobId (rowOfJob updated)).get? updated.jobId = none ∨
      events.length + 1 < 1) := by
    rw [advances.jobId, Dict.get?_set_self]
    rintro (⟨other, member, same | ⟨mine, sequence⟩⟩ | absent | small)
    · exact fresh other member same
    · have logged : other ∈ events.map rowOfEvent := by
        rw [← live.rows, List.mem_filter]
        exact ⟨member, decide_eq_true mine⟩
      obtain ⟨event, hevent, rfl⟩ := List.mem_map.mp logged
      have inRange : event.sequence ∈ List.range' 1 events.length := by
        rw [← live.log.numbered]
        exact List.mem_map.mpr ⟨event, hevent, rfl⟩
      have := (List.mem_range'_1.mp inRange).2
      have : event.sequence = events.length + 1 := sequence
      omega
    · cases absent
    · omega
  have appended : append { tables with jobs := tables.jobs.set prior.jobId (rowOfJob updated) }
      updated kind payload (events.length + 1) (later t last.occurredAt) = .ok {
        jobs := tables.jobs.set prior.jobId (rowOfJob updated)
        events := tables.events ++ [appendedRow updated kind payload (events.length + 1)
          (later t last.occurredAt)] } := by
    unfold append
    exact if_neg unused
  refine ⟨later t last.occurredAt, ?_⟩
  simp only [transition, found, jobOfRow_rowOfJob prior live.cited, orUnavailable, ok_bind]
  rw [reject_of_not (not_not.mpr utc), ok_bind, applied, ok_bind]
  simp only [advances.row, written, ok_bind, required, List.length_map, rowOfEvent, appended]
  rfl

/-- Completing a job of the SQL store is durable exactly when its answer carries
no marker: a marked answer is committed, but its log can no longer be read. -/
theorem durable_iff {tables : AgentJobTables} {now : Except Raised DateTime} {job : AgentJob}
    {events : List AgentJobEvent} {owner : Option UUID} (invariant : TablesInvariant tables)
    (running : job.status = .running) (ready : Ready tables now job events owner)
    (result : SeriesAgentResult)
    (cited : ∀ c ∈ result.citations, c.episode ∈ job.candidateEpisodes) :
    Durable tables now job events.length result owner ↔ result.Unmarked := by
  have live := live_of_get invariant running ready.stored ready.logged
  have execution := job.execution_fields
  rw [running] at execution
  obtain ⟨⟨started, hstarted⟩, -⟩ := execution
  obtain ⟨t, rfl, utc, late⟩ := ready.reading
  obtain ⟨updated, completed⟩ := job.complete_isOk result running hstarted utc
    (late started (by simp [timestamps, hstarted]))
  obtain ⟨-, fields⟩ := AgentJob.complete_ok completed running
  have own : updated.jobId = job.jobId := by rw [fields]
  have terminal : updated.status.terminal = true := by
    rw [fields]
    cases result.isSafeRefusal <;> rfl
  have kind : (if updated.status = .safeRefusal then AgentJobEventKind.safeRefusal
      else .succeeded) = updated.status.eventKind := by
    rw [fields]
    cases result.isSafeRefusal <;> rfl
  have applied : Action.apply (.complete result) job t =
      .ok (some (updated, updated.status.eventKind, resultEventPayload result)) := by
    simp only [Action.apply, running, ne_eq, not_true, if_false, completed, ok_bind, kind]
    rfl
  have citedUpdated : Cited updated := by
    intro r hr c hc
    have same : updated.result = some result := by rw [fields]
    rw [same] at hr
    cases hr
    have candidates : updated.candidateEpisodes = job.candidateEpisodes := by rw [fields]
    rw [candidates]
    exact cited c hc
  obtain ⟨occurred, committed⟩ := transition_eq live ready.owner utc applied ready.fresh
  obtain ⟨row, hrow⟩ : ∃ row, row = appendedRow updated updated.status.eventKind
      (resultEventPayload result) (events.length + 1) occurred := ⟨_, rfl⟩
  rw [← hrow] at committed
  let tables' : AgentJobTables := {
    jobs := tables.jobs.set job.jobId (rowOfJob updated)
    events := tables.events ++ [row] }
  have stored : tables'.jobs.get? job.jobId = some (rowOfJob updated) := Dict.get?_set_self _ _ _
  have mine : row.jobId = job.jobId := by rw [hrow]; exact own
  have sequence : row.sequence = events.length + 1 := by rw [hrow]; rfl
  have filtered : tables'.events.filter (·.jobId = job.jobId) =
      events.map rowOfEvent ++ [row] := by
    simp only [tables', List.filter_append, live.rows, List.filter_cons, mine, decide_true,
      if_true, List.filter_nil]
  have numbered : (events.map rowOfEvent ++ [row]).map (·.sequence) =
      List.range' 1 (events.map rowOfEvent ++ [row]).length := by
    have earlier : (events.map rowOfEvent).map (·.sequence) = List.range' 1 events.length := by
      rw [List.map_map]
      exact live.log.numbered
    rw [List.map_append, earlier]
    simp [sequence, List.range'_concat, Nat.add_comm]
  have replay := listEventsAfter_zero stored filtered numbered
  rw [List.mapM_append, mapM_eventOfRow, ok_bind] at replay
  have kindRead : enumOf AgentJobEventKind.members AgentJobEventKind.value (.str row.kind) =
      .ok updated.status.eventKind := by
    rw [hrow]
    exact enumOf_eventKind _
  constructor
  · rintro ⟨updated', tables'', returned, -, -, items, replayed, -⟩
    rw [completeWithEvent, committed] at returned
    cases returned
    by_contra marked
    have refused : forbiddenItems (resultEventPayload result) = true := by
      rw [← Bool.not_eq_false, forbiddenItems_resultEventPayload]
      exact marked
    obtain ⟨e, unreadable⟩ : ∃ e, eventOfRow row = .error e := by
      simp only [eventOfRow, kindRead, ok_bind]
      rw [hrow]
      apply AgentJobEvent.make_eq_error
      intro valid
      have clean := (AgentJobEventFields.check_eq_ok.mp valid).2.2.2
      rw [refused] at clean
      cases clean
    rw [List.mapM_cons, unreadable] at replay
    rw [replay] at replayed
    cases orUnavailable_ok replayed
  · intro unmarked
    obtain ⟨event, readable, hkind, -, hsequence, -⟩ := appendedRow_readable updated
      updated.status.eventKind occurred (Nat.le_add_left 1 events.length)
      (finiteItems_resultEventPayload result)
      ((forbiddenItems_resultEventPayload result).mpr unmarked)
    rw [← hrow] at readable
    have read : eventOfRow row = .ok event := by
      rw [readable]
      exact eventOfRow_rowOfEvent event
    refine ⟨updated, tables', committed, by rw [fields], ?_, events ++ [event], ?_, terminal, ?_,
      ?_⟩
    · rw [get, rowAt_of_get? stored (fun _ member => by cases member)]
      simp only [jobOfRow_rowOfJob updated citedUpdated]
      rfl
    · rw [replay, List.mapM_cons, read]
      rfl
    · rw [List.map_append, live.log.numbered]
      simp [hsequence, List.range'_concat, Nat.add_comm]
    · simp [hkind]

end SqlAlchemyAgentJobRepository

/-- The completion of a running job with a result that cites its candidates is
durable and replayable in either store if and only if no forbidden marker occurs
in the case-folded answer. -/
theorem completion_durable_iff (job : AgentJob) (result : SeriesAgentResult)
    (running : job.status = .running)
    (cited : ∀ c ∈ result.citations, c.episode ∈ job.candidateEpisodes) :
    (∀ clock calls events owner,
      InMemoryAgentJobRepository.Ready clock (RepositoryCall.after clock calls) job events owner →
      (InMemoryAgentJobRepository.Durable clock (RepositoryCall.after clock calls) job
        events.length result owner ↔ result.Unmarked)) ∧
    (∀ tables now events owner, SqlAlchemyAgentJobRepository.Reachable tables →
      SqlAlchemyAgentJobRepository.Ready tables now job events owner →
      (SqlAlchemyAgentJobRepository.Durable tables now job events.length result owner ↔
        result.Unmarked)) := by
  constructor
  · intro clock calls events owner ready
    exact InMemoryAgentJobRepository.durable_iff (StoreInvariant.after clock calls) running ready
      result
  · intro tables now events owner reachable ready
    exact SqlAlchemyAgentJobRepository.durable_iff reachable.invariant running ready result cited

end Durability

section Sample

attribute [local instance] Normalization.ascii

/-- The same result with an answer that quotes a log line. -/
def markedResult : SeriesAgentResult where
  answer := some "The captain read: Exception: hull breach."
  isSafeRefusal := false
  citations := [sampleCitation]
  valid := by decide +kernel

/-- The job is created and claimed; it is running afterwards. -/
def sampleCalls : List RepositoryCall := [.create sampleJob, .claimWithEvent ⟨1⟩ none]

def runningJob : AgentJob where
  toAgentJobFields := { sampleJob.toAgentJobFields with
    status := .running, startedAt := some ⟨.utc, 5⟩ }
  valid := by decide +kernel

/-- Its log in either store. -/
def sampleEvents : List AgentJobEvent :=
  [⟨⟨(⟨1⟩ : UUID).uuid5 "agent-job-event:1", 1, ⟨1⟩, .queued, ⟨.utc, 5⟩,
      [("status", .str "queued")]⟩, by decide +kernel⟩,
    ⟨⟨(⟨1⟩ : UUID).uuid5 "agent-job-event:2", 2, ⟨1⟩, .running, ⟨.utc, 5⟩,
      [("status", .str "running")]⟩, by decide +kernel⟩]

theorem sample_ready_inMemory : InMemoryAgentJobRepository.Ready sampleClock
    (RepositoryCall.after sampleClock sampleCalls) runningJob sampleEvents none where
  stored := by decide +kernel
  logged := by decide +kernel
  owner := by simp
  readings := fun _ _ => ⟨⟨.utc, 5⟩, rfl, rfl, by decide +kernel⟩
  fresh := by decide +kernel

/-- The tables after the same two calls. -/
def sampleRow : AgentJobRow := SqlAlchemyAgentJobRepository.rowOfJob sampleJob

def createdTables : AgentJobTables where
  jobs := Dict.empty.set ⟨1⟩ sampleRow
  events := (sampleEvents.take 1).map SqlAlchemyAgentJobRepository.rowOfEvent

def claimedTables : AgentJobTables where
  jobs := Dict.empty.set ⟨1⟩ (SqlAlchemyAgentJobRepository.rowOfJob runningJob)
  events := sampleEvents.map SqlAlchemyAgentJobRepository.rowOfEvent

theorem sample_reachable : SqlAlchemyAgentJobRepository.Reachable claimedTables := by
  have created : SqlAlchemyAgentJobRepository.create ⟨.empty, []⟩ sampleJob =
      .ok ((sampleJob, true), createdTables) := by decide +kernel
  have claimed : SqlAlchemyAgentJobRepository.transition createdTables (.ok ⟨.utc, 5⟩) ⟨1⟩ none
      .claim = .ok (some runningJob, claimedTables) := by decide +kernel
  exact .transition (.create .empty created) claimed

example : claimedTables.events.length = sampleEvents.length := by decide +kernel

theorem sample_ready_sql : SqlAlchemyAgentJobRepository.Ready claimedTables (.ok ⟨.utc, 5⟩)
    runningJob sampleEvents none where
  stored := by decide +kernel
  logged := by decide +kernel
  owner := by simp
  reading := ⟨⟨.utc, 5⟩, rfl, rfl, by decide +kernel⟩
  fresh := by decide +kernel

example : markedResult.answer.any markedText = true := by decide +kernel

/-- The condition is met on a plain answer, and both stores replay the log. -/
theorem completion_durable_iff_plain :
    InMemoryAgentJobRepository.Durable sampleClock (RepositoryCall.after sampleClock sampleCalls)
      runningJob sampleEvents.length plainResult none ∧
    SqlAlchemyAgentJobRepository.Durable claimedTables (.ok ⟨.utc, 5⟩) runningJob
      sampleEvents.length plainResult none := by
  have unmarked : plainResult.Unmarked := by
    intro answer h
    cases h
    decide +kernel
  obtain ⟨memory, sql⟩ := completion_durable_iff runningJob plainResult rfl (by decide +kernel)
  exact ⟨(memory _ _ _ _ sample_ready_inMemory).mpr unmarked,
    (sql _ _ _ _ sample_reachable sample_ready_sql).mpr unmarked⟩

/-- An answer that quotes an exception is accepted as a result, but neither
store completes the job durably with it. -/
theorem marked_completion_not_durable :
    (InMemoryAgentJobRepository.Ready sampleClock (RepositoryCall.after sampleClock sampleCalls)
      runningJob sampleEvents none ∧
    ¬InMemoryAgentJobRepository.Durable sampleClock (RepositoryCall.after sampleClock sampleCalls)
      runningJob sampleEvents.length markedResult none) ∧
    (SqlAlchemyAgentJobRepository.Reachable claimedTables ∧
    SqlAlchemyAgentJobRepository.Ready claimedTables (.ok ⟨.utc, 5⟩) runningJob sampleEvents none ∧
    ¬SqlAlchemyAgentJobRepository.Durable claimedTables (.ok ⟨.utc, 5⟩) runningJob
      sampleEvents.length markedResult none) := by
  have marked : ¬markedResult.Unmarked := by
    intro unmarked
    have clean := unmarked _ rfl
    revert clean
    decide +kernel
  have cited : ∀ c ∈ markedResult.citations, c.episode ∈ runningJob.candidateEpisodes := by
    decide +kernel
  refine ⟨⟨sample_ready_inMemory, fun durable => marked ?_⟩, sample_reachable, sample_ready_sql,
    fun durable => marked ?_⟩
  · exact (InMemoryAgentJobRepository.durable_iff (StoreInvariant.after _ _) rfl
      sample_ready_inMemory markedResult).mp durable
  · exact (SqlAlchemyAgentJobRepository.durable_iff sample_reachable.invariant rfl
      sample_ready_sql markedResult cited).mp durable

end Sample

end Cinegraph
