import Cinegraph.AgentJobs.InMemory

/-!
What holds of the in-memory repository in every reachable state: each job has a
numbered log that runs through the lifecycle up to the job's status, the index
is a bijection, and a method that raises has undone all of its writes.
-/

namespace Cinegraph

open Library AgentJobErrorMessages

variable [Normalization]

/-- The pairs of kinds that may stand next to each other in a log. -/
inductive Follows : AgentJobEventKind → AgentJobEventKind → Prop where
  | claimed : Follows .queued .running
  | rejected : Follows .queued .failed
  | recovered : Follows .running .queued
  | finished {kind} (h : kind.terminal = true) : Follows .running kind

omit [Normalization] in
theorem Follows.not_terminal {kind next : AgentJobEventKind} (h : Follows kind next) :
    kind.terminal = false := by
  cases h <;> rfl

structure Lifecycle (kinds : List AgentJobEventKind) : Prop where
  first : kinds.head? = some .queued
  steps : kinds.IsChain Follows

/-- The log of one job: numbered from 1, times in order, a run of the lifecycle
that ends in the job's status. -/
structure LogInvariant (job : AgentJob) (events : List AgentJobEvent) : Prop where
  own : ∀ event ∈ events, event.jobId = job.jobId
  numbered : events.map (·.sequence) = List.range' 1 events.length
  ordered : (events.map (·.occurredAt)).IsChain (· ≤ ·)
  lifecycle : Lifecycle (events.map (·.kind))
  last : (events.map (·.kind)).getLast? = some job.status.eventKind

structure StoreInvariant (s : AgentJobStore) : Prop where
  identified : ∀ id job, s.jobs.get? id = some job → job.jobId = id
  logged : ∀ id job, s.jobs.get? id = some job →
    ∃ events, s.events.get? id = some events ∧ LogInvariant job events
  indexed : ∀ id job, s.jobs.get? id = some job → s.keys.get? job.key = some id
  keyed : ∀ key id, s.keys.get? key = some id →
    ∃ job, s.jobs.get? id = some job ∧ job.key = key
  unlogged : ∀ id, s.jobs.get? id = none → s.events.get? id = none

namespace InMemoryAgentJobRepository

/-- What a successful append of `kind` to the log of `job` has checked. -/
structure Appended (job : AgentJob) (events : List AgentJobEvent) (jobId : UUID)
    (kind : AgentJobEventKind) (payload : JsonPayload) (event : AgentJobEvent) : Prop where
  status : kind = job.status.eventKind
  kind : event.kind = kind
  jobId : event.jobId = jobId
  sequence : event.sequence = events.length + 1
  time : ∀ last ∈ events.getLast?, last.occurredAt ≤ event.occurredAt
  payload : event.payload = payload

/-- An append either raises and leaves the store alone, or adds one event. -/
theorem appendLocked_post (clock : Clock) {w : AgentJobWorld} {jobId : UUID} {job : AgentJob}
    {events : List AgentJobEvent} (hjob : w.store.jobs.get? jobId = some job)
    (hevents : w.store.events.get? jobId = some events) (kind : AgentJobEventKind)
    (payload : JsonPayload) :
    Exec.Post (appendLocked clock jobId kind payload)
      (fun event t => Appended job events jobId kind payload event ∧
        t.store = { w.store with events := w.store.events.set jobId (events ++ [event]) })
      (fun _ t => t.store = w.store) w := by
  simp only [appendLocked, jobAt, eventsAt, store, Exec.post_bind, Exec.post_get, Exec.post_pure,
    hjob, hevents, Exec.post_require, Exec.post_ite, Exec.post_throw, Option.some.injEq,
    forall_eq', reduceCtorEq, and_true, implies_true, true_and]
  intro hkind _
  refine post_now.mpr ⟨fun time _ => ?_, fun _ _ => rfl⟩
  rw [Exec.post_lift]
  refine ⟨fun event made => ?_, fun _ _ => rfl⟩
  have fields := AgentJobEvent.make_ok made
  have own : event.jobId = jobId := by rw [fields]
  simp only [appendEventLocked, eventsAt, store, own, Exec.post_bind, Exec.post_get,
    Exec.post_pure, hjob, hevents, Exec.post_require, Exec.post_ite, Exec.post_throw,
    Exec.post_modify, Option.some.injEq, forall_eq', reduceCtorEq, and_true,
    implies_true, true_and]
  intro _ _ _ late
  refine ⟨⟨not_not.mp hkind, by rw [fields], own, by rw [fields], ?_, by rw [fields]⟩, rfl⟩
  intro last member
  exact DateTime.not_lt.mp fun earlier => late ⟨last, member, earlier⟩

end InMemoryAgentJobRepository

open InMemoryAgentJobRepository

omit [Normalization] in
theorem Lifecycle.append {kinds : List AgentJobEventKind} {last kind : AgentJobEventKind}
    (h : Lifecycle kinds) (hlast : kinds.getLast? = some last) (next : Follows last kind) :
    Lifecycle (kinds ++ [kind]) := by
  constructor
  · rw [List.head?_append, h.first]
    rfl
  · rw [List.isChain_append]
    refine ⟨h.steps, List.isChain_singleton _, ?_⟩
    intro a ha b hb
    rw [hlast] at ha
    cases ha
    cases hb
    exact next

/-- Replacing a job and appending the event of its new status keeps its log in order. -/
theorem LogInvariant.append {prior updated : AgentJob} {events : List AgentJobEvent}
    {kind : AgentJobEventKind} {payload : JsonPayload} {event : AgentJobEvent}
    (h : LogInvariant prior events)
    (appended : Appended updated events prior.jobId kind payload event)
    (same : updated.jobId = prior.jobId)
    (next : Follows prior.status.eventKind updated.status.eventKind) :
    LogInvariant updated (events ++ [event]) := by
  constructor
  · intro item member
    rw [same]
    rcases List.mem_append.mp member with old | new
    · exact h.own item old
    · rw [List.mem_singleton.mp new]
      exact appended.jobId
  · rw [List.map_append, h.numbered, List.length_append]
    simp [appended.sequence, List.range'_concat, Nat.add_comm]
  · rw [List.map_append, List.isChain_append]
    refine ⟨h.ordered, List.isChain_singleton _, ?_⟩
    intro a ha b hb
    rw [List.getLast?_map] at ha
    obtain ⟨last, hlast, rfl⟩ := Option.mem_map.mp ha
    cases hb
    exact appended.time last hlast
  · rw [List.map_append]
    refine h.lifecycle.append h.last ?_
    change Follows _ event.kind
    rw [appended.kind, appended.status]
    exact next
  · simp [appended.kind, appended.status]

/-- A job with a fresh identifier and key may be added with its first event. -/
theorem StoreInvariant.insert {s : AgentJobStore} (h : StoreInvariant s) {job : AgentJob}
    {payload : JsonPayload} {event : AgentJobEvent} (unstored : s.jobs.get? job.jobId = none)
    (fresh : s.keys.get? job.key = none)
    (appended : Appended job [] job.jobId .queued payload event) :
    StoreInvariant {
      jobs := s.jobs.set job.jobId job
      keys := s.keys.set job.key job.jobId
      events := (s.events.set job.jobId []).set job.jobId [event] } := by
  have newKey (id : UUID) (other : AgentJob) (hother : s.jobs.get? id = some other) :
      other.key ≠ job.key := by
    intro same
    have := h.indexed id other hother
    rw [same, fresh] at this
    cases this
  constructor
  · intro id other hother
    rw [Dict.get?_set] at hother
    split at hother
    · cases hother
      exact Eq.symm ‹_›
    · exact h.identified id other hother
  · intro id other hother
    rw [Dict.get?_set] at hother
    rw [Dict.set_set, Dict.get?_set]
    split at hother
    · cases hother
      refine ⟨[event], if_pos ‹_›, ?_, ?_, ?_, ?_, ?_⟩
      · simp [appended.jobId]
      · simp [appended.sequence]
      · simp
      · exact ⟨by simp [appended.kind], by simp⟩
      · simp [appended.kind, ← appended.status]
    · rw [if_neg ‹_›]
      exact h.logged id other hother
  · intro id other hother
    rw [Dict.get?_set] at hother
    split at hother
    · cases hother
      rw [Dict.get?_set_self]
      exact congrArg some (Eq.symm ‹_›)
    · rw [Dict.get?_set_of_ne _ _ (newKey id other hother)]
      exact h.indexed id other hother
  · intro key id hkey
    rw [Dict.get?_set] at hkey
    split at hkey
    · cases hkey
      exact ⟨job, Dict.get?_set_self _ _ _, Eq.symm ‹_›⟩
    · obtain ⟨other, hother, same⟩ := h.keyed key id hkey
      refine ⟨other, ?_, same⟩
      rw [Dict.get?_set_of_ne]
      · exact hother
      · intro hid
        rw [hid, unstored] at hother
        cases hother
  · intro id hid
    rw [Dict.get?_set] at hid
    split at hid
    · cases hid
    · rw [Dict.set_set, Dict.get?_set_of_ne _ _ ‹_›]
      exact h.unlogged id hid

/-- A stored job and its log may be replaced by any pair that fits together. -/
theorem StoreInvariant.replace {s : AgentJobStore} (h : StoreInvariant s) {id : UUID}
    {prior updated : AgentJob} {events : List AgentJobEvent}
    (stored : s.jobs.get? id = some prior) (sameId : updated.jobId = prior.jobId)
    (sameKey : updated.key = prior.key) (log : LogInvariant updated events) :
    StoreInvariant { s with
      jobs := s.jobs.set id updated, events := s.events.set id events } := by
  constructor
  · intro id' job hjob
    by_cases hid : id' = id
    · subst hid
      rw [Dict.get?_set_self] at hjob
      cases hjob
      rw [sameId]
      exact h.identified _ _ stored
    · rw [Dict.get?_set_of_ne _ _ hid] at hjob
      exact h.identified id' job hjob
  · intro id' job hjob
    by_cases hid : id' = id
    · subst hid
      rw [Dict.get?_set_self] at hjob
      cases hjob
      exact ⟨events, Dict.get?_set_self _ _ _, log⟩
    · rw [Dict.get?_set_of_ne _ _ hid] at hjob
      rw [Dict.get?_set_of_ne _ _ hid]
      exact h.logged id' job hjob
  · intro id' job hjob
    by_cases hid : id' = id
    · subst hid
      rw [Dict.get?_set_self] at hjob
      cases hjob
      rw [sameKey]
      exact h.indexed _ _ stored
    · rw [Dict.get?_set_of_ne _ _ hid] at hjob
      exact h.indexed id' job hjob
  · intro key id' hkey
    obtain ⟨job, hjob, rfl⟩ := h.keyed key id' hkey
    by_cases hid : id' = id
    · subst hid
      rw [stored] at hjob
      cases hjob
      exact ⟨updated, Dict.get?_set_self _ _ _, sameKey⟩
    · exact ⟨job, by rwa [Dict.get?_set_of_ne _ _ hid], rfl⟩
  · intro id' hid'
    by_cases hid : id' = id
    · subst hid
      rw [Dict.get?_set_self] at hid'
      cases hid'
    · rw [Dict.get?_set_of_ne _ _ hid] at hid' ⊢
      exact h.unlogged id' hid'

namespace InMemoryAgentJobRepository

/-- Replace a job and append the event of its new status, in one step. -/
theorem StoreInvariant.advance {s : AgentJobStore} (h : StoreInvariant s) {id : UUID}
    {prior updated : AgentJob} {events : List AgentJobEvent} {kind : AgentJobEventKind}
    {payload : JsonPayload} {event : AgentJobEvent}
    (stored : s.jobs.get? id = some prior) (logged : s.events.get? id = some events)
    (sameId : updated.jobId = prior.jobId) (sameKey : updated.key = prior.key)
    (next : Follows prior.status.eventKind updated.status.eventKind)
    (appended : Appended updated events id kind payload event) :
    StoreInvariant { s with
      jobs := s.jobs.set id updated, events := s.events.set id (events ++ [event]) } := by
  obtain ⟨events', hevents, log⟩ := h.logged id prior stored
  rw [logged] at hevents
  cases hevents
  have own := h.identified id prior stored
  subst own
  exact h.replace stored sameId sameKey (log.append appended sameId next)

/-- One stored job has gone from a status to the next; the others are as they were. -/
structure Moved (s t : AgentJobStore) (id : UUID) (prior next : AgentJobStatus) : Prop where
  before : ∃ job, s.jobs.get? id = some job ∧ job.status = prior
  after : ∃ job, t.jobs.get? id = some job ∧ job.status = next
  others : ∀ other, other ≠ id → t.jobs.get? other = s.jobs.get? other

/-- The effect of a guarded transition that returned: nothing, or one move. -/
def MovedOr (w t : AgentJobWorld) (id : UUID) (prior next : AgentJobStatus)
    (returned : Option AgentJob) : Prop :=
  returned = none ∧ t.store = w.store ∨
    returned.isSome ∧ StoreInvariant t.store ∧ Moved w.store t.store id prior next

/-- Replacing a job and appending its event: on success the store has advanced by
one event, on failure it is the store before the call. -/
theorem transition_post (clock : Clock) {w : AgentJobWorld} (h : StoreInvariant w.store)
    {id : UUID} {prior : AgentJob} (stored : w.store.jobs.get? id = some prior)
    {next : AgentJobStatus} (update : DateTime → Except Raised AgentJob)
    (event : AgentJob → AgentJobEventKind × JsonPayload)
    (follows : Follows prior.status.eventKind next.eventKind)
    (sound : ∀ t updated, update t = .ok updated → updated.jobId = prior.jobId ∧
      updated.key = prior.key ∧ updated.status = next) :
    Exec.Post (transition clock id prior update event)
      (fun returned t => MovedOr w t id prior.status next returned)
      (fun _ t => t.store = w.store) w := by
  obtain ⟨events, logged, -⟩ := h.logged id prior stored
  simp only [transition, Exec.post_bind]
  refine post_now.mpr ⟨fun time _ => ?_, fun _ _ => rfl⟩
  rw [Exec.post_lift]
  refine ⟨fun updated hupdate => ?_, fun _ _ => rfl⟩
  obtain ⟨sameId, sameKey, status⟩ := sound time updated hupdate
  simp only [Exec.post_modify, Exec.post_rollback, Exec.post_pure]
  have written : (setJob id updated { w with readings := w.readings + 1 }).store.jobs.get? id =
      some updated := Dict.get?_set_self _ _ _
  refine (appendLocked_post clock written logged _ _).mono ?_ ?_
  · rintro appendedEvent t ⟨appended, ht⟩
    refine Or.inr ⟨rfl, ?_, ?_⟩
    · rw [ht]
      exact StoreInvariant.advance h stored logged sameId sameKey (status ▸ follows) appended
    · rw [ht]
      exact ⟨⟨prior, stored, rfl⟩, ⟨updated, written, status⟩,
        fun other different => Dict.get?_set_of_ne _ _ different⟩
  · intro _ t ht
    simp only [setJob, ht, Dict.set_set, Dict.set_of_get? stored]

theorem find_some {s : AgentJobStore} {id : UUID} {owner : Option UUID} {job : AgentJob}
    (h : find s id owner = some job) : s.jobs.get? id = some job := by
  unfold find at h
  cases hget : s.jobs.get? id with
  | none => simp [hget] at h
  | some stored =>
      simp only [hget, Option.bind_eq_bind, Option.bind_some] at h
      split at h
      · cases h
      · exact h

/-- What every method of the repository promises about the store. -/
def Preserves {α : Type} (p : Repository α) : Prop :=
  ∀ w : AgentJobWorld, StoreInvariant w.store →
    Exec.Post p (fun _ t => StoreInvariant t.store) (fun _ t => t.store = w.store) w

theorem Preserves.of_moved {p : Repository (Option AgentJob)} {id : UUID}
    {prior next : AgentJobStatus}
    (moves : ∀ w : AgentJobWorld, StoreInvariant w.store →
      Exec.Post p (fun returned t => MovedOr w t id prior next returned)
        (fun _ t => t.store = w.store) w) : Preserves p := by
  intro w h
  refine (moves w h).mono ?_ fun _ _ same => same
  rintro _ t (⟨-, same⟩ | ⟨-, invariant, -⟩)
  · rw [same]
    exact h
  · exact invariant

theorem claimWithEvent_post (clock : Clock) (id : UUID) (owner : Option UUID)
    (w : AgentJobWorld) (h : StoreInvariant w.store) :
    Exec.Post (claimWithEvent clock id owner)
      (fun returned t => MovedOr w t id .queued .running returned)
      (fun _ t => t.store = w.store) w := by
  simp only [claimWithEvent, store, Exec.post_bind, Exec.post_get, Exec.post_pure]
  cases hfind : find w.store id owner with
  | none => exact Or.inl ⟨rfl, rfl⟩
  | some job =>
      simp only [Exec.post_ite, Exec.post_pure, Exec.post_bind, Exec.post_throw]
      refine ⟨fun _ => Or.inl ⟨rfl, rfl⟩, fun running => ⟨fun _ => trivial, fun terminal => ?_⟩⟩
      have queued : job.status = .queued := by
        cases hs : job.status <;> simp_all [AgentJobStatus.terminal]
      rw [← queued]
      refine transition_post clock h (find_some hfind) _ _ (queued ▸ .claimed)
        fun t updated hupdate => ?_
      obtain ⟨-, fields⟩ := AgentJob.start_ok hupdate queued
      exact ⟨by rw [fields], by rw [AgentJob.key, fields]; rfl, by rw [fields]⟩

theorem completeWithEvent_post (clock : Clock) (id : UUID) (result : SeriesAgentResult)
    (owner : Option UUID) (w : AgentJobWorld) (h : StoreInvariant w.store) :
    Exec.Post (completeWithEvent clock id result owner)
      (fun returned t => MovedOr w t id .running
        (if result.isSafeRefusal then .safeRefusal else .succeeded) returned)
      (fun _ t => t.store = w.store) w := by
  simp only [completeWithEvent, store, Exec.post_bind, Exec.post_get, Exec.post_pure]
  cases hfind : find w.store id owner with
  | none => exact Or.inl ⟨rfl, rfl⟩
  | some job =>
      simp only [Exec.post_ite, Exec.post_bind, Exec.post_throw]
      refine ⟨fun _ => trivial, fun notNot => ?_⟩
      have running : job.status = .running := not_not.mp notNot
      rw [← running]
      refine transition_post clock h (find_some hfind) _ _ ?_ fun t updated hupdate => ?_
      · rw [running]
        apply Follows.finished
        cases result.isSafeRefusal <;> rfl
      · obtain ⟨-, fields⟩ := AgentJob.complete_ok hupdate running
        exact ⟨by rw [fields], by rw [AgentJob.key, fields]; rfl, by rw [fields]⟩

theorem failWithEvent_post (clock : Clock) (id : UUID) (errorCode : String)
    (owner : Option UUID) (w : AgentJobWorld) (h : StoreInvariant w.store) :
    Exec.Post (failWithEvent clock id errorCode owner)
      (fun returned t => MovedOr w t id .running .failed returned)
      (fun _ t => t.store = w.store) w := by
  simp only [failWithEvent, store, Exec.post_bind, Exec.post_get, Exec.post_pure]
  cases hfind : find w.store id owner with
  | none => exact Or.inl ⟨rfl, rfl⟩
  | some job =>
      simp only [Exec.post_ite, Exec.post_bind, Exec.post_throw]
      refine ⟨fun _ => trivial, fun notNot => ?_⟩
      have running : job.status = .running := not_not.mp notNot
      rw [← running]
      refine transition_post clock h (find_some hfind) _ _ (running ▸ .finished rfl)
        fun t updated hupdate => ?_
      obtain ⟨-, fields⟩ := AgentJob.fail_ok hupdate running
      exact ⟨by rw [fields], by rw [AgentJob.key, fields]; rfl, by rw [fields]⟩

theorem rejectWithEvent_post (clock : Clock) (id : UUID) (errorCode : String)
    (owner : Option UUID) (w : AgentJobWorld) (h : StoreInvariant w.store) :
    Exec.Post (rejectWithEvent clock id errorCode owner)
      (fun returned t => MovedOr w t id .queued .failed returned)
      (fun _ t => t.store = w.store) w := by
  simp only [rejectWithEvent, store, Exec.post_bind, Exec.post_get, Exec.post_pure]
  cases hfind : find w.store id owner with
  | none => exact Or.inl ⟨rfl, rfl⟩
  | some job =>
      simp only [Exec.post_ite, Exec.post_bind, Exec.post_throw]
      refine ⟨fun _ => trivial, fun notNot => ?_⟩
      have queued : job.status = .queued := not_not.mp notNot
      rw [← queued]
      refine transition_post clock h (find_some hfind) _ _ (queued ▸ .rejected)
        fun t updated hupdate => ?_
      obtain ⟨-, -, fields⟩ := AgentJob.reject_ok hupdate
      exact ⟨by rw [fields], by rw [AgentJob.key, fields]; rfl, by rw [fields]⟩

/-- The job is stored and waits to be claimed. -/
def Queued (s : AgentJobStore) (id : UUID) : Prop :=
  ∃ job, s.jobs.get? id = some job ∧ job.status = .queued

/-- A job whose identifier was free has been added. -/
structure Added (s t : AgentJobStore) (id : UUID) : Prop where
  before : s.jobs.get? id = none
  others : ∀ other, other ≠ id → t.jobs.get? other = s.jobs.get? other

theorem create_post (clock : Clock) (job : AgentJob) (w : AgentJobWorld)
    (h : StoreInvariant w.store) :
    Exec.Post (create clock job)
      (fun _ t => t.store = w.store ∨
        StoreInvariant t.store ∧ Added w.store t.store job.jobId ∧ Queued t.store job.jobId)
      (fun _ t => t.store = w.store) w := by
  simp only [create, store, Exec.post_bind, Exec.post_get, Exec.post_pure]
  cases hkey : w.store.keys.get? job.key with
  | some existingId =>
      simp only [jobAt, store, Exec.post_bind, Exec.post_get, Exec.post_pure, Exec.post_require,
        Exec.post_ite, Exec.post_throw]
      exact ⟨fun existing _ => ⟨fun _ => trivial, fun _ => Or.inl trivial⟩, fun _ => trivial⟩
  | none =>
      simp only [Exec.post_ite, Exec.post_bind, Exec.post_throw, Exec.post_modify,
        Exec.post_rollback, Exec.post_pure]
      refine ⟨fun _ => trivial, fun fresh => ?_⟩
      have unstored : w.store.jobs.get? job.jobId = none := by simpa using fresh
      have unlogged := h.unlogged _ unstored
      refine (appendLocked_post clock (Dict.get?_set_self _ _ job)
        (Dict.get?_set_self _ _ []) _ _).mono ?_ ?_
      · rintro event t ⟨appended, ht⟩
        rw [ht]
        have queued : job.status = .queued := by
          have status := appended.status
          cases hs : job.status <;> rw [hs] at status <;> first | rfl | cases status
        exact Or.inr ⟨h.insert unstored hkey appended,
          ⟨unstored, fun other different => Dict.get?_set_of_ne _ _ different⟩,
          job, Dict.get?_set_self _ _ _, queued⟩
      · intro _ t ht
        simp only [ht, setJob, setKey, setEvents, Dict.erase_set_of_get?_none _ unstored,
          Dict.erase_set_of_get?_none _ hkey, Dict.erase_set_of_get?_none _ unlogged]

theorem create_preserves (clock : Clock) (job : AgentJob) : Preserves (create clock job) := by
  intro w h
  refine (create_post clock job w h).mono ?_ fun _ _ same => same
  rintro _ t (same | ⟨invariant, -, -⟩)
  · rw [same]
    exact h
  · exact invariant

/-- How far the state of a requeue loop may be from the state it started in:
only jobs in `dirty` differ, and their logs only grew. -/
structure Within (prior : AgentJobStore) (dirty : List AgentJob) (s : AgentJobStore) : Prop where
  keys : s.keys = prior.keys
  jobKeys : s.jobs.keys = prior.jobs.keys
  eventKeys : s.events.keys = prior.events.keys
  clean : ∀ id, id ∉ dirty.map (·.jobId) →
    s.jobs.get? id = prior.jobs.get? id ∧ s.events.get? id = prior.events.get? id
  grown : ∀ job ∈ dirty, prior.jobs.get? job.jobId = some job ∧ ∃ log more,
    prior.events.get? job.jobId = some log ∧ s.events.get? job.jobId = some (log ++ more)

theorem Within.eq {prior s : AgentJobStore} (h : Within prior [] s) : s = prior := by
  have clean := fun id => h.clean id List.not_mem_nil
  have jobs := Dict.ext_get? h.jobKeys fun id => (clean id).1
  have events := Dict.ext_get? h.eventKeys fun id => (clean id).2
  have keys := h.keys
  cases s
  cases prior
  simp_all

theorem undoRequeue_store {prior : AgentJobStore} {dirty : List AgentJob} {w : AgentJobWorld}
    (h : Within prior dirty w.store) : (undoRequeue dirty prior w).store = prior := by
  induction dirty generalizing w with
  | nil => exact h.eq
  | cons job rest ih =>
      obtain ⟨hjob, log, more, hlog, hmore⟩ := h.grown job List.mem_cons_self
      have present : job.jobId ∈ w.store.jobs.keys := by
        rw [h.jobKeys]
        exact Dict.mem_keys_of_get? hjob
      obtain ⟨current, hcurrent⟩ := Dict.get?_of_mem_keys present
      simp only [undoRequeue, List.foldl_cons]
      refine ih ⟨?_, ?_, ?_, ?_, ?_⟩
      · exact h.keys
      · rw [← h.jobKeys]
        exact Dict.keys_set_of_get? _ hcurrent
      · rw [← h.eventKeys]
        exact Dict.keys_set_of_get? _ hmore
      · intro id hid
        simp only [setJob, setEvents, hlog, hmore, Option.getD_some, List.take_left,
          Dict.get?_set]
        by_cases same : id = job.jobId
        · subst same
          simp [hjob, hlog]
        · simp only [same, if_false]
          refine h.clean id ?_
          simp only [List.map_cons, List.mem_cons, not_or]
          exact ⟨same, hid⟩
      · intro other member
        obtain ⟨hother, log', more', hlog', hmore'⟩ :=
          h.grown other (List.mem_cons_of_mem _ member)
        refine ⟨hother, log', ?_⟩
        simp only [setJob, setEvents, hlog, hmore, Option.getD_some, List.take_left,
          Dict.get?_set]
        by_cases same : other.jobId = job.jobId
        · refine ⟨[], hlog', ?_⟩
          rw [same, hlog] at hlog'
          cases hlog'
          simp [same]
        · exact ⟨more', hlog', by simp [same, hmore']⟩

theorem Within.setJob {prior s : AgentJobStore} {dirty : List AgentJob}
    (h : Within prior dirty s) {job current : AgentJob} (member : job ∈ dirty)
    (stored : s.jobs.get? job.jobId = some current) (updated : AgentJob) :
    Within prior dirty { s with jobs := s.jobs.set job.jobId updated } := by
  refine ⟨h.keys, ?_, h.eventKeys, ?_, h.grown⟩
  · rw [← h.jobKeys]
    exact Dict.keys_set_of_get? _ stored
  · intro id hid
    refine ⟨?_, (h.clean id hid).2⟩
    rw [Dict.get?_set_of_ne]
    · exact (h.clean id hid).1
    · rintro rfl
      exact hid (List.mem_map.mpr ⟨job, member, rfl⟩)

theorem Within.setEvents {prior s : AgentJobStore} {dirty : List AgentJob}
    (h : Within prior dirty s) {job : AgentJob} (member : job ∈ dirty)
    {events : List AgentJobEvent} (logged : s.events.get? job.jobId = some events)
    (event : AgentJobEvent) :
    Within prior dirty { s with events := s.events.set job.jobId (events ++ [event]) } := by
  refine ⟨h.keys, h.jobKeys, ?_, ?_, ?_⟩
  · rw [← h.eventKeys]
    exact Dict.keys_set_of_get? _ logged
  · intro id hid
    refine ⟨(h.clean id hid).1, ?_⟩
    rw [Dict.get?_set_of_ne]
    · exact (h.clean id hid).2
    · rintro rfl
      exact hid (List.mem_map.mpr ⟨job, member, rfl⟩)
  · intro other hother
    obtain ⟨stored, log, more, hlog, hmore⟩ := h.grown other hother
    refine ⟨stored, log, ?_⟩
    by_cases same : other.jobId = job.jobId
    · rw [same] at hmore ⊢
      rw [logged] at hmore
      cases hmore
      exact ⟨more ++ [event], same ▸ hlog, by simp⟩
    · exact ⟨more, hlog, by rwa [Dict.get?_set_of_ne _ _ same]⟩

/-- The state of the requeue loop with the jobs of `rest` still to come. -/
structure Requeuing (prior : AgentJobStore) (running rest : List AgentJob)
    (s : AgentJobStore) : Prop where
  invariant : StoreInvariant s
  within : Within prior running s
  waiting : ∀ job ∈ rest, s.jobs.get? job.jobId = some job
  distinct : (rest.map (·.jobId)).Nodup
  dirty : rest ⊆ running

theorem requeueOne_post (clock : Clock) {prior : AgentJobStore} {running rest : List AgentJob}
    {job : AgentJob} {w : AgentJobWorld}
    (h : Requeuing prior running (job :: rest) w.store) :
    Exec.Post (requeueOne clock job)
      (fun _ t => Requeuing prior running rest t.store ∧ Queued t.store job.jobId ∧
        ∀ id, id ≠ job.jobId → t.store.jobs.get? id = w.store.jobs.get? id)
      (fun _ t => Within prior running t.store) w := by
  have stored := h.waiting job List.mem_cons_self
  have member : job ∈ running := h.dirty List.mem_cons_self
  obtain ⟨absent, distinct⟩ := List.nodup_cons.mp h.distinct
  obtain ⟨events, logged, -⟩ := h.invariant.logged _ job stored
  simp only [requeueOne, Exec.post_bind]
  refine post_now.mpr ⟨fun time _ => ?_, fun _ _ => h.within⟩
  rw [Exec.post_lift]
  refine ⟨fun updated hupdate => ?_, fun _ _ => h.within⟩
  obtain ⟨-, status, fields⟩ := AgentJob.requeueAfterInterruption_ok hupdate
  have inner := h.within.setJob member stored updated
  simp only [Exec.post_modify, Exec.post_pure]
  have written : (InMemoryAgentJobRepository.setJob job.jobId updated
      { w with readings := w.readings + 1 }).store.jobs.get? job.jobId = some updated :=
    Dict.get?_set_self _ _ _
  refine (appendLocked_post clock written logged _ _).mono ?_ ?_
  · rintro event t ⟨appended, ht⟩
    rw [ht]
    have queued : updated.status = .queued := by rw [fields]
    refine ⟨⟨?_, inner.setEvents member logged event, ?_, distinct, ?_⟩,
      ⟨updated, written, queued⟩, fun id different => Dict.get?_set_of_ne _ _ different⟩
    · refine StoreInvariant.advance h.invariant stored logged (by rw [fields])
        (by rw [AgentJob.key, fields]; rfl) ?_ appended
      rw [fields, status]
      exact .recovered
    · intro other hother
      have different : other.jobId ≠ job.jobId := by
        intro same
        exact absent (List.mem_map.mpr ⟨other, hother, same⟩)
      simp only [InMemoryAgentJobRepository.setJob]
      rw [Dict.get?_set_of_ne _ _ different]
      exact h.waiting other (List.mem_cons_of_mem _ hother)
    · exact fun other hother => h.dirty (List.mem_cons_of_mem _ hother)
  · intro _ t ht
    rw [ht]
    exact inner

theorem requeueLocked_post (clock : Clock) {running : List AgentJob} {w : AgentJobWorld}
    (h : StoreInvariant w.store)
    (stored : ∀ job ∈ running, w.store.jobs.get? job.jobId = some job)
    (distinct : (running.map (·.jobId)).Nodup) :
    Exec.Post (requeueLocked clock running)
      (fun _ t => StoreInvariant t.store ∧ Within w.store running t.store ∧
        ∀ job ∈ running, Queued t.store job.jobId)
      (fun _ t => t.store = w.store) w := by
  have reads : Exec.Post (running.mapM fun job => eventsAt job.jobId)
      (fun _ t => t = w) (fun _ t => t = w) w := by
    refine Exec.post_mapM (I := fun _ t => t = w) (fun job _ t ht => ?_) running w rfl
    simp only [eventsAt, store, Exec.post_bind, Exec.post_get, Exec.post_pure,
      Exec.post_require]
    exact ⟨fun _ _ => ht, fun _ => ht⟩
  simp only [requeueLocked, store, Exec.post_bind, Exec.post_get, Exec.post_pure,
    Exec.post_rollback]
  refine reads.mono ?_ fun _ t ht => by rw [ht]
  rintro _ t rfl
  have start : Requeuing t.store running running t.store := by
    refine ⟨h, ⟨rfl, rfl, rfl, fun _ _ => ⟨rfl, rfl⟩, fun job member => ?_⟩, stored, distinct,
      fun _ member => member⟩
    obtain ⟨events, logged, -⟩ := h.logged _ job (stored job member)
    exact ⟨stored job member, events, [], logged, by simpa using logged⟩
  refine (Exec.post_mapM (I := fun rest s => Requeuing t.store running rest s.store ∧
      ∀ job ∈ running, job ∈ rest ∨ Queued s.store job.jobId)
    (E := fun _ s => Within t.store running s.store)
    (fun job rest s hs => (requeueOne_post clock hs.1).mono ?_ fun _ _ same => same)
    running t ⟨start, fun _ member => .inl member⟩).mono ?_ ?_
  · rintro _ u ⟨turn, queued, frame⟩
    refine ⟨turn, fun other member => ?_⟩
    rcases hs.2 other member with waiting | ⟨current, current_stored, status⟩
    · rcases List.mem_cons.mp waiting with rfl | later
      · exact .inr queued
      · exact .inl later
    · right
      by_cases same : other.jobId = job.jobId
      · rw [same]
        exact queued
      · exact ⟨current, (frame _ same).trans current_stored, status⟩
  · rintro _ s ⟨hs, queued⟩
    refine ⟨hs.invariant, hs.within, fun job member => ?_⟩
    rcases queued job member with waiting | queued
    · cases waiting
    · exact queued
  · exact fun _ s hs => undoRequeue_store hs

theorem requeueLocked_length (clock : Clock) (running : List AgentJob) (w : AgentJobWorld) :
    Exec.Post (requeueLocked clock running)
      (fun requeued _ => requeued.length = running.length) (fun _ _ => True) w := by
  simp only [requeueLocked, store, Exec.post_bind, Exec.post_get, Exec.post_pure,
    Exec.post_rollback]
  exact (Exec.post_mapM_length _ _ w).mono
    (fun _ t _ => Exec.post_mapM_length _ running t) fun _ _ _ => trivial

/-- The jobs a scan collects are stored under their identifiers, each once. -/
theorem scanned_running {s : AgentJobStore} (h : StoreInvariant s) (p : AgentJob → Bool)
    (r : AgentJob → AgentJob → Prop) [DecidableRel r] (limit : Nat) :
    let running := (List.insertionSort r (s.jobs.values.filter p)).take limit
    (∀ job ∈ running, s.jobs.get? job.jobId = some job) ∧ (running.map (·.jobId)).Nodup := by
  have subset : ∀ job ∈ (List.insertionSort r (s.jobs.values.filter p)).take limit,
      job ∈ s.jobs.values := by
    intro job member
    have sorted := List.mem_of_mem_take member
    rw [(List.perm_insertionSort r _).mem_iff] at sorted
    exact List.mem_of_mem_filter sorted
  have ids : s.jobs.values.map (·.jobId) = s.jobs.keys := by
    have pointwise : ∀ entry ∈ s.jobs.entries, entry.2.jobId = entry.1 := by
      rintro ⟨id, job⟩ member
      exact h.identified id job ((s.jobs.mem_entries_iff id job).mp member)
    simp only [Dict.values, Dict.keys, List.map_map]
    exact List.map_congr_left pointwise
  constructor
  · intro job member
    obtain ⟨id, hid⟩ := (s.jobs.mem_values_iff job).mp (subset job member)
    rw [h.identified id job hid]
    exact hid
  · refine (((List.take_sublist _ _).map _).nodup ?_)
    rw [((List.perm_insertionSort r _).map _).nodup_iff]
    refine ((List.filter_sublist.map _).nodup ?_)
    rw [ids]
    exact s.jobs.nodup_keys

/-- A requeue that returns fewer jobs than its limit leaves no job running. -/
theorem requeueRunningWithEvent_post (clock : Clock) (limit : Int) (w : AgentJobWorld)
    (h : StoreInvariant w.store) :
    Exec.Post (requeueRunningWithEvent clock limit)
      (fun requeued t => StoreInvariant t.store ∧ (requeued.length < limit →
        ∀ id job, t.store.jobs.get? id = some job → job.status ≠ .running))
      (fun _ t => t.store = w.store) w := by
  simp only [requeueRunningWithEvent, store, Exec.post_bind, Exec.post_get, Exec.post_pure,
    Exec.post_lift]
  refine ⟨fun _ _ => ?_, fun _ _ => trivial⟩
  obtain ⟨running, hrunning⟩ : ∃ running, running = List.insertionSort
    (before (fun job => job.startedAt.getD job.createdAt))
    (w.store.jobs.values.filter (·.status = .running)) := ⟨_, rfl⟩
  obtain ⟨stored, distinct⟩ := scanned_running h (·.status = .running)
    (before (fun job => job.startedAt.getD job.createdAt)) limit.toNat
  rw [← hrunning] at stored distinct ⊢
  refine ((requeueLocked_post clock h stored distinct).and
    (requeueLocked_length clock (running.take limit.toNat) w)).mono ?_ fun _ _ same => same.1
  rintro requeued t ⟨⟨invariant, within, queued⟩, length⟩
  refine ⟨invariant, fun short id job present status => ?_⟩
  have all : running.take limit.toNat = running := by
    rw [List.length_take] at length
    exact List.take_of_length_le (by omega)
  rw [all] at queued within
  by_cases dirty : id ∈ running.map (·.jobId)
  · obtain ⟨other, member, rfl⟩ := List.mem_map.mp dirty
    obtain ⟨current, current_stored, now_queued⟩ := queued other member
    rw [present] at current_stored
    cases current_stored
    rw [status] at now_queued
    cases now_queued
  · rw [(within.clean id dirty).1] at present
    refine dirty (List.mem_map.mpr ⟨job, ?_, h.identified id job present⟩)
    rw [hrunning, (List.perm_insertionSort _ _).mem_iff, List.mem_filter]
    exact ⟨(Dict.mem_values_iff _ _).mpr ⟨id, present⟩, decide_eq_true status⟩

theorem requeueRunningWithEvent_preserves (clock : Clock) (limit : Int) :
    Preserves (requeueRunningWithEvent clock limit) := by
  intro w h
  exact (requeueRunningWithEvent_post clock limit w h).mono (fun _ _ done => done.1)
    fun _ _ same => same

theorem requeueRunningJobWithEvent_post (clock : Clock) (id : UUID) (w : AgentJobWorld)
    (h : StoreInvariant w.store) :
    Exec.Post (requeueRunningJobWithEvent clock id)
      (fun _ t => StoreInvariant t.store ∧
        (∀ other, other ≠ id → t.store.jobs.get? other = w.store.jobs.get? other) ∧
        ∀ job, t.store.jobs.get? id = some job → job.status ≠ .running)
      (fun _ t => t.store = w.store) w := by
  simp only [requeueRunningJobWithEvent, store, Exec.post_bind, Exec.post_get, Exec.post_pure]
  cases hjob : w.store.jobs.get? id with
  | none => exact ⟨h, fun _ _ => rfl, fun job stored => by rw [hjob] at stored; cases stored⟩
  | some job =>
      simp only [Exec.post_ite, Exec.post_bind, Exec.post_pure]
      refine ⟨fun other => ⟨h, fun _ _ => trivial, fun current stored => ?_⟩, fun _ => ?_⟩
      · rw [hjob] at stored
        cases stored
        exact other
      have own := h.identified id job hjob
      have distinct : ([job].map (·.jobId)).Nodup := List.nodup_singleton _
      refine (requeueLocked_post clock h ?_ distinct).mono ?_ fun _ _ same => same
      · intro other member
        rw [List.mem_singleton.mp member, own]
        exact hjob
      · rintro _ t ⟨invariant, within, requeued⟩
        refine ⟨invariant, fun other different => (within.clean other ?_).1, ?_⟩
        · simpa [own] using different
        · obtain ⟨updated, now_stored, queued⟩ := requeued job (List.mem_singleton_self job)
          intro current stored status
          rw [own, stored] at now_stored
          cases now_stored
          rw [status] at queued
          cases queued

end InMemoryAgentJobRepository

open InMemoryAgentJobRepository

/-- The calls that may write to the repository. -/
inductive RepositoryCall where
  | create (job : AgentJob)
  | claimWithEvent (jobId : UUID) (owner : Option UUID)
  | completeWithEvent (jobId : UUID) (result : SeriesAgentResult) (owner : Option UUID)
  | failWithEvent (jobId : UUID) (errorCode : String) (owner : Option UUID)
  | rejectWithEvent (jobId : UUID) (errorCode : String) (owner : Option UUID)
  | requeueRunningWithEvent (limit : Int)
  | requeueRunningJobWithEvent (jobId : UUID)

namespace RepositoryCall

def perform (clock : Clock) : RepositoryCall → Repository Unit
  | create job => discard (InMemoryAgentJobRepository.create clock job)
  | claimWithEvent jobId owner =>
      discard (InMemoryAgentJobRepository.claimWithEvent clock jobId owner)
  | completeWithEvent jobId result owner =>
      discard (InMemoryAgentJobRepository.completeWithEvent clock jobId result owner)
  | failWithEvent jobId errorCode owner =>
      discard (InMemoryAgentJobRepository.failWithEvent clock jobId errorCode owner)
  | rejectWithEvent jobId errorCode owner =>
      discard (InMemoryAgentJobRepository.rejectWithEvent clock jobId errorCode owner)
  | requeueRunningWithEvent limit =>
      discard (InMemoryAgentJobRepository.requeueRunningWithEvent clock limit)
  | requeueRunningJobWithEvent jobId =>
      discard (InMemoryAgentJobRepository.requeueRunningJobWithEvent clock jobId)

/-- The world after a sequence of calls on a new repository. -/
def after (clock : Clock) (calls : List RepositoryCall) : AgentJobWorld :=
  calls.foldl (fun w call => (Exec.run (call.perform clock) w).2) ⟨.empty, 0⟩

theorem perform_preserves (clock : Clock) (call : RepositoryCall) :
    Preserves (call.perform clock) := by
  have drop {α : Type} {p : Repository α} (h : Preserves p) : Preserves (discard p) := by
    intro w hw
    exact (Exec.post_map p _).mpr (h w hw)
  cases call with
  | create job => exact drop (create_preserves clock job)
  | claimWithEvent jobId owner => exact drop (.of_moved (claimWithEvent_post clock jobId owner))
  | completeWithEvent jobId result owner =>
      exact drop (.of_moved (completeWithEvent_post clock jobId result owner))
  | failWithEvent jobId errorCode owner =>
      exact drop (.of_moved (failWithEvent_post clock jobId errorCode owner))
  | rejectWithEvent jobId errorCode owner =>
      exact drop (.of_moved (rejectWithEvent_post clock jobId errorCode owner))
  | requeueRunningWithEvent limit => exact drop (requeueRunningWithEvent_preserves clock limit)
  | requeueRunningJobWithEvent jobId =>
      exact drop fun w h => (requeueRunningJobWithEvent_post clock jobId w h).mono
        (fun _ _ done => done.1) fun _ _ same => same

end RepositoryCall

theorem StoreInvariant.empty : StoreInvariant .empty := by
  constructor <;> simp [AgentJobStore.empty]

omit [Normalization] in
/-- Nothing follows a terminal event. -/
theorem Lifecycle.terminal_last {before after : List AgentJobEventKind}
    {kind : AgentJobEventKind} (h : Lifecycle (before ++ kind :: after))
    (terminal : kind.terminal = true) : after = [] := by
  cases after with
  | nil => rfl
  | cons next rest =>
      have step : Follows kind next := by
        have tail := (List.isChain_append.mp h.steps).2.1
        exact (List.isChain_cons_cons.mp tail).1
      rw [step.not_terminal] at terminal
      cases terminal

omit [Normalization] in
/-- A log that has not ended has no terminal event. -/
theorem Lifecycle.active {kinds : List AgentJobEventKind} {last : AgentJobEventKind}
    (h : Lifecycle kinds) (hlast : kinds.getLast? = some last) (active : last.terminal = false) :
    ∀ kind ∈ kinds, kind.terminal = false := by
  intro kind member
  by_contra terminal
  obtain ⟨before, after, rfl⟩ := List.append_of_mem member
  have ended := h.terminal_last (Bool.not_eq_false _ ▸ terminal)
  subst ended
  rw [List.getLast?_concat] at hlast
  cases hlast
  exact terminal active

/-- The index maps the keys in use one to one onto the stored jobs. -/
structure IndexBijective (s : AgentJobStore) : Prop where
  total : ∀ key id, s.keys.get? key = some id →
    ∃ job, s.jobs.get? id = some job ∧ job.key = key
  injective : ∀ key key' id, s.keys.get? key = some id → s.keys.get? key' = some id → key = key'
  surjective : ∀ id job, s.jobs.get? id = some job → s.keys.get? job.key = some id

theorem StoreInvariant.indexBijective {s : AgentJobStore} (h : StoreInvariant s) :
    IndexBijective s := by
  refine ⟨h.keyed, ?_, h.indexed⟩
  intro key key' id hkey hkey'
  obtain ⟨job, hjob, rfl⟩ := h.keyed key id hkey
  obtain ⟨job', hjob', rfl⟩ := h.keyed key' id hkey'
  rw [hjob] at hjob'
  cases hjob'
  rfl

theorem StoreInvariant.after (clock : Clock) (calls : List RepositoryCall) :
    StoreInvariant (RepositoryCall.after clock calls).store := by
  induction calls using List.reverseRecOn with
  | nil => exact StoreInvariant.empty
  | append_singleton calls call ih =>
      simp only [RepositoryCall.after, List.foldl_append, List.foldl_cons, List.foldl_nil] at ih ⊢
      have step := RepositoryCall.perform_preserves clock call _ ih
      unfold Exec.Post at step
      split at step
      · simpa [‹Exec.run _ _ = _›] using step
      · rw [‹Exec.run _ _ = _›, step]
        exact ih

/-- In every state a sequence of calls can reach, under any clock, each stored
job has a numbered log of its lifecycle that ends in its status, the index is a
bijection, and a call that raises leaves the three dictionaries as they were. -/
theorem inMemory_reachable (clock : Clock) (calls : List RepositoryCall) :
    let w := RepositoryCall.after clock calls
    (∀ id job, w.store.jobs.get? id = some job → job.jobId = id ∧
      ∃ events, w.store.events.get? id = some events ∧ LogInvariant job events) ∧
    IndexBijective w.store ∧
    ∀ (call : RepositoryCall) e w',
      Exec.run (call.perform clock) w = (.error e, w') → w'.store = w.store := by
  intro w
  have h : StoreInvariant w.store := StoreInvariant.after clock calls
  refine ⟨fun id job stored => ⟨h.identified id job stored, h.logged id job stored⟩,
    h.indexBijective, fun call e w' raised => ?_⟩
  exact (RepositoryCall.perform_preserves clock call w h).of_error raised

end Cinegraph
