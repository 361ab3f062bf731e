import Cinegraph.AgentJobs.Service
import Cinegraph.Library.Custody

/-!
When local recovery leaves live runs alone. The service is a system of parties
with custody of job identifiers: the scheduled set publishes what is taken, the
interrupted set what may be reset, and a claimed job is a key that is run.
-/

namespace Cinegraph

open Library AgentJobErrorMessages InMemoryAgentJobRepository

section Supervision

variable [Normalization]

def AgentJobStore.HasStatus (s : AgentJobStore) (jobId : UUID) (status : AgentJobStatus) : Prop :=
  ∃ job, s.jobs.get? jobId = some job ∧ job.status = status

theorem AgentJobStore.HasStatus.unique {s : AgentJobStore} {jobId : UUID}
    {status status' : AgentJobStatus} (h : s.HasStatus jobId status)
    (h' : s.HasStatus jobId status') : status = status' := by
  obtain ⟨job, stored, rfl⟩ := h
  obtain ⟨job', stored', rfl⟩ := h'
  rw [stored] at stored'
  cases stored'
  rfl

omit [Normalization] in
def SchedulePhase.stage (jobId : UUID) : SchedulePhase → Stage UUID
  | .dispatching | .withdrawing => .holding jobId
  | _ => .idle

def CallbackPhase.stage (jobId : UUID) : CallbackPhase → Stage UUID
  | .executing | .writing _ => .live jobId
  | .finishing => .leaving jobId
  | .finished => .idle
  | _ => .holding jobId

def ServiceThread.stage : ServiceThread → Stage UUID
  | .scheduling jobId phase => phase.stage jobId
  | .callback jobId phase => phase.stage jobId
  | _ => .idle

def RecoveryPhase.stage : RecoveryPhase → Stage UUID
  | .scheduling jobId phase _ => phase.stage jobId
  | _ => .idle

/-- The jobs the recovery loop has read from the interrupted set and not yet
discarded from it. -/
def RecoveryPhase.snapshot : RecoveryPhase → List UUID
  | .recovering interrupted => interrupted
  | .discarding jobId rest => jobId :: rest
  | _ => []

namespace AgentJobService

/-- The interrupted jobs whose next re-queue is still to come: not the one that
was just re-queued and is about to be discarded. -/
def awaiting (s : AgentJobService) : Finset UUID :=
  match s.recovery with
  | .discarding jobId _ => s.interruptedJobIds.erase jobId
  | _ => s.interruptedJobIds

/-- The parties are the recovery loop and the threads by their number. -/
def custody (s : AgentJobService) : Custody (Option Nat) UUID where
  stage
    | none => s.recovery.stage
    | some i => (s.threads[i]?.map ServiceThread.stage).getD .idle
  taken := s.scheduledJobIds
  reported := s.awaiting
  running := { jobId | s.world.store.HasStatus jobId .running }

/-- The job a step puts into the scheduled set. -/
def admits (s : AgentJobService) : ServiceAction → Option UUID
  | .recoverySchedule _ =>
      match s.recovery with
      | .scheduling jobId .admitting _ => if jobId ∈ s.scheduledJobIds then none else some jobId
      | _ => none
  | .schedule i _ =>
      match s.threads[i]? with
      | some (.scheduling jobId .admitting) =>
          if jobId ∈ s.scheduledJobIds then none else some jobId
      | _ => none
  | _ => none

/-- No job is scheduled while the interrupted set still has it to be re-queued. -/
def Settled (s : AgentJobService) (action : ServiceAction) : Prop :=
  ∀ jobId ∈ s.admits action, jobId ∉ s.awaiting

instance (s : AgentJobService) (action : ServiceAction) : Decidable (s.Settled action) :=
  inferInstanceAs (Decidable (∀ jobId ∈ s.admits action, jobId ∉ s.awaiting))

/-- The scan of the recovery loop reads every interrupted job once. -/
structure Scanning (phase : RecoveryPhase) (interrupted : Finset UUID) : Prop where
  nodup : phase.snapshot.Nodup
  subset : ∀ jobId ∈ phase.snapshot, jobId ∈ interrupted

theorem custody_setThread (s : AgentJobService) {i : Nat} {old : ServiceThread}
    (at_i : s.threads[i]? = some old) (thread : ServiceThread) :
    (s.setThread i thread).custody = s.custody.put (some i) thread.stage := by
  have bound : i < s.threads.length := (List.getElem?_eq_some_iff.mp at_i).1
  ext1
  · funext p
    cases p with
    | none => rfl
    | some j =>
        by_cases same : j = i
        · subst same
          simp [custody, setThread, bound]
        · rw [Custody.stage_put_of_ne _ _ (by simpa using same)]
          simp only [custody, setThread]
          rw [List.getElem?_set_ne (Ne.symm same)]
  all_goals rfl

theorem custody_spawn (s : AgentJobService) (thread : ServiceThread) :
    (s.spawn thread).custody = s.custody.put (some s.threads.length) thread.stage := by
  ext1
  · funext p
    cases p with
    | none => rfl
    | some j =>
        by_cases same : j = s.threads.length
        · subst same
          simp [custody, spawn]
        · rw [Custody.stage_put_of_ne _ _ (by simpa using same)]
          simp only [custody, spawn]
          rcases Nat.lt_or_gt_of_ne same with less | more
          · rw [List.getElem?_append_left less]
          · rw [List.getElem?_eq_none (Nat.le_of_lt more), List.getElem?_eq_none]
            simp only [List.length_append, List.length_singleton]
            omega
  all_goals rfl

theorem custody_recovery (s : AgentJobService) (phase : RecoveryPhase)
    (same : { s with recovery := phase }.awaiting = s.awaiting) :
    { s with recovery := phase }.custody = s.custody.put none phase.stage := by
  ext1
  · funext p
    cases p with
    | none => rfl
    | some j => rfl
  · rfl
  · exact same
  · rfl

/-- A repository call that leaves the running jobs running, apart from new ones. -/
theorem custody_grows (s : AgentJobService) (w : AgentJobWorld)
    (grows : ∀ jobId, s.world.store.HasStatus jobId .running → w.store.HasStatus jobId .running) :
    Custody.Step s.custody { s with world := w }.custody :=
  .gain (s := s.custody) grows

/-- `_schedule` takes a job into custody, hands it to a new callback or lets go of it. -/
theorem scheduleStep_custody (s : AgentJobService) (p : Option Nat) (jobId : UUID)
    (phase : SchedulePhase) (answer : Answer) (here : s.custody.stage p = phase.stage jobId)
    (known : p ≠ some s.threads.length)
    (settled : phase = .admitting → jobId ∉ s.scheduledJobIds → jobId ∉ s.awaiting) :
    Custody.Steps s.custody ((s.scheduleStep jobId answer phase).2.custody.put p
      ((s.scheduleStep jobId answer phase).1.elim (·.stage jobId) fun _ => .idle)) := by
  have stay : s.custody.put p (phase.stage jobId) = s.custody := s.custody.put_same here
  cases phase with
  | entering | checking | leasing | probing =>
      have idle : s.custody.put p .idle = s.custody := stay
      simp only [scheduleStep]
      split
      all_goals
        change Custody.Steps s.custody (s.custody.put p .idle)
        rw [idle]
  | admitting =>
      have idle : s.custody.put p .idle = s.custody := stay
      simp only [scheduleStep]
      split
      · change Custody.Steps s.custody (s.custody.put p .idle)
        rw [idle]
      · exact .single (.acquire here ‹_› (settled rfl ‹_›))
  | dispatching =>
      simp only [scheduleStep]
      split
      · have fresh : s.custody.stage (some s.threads.length) = .idle := by
          simp [custody]
        have passed := Custody.Step.pass (q := some s.threads.length) here fresh
        rw [Custody.put_comm _ known] at passed
        rw [custody_spawn]
        exact .single passed
      · change Custody.Steps s.custody (s.custody.put p (.holding jobId))
        rw [show s.custody.put p (.holding jobId) = s.custody from stay]
  | withdrawing =>
      exact .single (.release (by rw [here]; rfl))

/-- `_schedule` leaves everything but the scheduled set and the new callback alone. -/
theorem scheduleStep_frame (s : AgentJobService) (jobId : UUID) (answer : Answer)
    (phase : SchedulePhase) :
    let t := (s.scheduleStep jobId answer phase).2
    t.world = s.world ∧ t.recovery = s.recovery ∧ t.interruptedJobIds = s.interruptedJobIds ∧
      ∀ (i : Nat) (thread : ServiceThread),
        s.threads[i]? = some thread → t.threads[i]? = some thread := by
  have spawned : ∀ (i : Nat) (thread : ServiceThread), s.threads[i]? = some thread →
      (s.spawn (.callback jobId .starting)).threads[i]? = some thread := by
    intro i thread h
    rw [spawn, List.getElem?_append_left (List.getElem?_eq_some_iff.mp h).1]
    exact h
  have same : ∀ t : (SchedulePhase ⊕ Option Bool) × AgentJobService, t.2 = s →
      t.2.world = s.world ∧ t.2.recovery = s.recovery ∧
      t.2.interruptedJobIds = s.interruptedJobIds ∧ ∀ (i : Nat) (thread : ServiceThread),
        s.threads[i]? = some thread → t.2.threads[i]? = some thread := by
    rintro ⟨_, _⟩ rfl
    exact ⟨rfl, rfl, rfl, fun _ _ h => h⟩
  cases phase with
  | entering | checking | probing => exact same _ rfl
  | withdrawing => exact ⟨rfl, rfl, rfl, fun _ _ h => h⟩
  | leasing =>
      by_cases held : answer = .yes
      · exact same _ (by simp [scheduleStep, held])
      · simp [scheduleStep, held]
  | admitting =>
      by_cases taken : jobId ∈ s.scheduledJobIds
      · exact same _ (by simp [scheduleStep, taken])
      · simp [scheduleStep, taken]
  | dispatching =>
      by_cases accepted : answer = .yes
      · simpa [scheduleStep, accepted, spawn] using spawned
      · exact same _ (by simp [scheduleStep, accepted])

/-- What a step keeps and what it does to the custody of the jobs. -/
structure Simulates (s t : AgentJobService) : Prop where
  store : StoreInvariant t.world.store
  scanning : Scanning t.recovery t.interruptedJobIds
  custody : Custody.Steps s.custody t.custody

theorem post_call {α : Type} {p : Repository α} {Q : α → AgentJobWorld → Prop} {w : AgentJobWorld}
    (h : Exec.Post p Q (fun _ t => t.store = w.store) w) (available : Bool) :
    Exec.Post (call available p) Q (fun _ t => t.store = w.store) w := by
  cases available with
  | true => exact h
  | false => rfl

theorem listQueued_post (limit : Int) (w : AgentJobWorld) :
    Exec.Post (listQueued limit) (fun _ t => t.store = w.store) (fun _ t => t.store = w.store)
      w := by
  simp only [listQueued, store, Exec.post_bind, Exec.post_lift, Exec.post_get, Exec.post_pure]
  exact ⟨fun _ _ => trivial, fun _ _ => trivial⟩

omit [Normalization] in
theorem recoverNext_snapshot (rest : List UUID) : (recoverNext rest).snapshot = rest := by
  cases rest <;> rfl

omit [Normalization] in
theorem recoverNext_stage (rest : List UUID) : (recoverNext rest).stage = .idle := by
  cases rest <;> rfl

omit [Normalization] in
theorem dispatchNext_snapshot (rest : List UUID) : (dispatchNext rest).snapshot = [] := by
  cases rest <;> rfl

omit [Normalization] in
theorem dispatchNext_stage (rest : List UUID) : (dispatchNext rest).stage = .idle := by
  cases rest <;> rfl

omit [Normalization] in
theorem recoveryRaised_snapshot (e : Raised) : (recoveryRaised e).snapshot = [] := by
  unfold recoveryRaised
  split <;> rfl

omit [Normalization] in
theorem recoveryRaised_stage (e : Raised) : (recoveryRaised e).stage = .idle := by
  unfold recoveryRaised
  split <;> rfl

/-- Outside the discarding phase all interrupted jobs are awaiting. -/
theorem awaiting_eq {s : AgentJobService} (h : ∀ jobId rest, s.recovery ≠ .discarding jobId rest) :
    s.awaiting = s.interruptedJobIds := by
  unfold awaiting
  split
  · exact absurd ‹_› (h _ _)
  · rfl

/-- A change of the recovery phase that discards nothing and leaves the scan intact. -/
theorem custody_phase {s : AgentJobService} {phase : RecoveryPhase}
    (here : s.recovery.stage = phase.stage)
    (before : ∀ jobId rest, s.recovery ≠ .discarding jobId rest)
    (after : ∀ jobId rest, phase ≠ .discarding jobId rest) :
    { s with recovery := phase }.custody = s.custody := by
  have same : { s with recovery := phase }.awaiting = s.awaiting := by
    rw [awaiting_eq before, awaiting_eq (s := { s with recovery := phase }) after]
  rw [custody_recovery s phase same]
  exact s.custody.put_same here

omit [Normalization] in
theorem not_discarding_of_snapshot {phase : RecoveryPhase} (h : phase.snapshot = []) (jobId : UUID)
    (rest : List UUID) : phase ≠ .discarding jobId rest := by
  rintro rfl
  cases h

omit [Normalization] in
theorem recoverNext_not_discarding (interrupted : List UUID) (jobId : UUID) (rest : List UUID) :
    recoverNext interrupted ≠ .discarding jobId rest := by
  cases interrupted <;> rintro ⟨⟩

omit [Normalization] in
theorem Scanning.of_nil {phase : RecoveryPhase} (interrupted : Finset UUID)
    (h : phase.snapshot = []) : Scanning phase interrupted := by
  constructor
  · rw [h]
    exact List.nodup_nil
  · rw [h]
    exact fun _ member => nomatch member

/-- The custody of the jobs depends on the store only by its running jobs. -/
theorem custody_world (s : AgentJobService) {w : AgentJobWorld} (same : w.store = s.world.store) :
    { s with world := w }.custody = s.custody := by
  simp only [custody, awaiting, same]

theorem hasStatus_of_others {s t : AgentJobStore} {jobId : UUID}
    (others : ∀ other, other ≠ jobId → t.jobs.get? other = s.jobs.get? other) (other : UUID)
    (different : other ≠ jobId) (status : AgentJobStatus) :
    t.HasStatus other status ↔ s.HasStatus other status := by
  simp only [AgentJobStore.HasStatus, others other different]

section Steps

variable {s t : AgentJobService} (h : StoreInvariant s.world.store) (scanning : Scanning s.recovery s.interruptedJobIds)

include h scanning

theorem submitStep_simulates (clock : Clock) (job : AgentJob) (available : Bool) :
    Simulates s (s.submitStep clock job available) := by
  have post := post_call (create_post clock job s.world h) available
  have grows (w : AgentJobWorld) (added : Added s.world.store w.store job.jobId)
      (jobId : UUID) (running : s.world.store.HasStatus jobId .running) :
      w.store.HasStatus jobId .running := by
    refine (hasStatus_of_others added.others jobId ?_ .running).mpr running
    rintro rfl
    obtain ⟨stored, hstored, -⟩ := running
    rw [added.before] at hstored
    cases hstored
  have effect (w : AgentJobWorld) (hw : w.store = s.world.store ∨
      StoreInvariant w.store ∧ Added s.world.store w.store job.jobId ∧
        Queued w.store job.jobId) :
      Simulates s { s with world := w } := by
    rcases hw with same | ⟨invariant, added, -⟩
    · exact ⟨same ▸ h, scanning, by rw [custody_world s same]⟩
    · exact ⟨invariant, scanning, .single (custody_grows s w (grows w added))⟩
  unfold submitStep
  rcases hrun : Exec.run (call available (create clock job)) s.world with ⟨e | ⟨stored, _ | _⟩, w⟩
  · exact effect w (Or.inl (post.of_error hrun))
  · exact effect w (post.of_ok hrun)
  · have done := effect w (post.of_ok hrun)
    refine ⟨done.store, scanning, ?_⟩
    rw [custody_spawn, Custody.put_same]
    · exact done.custody
    · simp [custody, ServiceThread.stage, SchedulePhase.stage]

omit scanning in
/-- The recovery loop moves on without a write. -/
theorem phase_simulates {phase : RecoveryPhase} (idle : s.recovery.stage = .idle)
    (keeps : ∀ jobId rest, s.recovery ≠ .discarding jobId rest) (idle' : phase.stage = .idle)
    (keeps' : ∀ jobId rest, phase ≠ .discarding jobId rest)
    (scans : Scanning phase s.interruptedJobIds) {w : AgentJobWorld}
    (same : w.store = s.world.store) : Simulates s { s with world := w, recovery := phase } := by
  refine ⟨same ▸ h, scans, ?_⟩
  have phases : { s with recovery := phase }.custody = s.custody :=
    custody_phase (by rw [idle, idle']) keeps keeps'
  have worlds := custody_world { s with recovery := phase } same
  simp only [worlds, phases]
  exact .refl

theorem requeueStep_simulates (clock : Clock) {jobId : UUID} {rest : List UUID}
    (here : s.recovery = .recovering (jobId :: rest)) (available : Bool) :
    Simulates s (s.requeueStep clock jobId rest available) := by
  have post := post_call (requeueRunningJobWithEvent_post clock jobId s.world h) available
  have keeps : ∀ jobId rest, s.recovery ≠ .discarding jobId rest := by
    rw [here]
    exact fun _ _ => RecoveryPhase.noConfusion
  have nodup := scanning.nodup
  have subset := scanning.subset
  rw [here] at nodup subset
  have member : jobId ∈ s.awaiting := by
    rw [awaiting_eq keeps]
    exact subset jobId List.mem_cons_self
  unfold requeueStep
  rcases hrun : Exec.run (call available (requeueRunningJobWithEvent clock jobId)) s.world with
    ⟨e | _, w⟩
  · exact phase_simulates h (by rw [here]; rfl) keeps (recoveryRaised_stage e)
      (not_discarding_of_snapshot (recoveryRaised_snapshot e))
      (.of_nil _ (recoveryRaised_snapshot e)) (post.of_error hrun)
  · obtain ⟨invariant, others, -⟩ := post.of_ok hrun
    refine ⟨invariant, ⟨nodup, subset⟩, .single ?_⟩
    have unmoved : ∀ other, other ≠ jobId →
        (other ∈ { k | w.store.HasStatus k .running } ↔ other ∈ s.custody.running) :=
      fun other different => hasStatus_of_others others other different .running
    have reset := Custody.Step.reset (s := s.custody) member unmoved
    convert reset using 1
    ext1
    · funext p
      cases p with
      | none => simp only [custody, here]; rfl
      | some i => rfl
    · rfl
    · change s.interruptedJobIds.erase jobId = s.awaiting.erase jobId
      rw [awaiting_eq keeps]
    · rfl

theorem discard_simulates {jobId : UUID} {rest : List UUID}
    (here : s.recovery = .discarding jobId rest) :
    Simulates s { s with
      interruptedJobIds := s.interruptedJobIds.erase jobId, recovery := recoverNext rest } := by
  have nodup := scanning.nodup
  have subset := scanning.subset
  rw [here] at nodup subset
  obtain ⟨absent, nodup⟩ := List.nodup_cons.mp nodup
  refine ⟨h, ⟨by rwa [recoverNext_snapshot], fun other member => ?_⟩, ?_⟩
  · rw [recoverNext_snapshot] at member
    apply Finset.mem_erase.mpr
    refine ⟨?_, subset other (List.mem_cons_of_mem _ member)⟩
    rintro rfl
    exact absent member
  · have same : { s with interruptedJobIds := s.interruptedJobIds.erase jobId
                         recovery := recoverNext rest }.custody = s.custody := by
      ext1
      · funext p
        cases p with
        | none =>
            simp only [custody, here, recoverNext_stage]
            rfl
        | some i => rfl
      · rfl
      · change awaiting _ = s.awaiting
        rw [awaiting_eq (recoverNext_not_discarding rest)]
        simp [awaiting, here]
      · rfl
    rw [same]

omit scanning in
theorem listStep_simulates (recoveryBatchSize : Int) (here : s.recovery = .listing)
    (available : Bool) : Simulates s (s.listStep recoveryBatchSize available) := by
  have post := post_call (listQueued_post recoveryBatchSize s.world) available
  have keeps : ∀ jobId rest, s.recovery ≠ .discarding jobId rest := by
    rw [here]
    exact fun _ _ => RecoveryPhase.noConfusion
  have moved (phase : RecoveryPhase) (idle : phase.stage = .idle) (empty : phase.snapshot = [])
      (w : AgentJobWorld) (same : w.store = s.world.store) :
      Simulates s { s with world := w, recovery := phase } :=
    phase_simulates h (by rw [here]; rfl) keeps idle (not_discarding_of_snapshot empty)
      (.of_nil _ empty) same
  unfold listStep
  rcases hrun : Exec.run (call available (listQueued recoveryBatchSize)) s.world with
    ⟨e | queued, w⟩
  · exact moved _ (recoveryRaised_stage e) (recoveryRaised_snapshot e) w (post.of_error hrun)
  · exact moved _ (dispatchNext_stage _) (dispatchNext_snapshot _) w (post.of_ok hrun)

omit scanning in
theorem recoveryScheduleStep_simulates {jobId : UUID} {phase : SchedulePhase} {rest : List UUID}
    (here : s.recovery = .scheduling jobId phase rest) (answer : Answer)
    (settled : s.Settled (.recoverySchedule answer)) :
    Simulates s (s.recoveryScheduleStep jobId phase rest answer) := by
  have steps := s.scheduleStep_custody none jobId phase answer
    (by simp only [custody, here]; rfl) nofun (fun admitting free => settled jobId (by
      subst admitting
      simp only [admits, here, free]
      exact rfl))
  obtain ⟨world, recovery, interrupted, -⟩ := s.scheduleStep_frame jobId answer phase
  have moved (t : AgentJobService) (next : RecoveryPhase) (world : t.world = s.world)
      (recovery : t.recovery = s.recovery) (empty : next.snapshot = [])
      (steps : Custody.Steps s.custody (t.custody.put none next.stage)) :
      Simulates s { t with recovery := next } := by
    refine ⟨?_, .of_nil _ empty, ?_⟩
    · change StoreInvariant t.world.store
      rw [world]
      exact h
    · have same : { t with recovery := next }.awaiting = t.awaiting := by
        rw [awaiting_eq (s := t), awaiting_eq (s := { t with recovery := next })]
        · exact not_discarding_of_snapshot empty
        · rw [recovery, here]
          exact fun _ _ => RecoveryPhase.noConfusion
      rw [custody_recovery t next same]
      exact steps
  unfold recoveryScheduleStep
  rcases hout : s.scheduleStep jobId answer phase with ⟨next | (_ | _ | _), t⟩ <;>
    simp only [hout] at steps world recovery
  · exact moved t _ world recovery rfl steps
  · exact moved t _ world recovery (dispatchNext_snapshot rest) (by rwa [dispatchNext_stage])
  · exact moved t _ world recovery rfl steps
  · exact moved t _ world recovery (dispatchNext_snapshot rest) (by rwa [dispatchNext_stage])

theorem submissionScheduleStep_simulates {i : Nat} {jobId : UUID} {phase : SchedulePhase}
    (here : s.threads[i]? = some (.scheduling jobId phase)) (answer : Answer)
    (settled : s.Settled (.schedule i answer)) :
    Simulates s (s.submissionScheduleStep i jobId phase answer) := by
  have bound := (List.getElem?_eq_some_iff.mp here).1
  have steps := s.scheduleStep_custody (some i) jobId phase answer
    (by simp only [custody, here]; rfl)
    (fun same => Nat.lt_irrefl i (Option.some.inj same ▸ bound))
    (fun admitting free => settled jobId (by
      subst admitting
      simp only [admits, here, free]
      exact rfl))
  obtain ⟨world, recovery, interrupted, kept⟩ := s.scheduleStep_frame jobId answer phase
  have moved (t : AgentJobService) (next : ServiceThread) (world : t.world = s.world)
      (recovery : t.recovery = s.recovery) (interrupted : t.interruptedJobIds = s.interruptedJobIds)
      (kept : t.threads[i]? = some (.scheduling jobId phase))
      (steps : Custody.Steps s.custody (t.custody.put (some i) next.stage)) :
      Simulates s (t.setThread i next) := by
    refine ⟨?_, ?_, ?_⟩
    · change StoreInvariant t.world.store
      rw [world]
      exact h
    · change Scanning t.recovery t.interruptedJobIds
      rw [recovery, interrupted]
      exact scanning
    · rw [custody_setThread t kept]
      exact steps
  have there := kept i _ here
  unfold submissionScheduleStep
  rcases hout : s.scheduleStep jobId answer phase with ⟨next | (_ | _ | _), t⟩ <;>
    simp only [hout] at steps world recovery interrupted there <;>
    exact moved t _ world recovery interrupted there steps

theorem rejectStep_simulates (clock : Clock) {i : Nat} {jobId : UUID}
    (here : s.threads[i]? = some (.rejecting jobId)) (available : Bool) :
    Simulates s (s.rejectStep clock i jobId available) := by
  have post := post_call (rejectWithEvent_post clock jobId DISPATCH_UNAVAILABLE none s.world h)
    available
  have effect (w : AgentJobWorld) (invariant : StoreInvariant w.store)
      (steps : Custody.Steps s.custody { s with world := w }.custody) :
      Simulates s ({ s with world := w }.setThread i .returned) := by
    refine ⟨invariant, scanning, ?_⟩
    rw [custody_setThread { s with world := w } here, Custody.put_same]
    · exact steps
    · simp only [custody, here]
      rfl
  unfold rejectStep
  rcases hrun : Exec.run (call available (rejectWithEvent clock jobId DISPATCH_UNAVAILABLE none))
    s.world with ⟨e | returned, w⟩
  · have same := post.of_error hrun
    exact effect w (same ▸ h) (by rw [custody_world s same])
  · rcases post.of_ok hrun with ⟨-, same⟩ | ⟨-, invariant, moved⟩
    · exact effect w (same ▸ h) (by rw [custody_world s same])
    · refine effect w invariant (.single (custody_grows s w fun other running => ?_))
      refine (hasStatus_of_others moved.others other ?_ .running).mpr running
      rintro rfl
      obtain ⟨job, stored, queued⟩ := moved.before
      obtain ⟨_, hstored, running⟩ := running
      rw [stored] at hstored
      cases hstored
      rw [queued] at running
      cases running

omit h in
/-- A callback moves on; `w` is the world after its repository call, if it made one. -/
theorem callback_simulates {i : Nat} {jobId : UUID} {phase phase' : CallbackPhase}
    (here : s.threads[i]? = some (.callback jobId phase)) {w : AgentJobWorld}
    (invariant : StoreInvariant w.store)
    (steps : Custody.Steps s.custody
      ({ s with world := w }.custody.put (some i) (phase'.stage jobId))) :
    Simulates s ({ s with world := w }.setThread i (.callback jobId phase')) := by
  refine ⟨invariant, scanning, ?_⟩
  rw [custody_setThread { s with world := w } here]
  exact steps

omit h scanning in
theorem custody_callback {i : Nat} {jobId : UUID} {phase : CallbackPhase}
    (here : s.threads[i]? = some (.callback jobId phase)) :
    s.custody.stage (some i) = phase.stage jobId := by
  simp only [custody, here]
  rfl

/-- A callback that made no write keeps its job, stops running it or leaves it. -/
theorem quiet_simulates {i : Nat} {jobId : UUID} {phase phase' : CallbackPhase}
    (here : s.threads[i]? = some (.callback jobId phase))
    (pending : (phase.stage jobId).pending = some jobId)
    (next : phase'.stage jobId = .holding jobId ∨ phase'.stage jobId = .leaving jobId)
    {w : AgentJobWorld} (same : w.store = s.world.store) :
    Simulates s ({ s with world := w }.setThread i (.callback jobId phase')) := by
  refine callback_simulates scanning here (same ▸ h) ?_
  rw [custody_world s same]
  have stage := custody_callback here
  rcases next with holding | leaving
  · rw [holding]
    cases hstage : phase.stage jobId with
    | holding k =>
        rw [hstage] at stage pending
        cases pending
        rw [Custody.put_same _ stage]
    | live k =>
        rw [hstage] at stage pending
        cases pending
        exact .single (.suspend stage)
    | idle | leaving k =>
        rw [hstage] at pending
        cases pending
  · rw [leaving]
    exact .single (.leave (by rw [stage]; exact pending))

omit h scanning in
theorem callbackRaised_stage (e : Raised) (jobId : UUID) :
    (callbackRaised e).stage jobId = .holding jobId ∨
      (callbackRaised e).stage jobId = .leaving jobId := by
  unfold callbackRaised
  split
  · exact Or.inl rfl
  · exact Or.inr rfl

omit h in
theorem claim_simulates {i : Nat} {jobId : UUID}
    (here : s.threads[i]? = some (.callback jobId .claiming)) {w : AgentJobWorld}
    (moved : Moved s.world.store w.store jobId .queued .running)
    (invariant : StoreInvariant w.store) :
    Simulates s ({ s with world := w }.setThread i (.callback jobId .executing)) := by
  refine callback_simulates scanning here invariant ?_
  have grows (other : UUID) (running : s.world.store.HasStatus other .running) :
      w.store.HasStatus other .running := by
    by_cases same : other = jobId
    · rw [same]
      exact moved.after
    · exact (hasStatus_of_others moved.others other same .running).mpr running
  have holding : { s with world := w }.custody.stage (some i) = .holding jobId :=
    custody_callback (s := { s with world := w }) here
  exact .tail (.single (custody_grows s w grows)) (.enter holding moved.after)

omit h in
theorem write_simulates {i : Nat} {jobId : UUID} {outcome : Except String SeriesAgentResult}
    (here : s.threads[i]? = some (.callback jobId (.writing outcome))) {w : AgentJobWorld}
    {next : AgentJobStatus} (moved : Moved s.world.store w.store jobId .running next)
    (invariant : StoreInvariant w.store) :
    Simulates s ({ s with world := w }.setThread i (.callback jobId .finishing)) := by
  refine callback_simulates scanning here invariant ?_
  have pending : (s.custody.stage (some i)).pending = some jobId := by
    rw [custody_callback here]
    rfl
  refine .tail (.single (.leave pending)) (.finish (k := jobId) (p := some i) ?_ ?_)
  · exact Custody.stage_put_self _ _ _
  · exact fun other different => hasStatus_of_others moved.others other different .running

theorem callbackStep_simulates (clock : Clock) {i : Nat} {jobId : UUID} {phase : CallbackPhase}
    (here : s.threads[i]? = some (.callback jobId phase)) {p : Repository CallbackPhase}
    (next : nextCall clock jobId phase = some p) (available : Bool) :
    Simulates s (s.callbackStep i jobId (call available p)) := by
  have pending : (phase.stage jobId).pending = some jobId := by
    cases phase <;> first | rfl | cases next
  have quiet {phase' : CallbackPhase} {w : AgentJobWorld} (same : w.store = s.world.store)
      (next : phase'.stage jobId = .holding jobId ∨ phase'.stage jobId = .leaving jobId) :=
    quiet_simulates h scanning here pending next same
  have post : Exec.Post p
      (fun phase' w => Simulates s ({ s with world := w }.setThread i (.callback jobId phase')))
      (fun _ w => w.store = s.world.store) s.world := by
    cases phase with
    | starting =>
        cases next
        simp only [store, Exec.post_bind, Exec.post_get, Exec.post_pure]
        cases find s.world.store jobId none with
        | none => exact quiet rfl (.inr rfl)
        | some job =>
            simp only [Exec.post_pure]
            split
            · exact quiet rfl (.inr rfl)
            · exact quiet rfl (.inl rfl)
    | claiming =>
        cases next
        rw [Exec.post_bind]
        refine (claimWithEvent_post clock jobId none s.world h).mono ?_ fun _ _ same => same
        rintro (_ | job) w (⟨returned, same⟩ | ⟨returned, invariant, moved⟩)
        · exact quiet same (.inl rfl)
        · cases returned
        · cases returned
        · exact claim_simulates scanning here moved invariant
    | refetching =>
        cases next
        exact quiet rfl (.inr rfl)
    | writing outcome =>
        cases outcome with
        | ok result =>
            cases next
            rw [Exec.post_bind]
            refine (completeWithEvent_post clock jobId result none s.world h).mono ?_
              fun _ _ same => same
            rintro returned w (⟨-, same⟩ | ⟨-, invariant, moved⟩)
            · exact quiet same (.inr rfl)
            · exact write_simulates scanning here moved invariant
        | error code =>
            cases next
            rw [Exec.post_bind]
            refine (failWithEvent_post clock jobId code none s.world h).mono ?_
              fun _ _ same => same
            rintro returned w (⟨-, same⟩ | ⟨-, invariant, moved⟩)
            · exact quiet same (.inr rfl)
            · exact write_simulates scanning here moved invariant
    | executing | interrupted | finishing | finished => cases next
  have called := post_call post available
  unfold callbackStep
  rcases hrun : Exec.run (call available p) s.world with ⟨e | phase', w⟩
  · exact quiet (called.of_error hrun) (callbackRaised_stage e jobId)
  · exact called.of_ok hrun

theorem converse_simulates {i : Nat} {jobId : UUID}
    (here : s.threads[i]? = some (.callback jobId .executing)) {phase : CallbackPhase}
    (next : phase = .finishing ∨ ∃ outcome, phase = .writing outcome) :
    Simulates s (s.setThread i (.callback jobId phase)) := by
  have stage := custody_callback here
  rcases next with rfl | ⟨outcome, rfl⟩
  · exact quiet_simulates h scanning here rfl (.inr rfl) rfl
  · refine ⟨h, scanning, ?_⟩
    rw [custody_setThread s here, Custody.put_same]
    exact stage

omit h scanning in
theorem awaiting_insert (jobId : UUID) :
    { s with interruptedJobIds := insert jobId s.interruptedJobIds }.awaiting = s.awaiting ∨
      { s with interruptedJobIds := insert jobId s.interruptedJobIds }.awaiting =
        insert jobId s.awaiting := by
  unfold awaiting
  cases s.recovery with
  | discarding other rest =>
      by_cases same : jobId = other
      · subst same
        exact Or.inl (Finset.erase_insert_eq_erase _ _)
      · exact Or.inr (Finset.erase_insert_of_ne same)
  | waiting | recovering | listing | scheduling | stopped => exact Or.inr rfl

/-- A callback reports its job. While the loop discards that job the report is lost. -/
theorem report_simulates {i : Nat} {jobId : UUID}
    (here : s.threads[i]? = some (.callback jobId .interrupted)) :
    Simulates s ({ s with interruptedJobIds := insert jobId s.interruptedJobIds }.setThread i
      (.callback jobId .finishing)) := by
  have stage := custody_callback here
  refine ⟨h, ⟨scanning.nodup, fun other member => ?_⟩, ?_⟩
  · exact Finset.mem_insert_of_mem (scanning.subset other member)
  · let reported := { s with interruptedJobIds := insert jobId s.interruptedJobIds }
    have custody : reported.custody = { s.custody with reported := reported.awaiting } := rfl
    rw [custody_setThread reported here, custody]
    rcases awaiting_insert (s := s) jobId with lost | kept
    · rw [show reported.awaiting = s.custody.reported from lost]
      exact .single (.leave (by rw [stage]; rfl))
    · rw [show reported.awaiting = insert jobId s.custody.reported from kept]
      exact .single (.report stage)

theorem release_simulates {i : Nat} {jobId : UUID}
    (here : s.threads[i]? = some (.callback jobId .finishing)) :
    Simulates s ({ s with scheduledJobIds := s.scheduledJobIds.erase jobId }.setThread i
      (.callback jobId .finished)) := by
  have stage := custody_callback here
  let released := { s with scheduledJobIds := s.scheduledJobIds.erase jobId }
  refine ⟨h, scanning, ?_⟩
  rw [custody_setThread released here]
  exact .single (.release (by rw [stage]; rfl))

theorem step_simulates (clock : Clock) (recoveryBatchSize : Int) {action : ServiceAction}
    (settled : s.Settled action) (taken : s.step clock recoveryBatchSize action = some t) :
    Simulates s t := by
  have idle {phase phase' : RecoveryPhase} (here : s.recovery = phase)
      (keeps : ∀ jobId rest, phase ≠ .discarding jobId rest) (idle : phase.stage = .idle)
      (idle' : phase'.stage = .idle) (keeps' : ∀ jobId rest, phase' ≠ .discarding jobId rest)
      (scans : Scanning phase' s.interruptedJobIds) :
      Simulates s { s with recovery := phase' } :=
    phase_simulates h (here ▸ idle) (here ▸ keeps) idle' keeps' scans rfl
  cases action with
  | submit job available =>
      cases taken
      exact submitStep_simulates h scanning clock job available
  | stop =>
      obtain ⟨waiting, same⟩ := Option.ite_none_right_eq_some.mp taken
      cases same
      exact idle waiting (fun _ _ => RecoveryPhase.noConfusion) rfl rfl
        (fun _ _ => RecoveryPhase.noConfusion) (.of_nil _ rfl)
  | scan order =>
      obtain ⟨⟨waiting, nodup, all⟩, same⟩ := Option.ite_none_right_eq_some.mp taken
      cases same
      refine idle waiting (fun _ _ => RecoveryPhase.noConfusion) rfl (recoverNext_stage order)
        (recoverNext_not_discarding order) ⟨?_, ?_⟩
      · rwa [recoverNext_snapshot]
      · intro jobId member
        rw [recoverNext_snapshot] at member
        exact all ▸ List.mem_toFinset.mpr member
  | requeue available =>
      simp only [step] at taken
      split at taken
      · cases taken
        exact requeueStep_simulates h scanning clock ‹_› available
      · cases taken
  | discard =>
      simp only [step] at taken
      split at taken
      · cases taken
        exact discard_simulates h scanning ‹_›
      · cases taken
  | listQueued available =>
      obtain ⟨listing, same⟩ := Option.ite_none_right_eq_some.mp taken
      cases same
      exact listStep_simulates h recoveryBatchSize listing available
  | recoverySchedule answer =>
      simp only [step] at taken
      split at taken
      · cases taken
        exact recoveryScheduleStep_simulates h ‹_› answer settled
      · cases taken
  | schedule i answer =>
      simp only [step] at taken
      split at taken
      · cases taken
        exact submissionScheduleStep_simulates h scanning ‹_› answer settled
      · cases taken
  | reject i available =>
      simp only [step] at taken
      split at taken
      · cases taken
        exact rejectStep_simulates h scanning clock ‹_› available
      · cases taken
  | callRepository i available =>
      simp only [step] at taken
      split at taken
      · obtain ⟨p, next, rfl⟩ := Option.map_eq_some_iff.mp taken
        exact callbackStep_simulates h scanning clock ‹_› next available
      · cases taken
  | converse i outcome =>
      simp only [step] at taken
      split at taken
      · cases taken
        cases outcome with
        | none => exact converse_simulates h scanning ‹_› (.inl rfl)
        | some outcome => exact converse_simulates h scanning ‹_› (.inr ⟨outcome, rfl⟩)
      · cases taken
  | settle i =>
      simp only [step] at taken
      split at taken
      · cases taken
        exact report_simulates h scanning ‹_›
      · cases taken
        exact release_simulates h scanning ‹_›
      · cases taken

end Steps

/-- What holds in every state of a run that schedules only settled jobs. -/
structure ServiceInvariant (s : AgentJobService) : Prop where
  store : StoreInvariant s.world.store
  scanning : Scanning s.recovery s.interruptedJobIds
  custody : s.custody.Invariant

theorem ServiceInvariant.started {world : AgentJobWorld} (h : StoreInvariant world.store) :
    ServiceInvariant (started world) := by
  have idle (p : Option Nat) : (AgentJobService.started world).custody.stage p = .idle := by
    cases p <;> rfl
  refine ⟨h, .of_nil _ rfl, ?_, ?_, ?_, ?_⟩
  · intro p k key
    rw [idle] at key
    cases key
  · intro p q k key
    rw [idle] at key
    cases key
  · intro p k pending
    rw [idle] at pending
    cases pending
  · intro p k live
    rw [idle] at live
    cases live

theorem ServiceInvariant.of_run (clock : Clock) (recoveryBatchSize : Int) {world : AgentJobWorld}
    (h : StoreInvariant world.store) {s : AgentJobService}
    (run : Run (step clock recoveryBatchSize) Settled (AgentJobService.started world) s) :
    ServiceInvariant s := by
  refine run.invariant (ServiceInvariant.started h) fun s t action hs settled taken => ?_
  obtain ⟨store, scanning, steps⟩ :=
    step_simulates hs.store hs.scanning clock recoveryBatchSize settled taken
  exact ⟨store, scanning, steps.preserves hs.custody⟩

/-- A callback of the job is between its claim and its terminal write. -/
def Live (s : AgentJobService) (jobId : UUID) : Prop :=
  ∃ (i : Nat) (phase : CallbackPhase), s.threads[i]? = some (.callback jobId phase) ∧
    phase.stage jobId = .live jobId

/-- Local recovery moves no job from running to queued while a callback runs it. -/
def SparesLiveRuns (clock : Clock) (recoveryBatchSize : Int) (s : AgentJobService) : Prop :=
  ∀ available t jobId, s.step clock recoveryBatchSize (.requeue available) = some t →
    s.world.store.HasStatus jobId .running → t.world.store.HasStatus jobId .queued →
    ¬s.Live jobId

/-- Every terminal write that is due finds its job running, as the repository demands. -/
def AcceptsWrites (s : AgentJobService) : Prop :=
  ∀ (i : Nat) jobId outcome, s.threads[i]? = some (.callback jobId (.writing outcome)) →
    s.world.store.HasStatus jobId .running

/-- While only settled jobs are scheduled, local recovery spares every live run,
and no result is refused because its job was re-queued underneath it. -/
theorem recovery_spares_live_runs (clock : Clock) (recoveryBatchSize : Int)
    {world : AgentJobWorld} (h : StoreInvariant world.store) {s : AgentJobService}
    (run : Run (step clock recoveryBatchSize) Settled (AgentJobService.started world) s) :
    s.SparesLiveRuns clock recoveryBatchSize ∧ s.AcceptsWrites := by
  have invariant := ServiceInvariant.of_run clock recoveryBatchSize h run
  constructor
  · rintro available t jobId taken running queued ⟨i, phase, here, live⟩
    simp only [step] at taken
    split at taken
    · rename_i other rest recovering
      cases taken
      have post := post_call
        (requeueRunningJobWithEvent_post clock other s.world invariant.store) available
      by_cases same : jobId = other
      · subst same
        have awaited : jobId ∈ s.custody.reported := by
          have subset := invariant.scanning.subset
          rw [recovering] at subset
          change jobId ∈ s.awaiting
          rw [awaiting_eq]
          · exact subset jobId List.mem_cons_self
          · rw [recovering]
            exact fun _ _ => RecoveryPhase.noConfusion
        exact invariant.custody.not_live awaited (some i) ((custody_callback here).trans live)
      · unfold requeueStep at queued
        rcases hrun : Exec.run (call available (requeueRunningJobWithEvent clock other)) s.world
          with ⟨e | _, w⟩
        · simp only [hrun, post.of_error hrun] at queued
          cases running.unique queued
        · simp only [hrun, hasStatus_of_others (post.of_ok hrun).2.1 jobId same] at queued
          cases running.unique queued
    · cases taken
  · intro i jobId outcome here
    exact invariant.custody.running (some i) jobId (custody_callback here)

end AgentJobService

end Supervision

section Sample

open AgentJobService

attribute [local instance] Normalization.ascii

/-- The job is submitted and a callback claims it; its write meets an outage. -/
def outageActions : List ServiceAction :=
  [.scan [], .submit sampleJob true] ++ List.replicate 6 (.schedule 0 .yes) ++
    [.callRepository 1 true, .callRepository 1 true, .converse 1 (some (.ok plainResult)),
      .callRepository 1 false, .settle 1, .settle 1, .listQueued true, .scan [⟨1⟩]]

/-- The condition is met by a run that ends as the recovery loop re-queues a job
whose terminal write was lost. -/
theorem recovery_spares_live_runs_outage :
    ∃ s : AgentJobService, s.recovery = .recovering [⟨1⟩] ∧ s.world.store.HasStatus ⟨1⟩ .running ∧
      s.SparesLiveRuns sampleClock 32 ∧ s.AcceptsWrites := by
  obtain ⟨s, run, reached⟩ := Run.exists_of_checked (step sampleClock 32) Settled
    (started ⟨.empty, 0⟩) outageActions
    (fun s => s.recovery = .recovering [⟨1⟩] ∧
      (s.world.store.jobs.get? ⟨1⟩).map (·.status) = some .running) (by decide +kernel)
  obtain ⟨recovering, running⟩ := of_decide_eq_true reached
  exact ⟨s, recovering, Option.map_eq_some_iff.mp running,
    recovery_spares_live_runs sampleClock 32 StoreInvariant.empty run⟩

/-- A callback that meets an outage before its claim reports a job that is still
queued. The scan under way has read the interrupted set before that and
dispatches the job again, so the next scan re-queues it underneath its callback. -/
def staleActions : List ServiceAction :=
  [.scan [], .submit sampleJob true] ++ List.replicate 6 (.schedule 0 .yes) ++
    [.callRepository 1 false, .settle 1, .settle 1, .listQueued true] ++
    List.replicate 6 (.recoverySchedule .yes) ++
    [.callRepository 2 true, .callRepository 2 true, .scan [⟨1⟩]]

theorem stale_interruption_steals_live_run :
    (∃ s, Run (step sampleClock 32) (fun _ _ => True) (started ⟨.empty, 0⟩) s ∧
      ¬s.SparesLiveRuns sampleClock 32) ∧
    ∃ s, Run (step sampleClock 32) (fun _ _ => True) (started ⟨.empty, 0⟩) s ∧
      ¬s.AcceptsWrites ∧
      (Exec.run (completeWithEvent sampleClock ⟨1⟩ plainResult none) s.world).1 =
        .error ⟨.agentJobTransition, REPOSITORY_COMPLETE_STATE⟩ := by
  constructor
  · obtain ⟨s, run, reached⟩ := Run.exists_of_checked (step sampleClock 32)
      (fun _ _ => True) (started ⟨.empty, 0⟩) staleActions
      (fun s => s.threads[2]? = some (.callback ⟨1⟩ .executing) ∧
        (s.world.store.jobs.get? ⟨1⟩).map (·.status) = some .running ∧
        (s.step sampleClock 32 (.requeue true)).any fun t =>
          (t.world.store.jobs.get? ⟨1⟩).map (·.status) = some .queued) (by decide +kernel)
    obtain ⟨executing, running, requeued⟩ := of_decide_eq_true reached
    obtain ⟨t, taken, queued⟩ := (Option.any_eq_true _ _).mp requeued
    refine ⟨s, run, fun spares => ?_⟩
    exact spares true t ⟨1⟩ taken (Option.map_eq_some_iff.mp running)
      (Option.map_eq_some_iff.mp (of_decide_eq_true queued)) ⟨2, .executing, executing, rfl⟩
  · obtain ⟨s, run, reached⟩ := Run.exists_of_checked (step sampleClock 32)
      (fun _ _ => True) (started ⟨.empty, 0⟩)
      (staleActions ++ [.requeue true, .converse 2 (some (.ok plainResult))])
      (fun s => s.threads[2]? = some (.callback ⟨1⟩ (.writing (.ok plainResult))) ∧
        (s.world.store.jobs.get? ⟨1⟩).map (·.status) = some .queued ∧
        (Exec.run (completeWithEvent sampleClock ⟨1⟩ plainResult none) s.world).1 =
          .error ⟨.agentJobTransition, REPOSITORY_COMPLETE_STATE⟩) (by decide +kernel)
    obtain ⟨writing, queued, refused⟩ := of_decide_eq_true reached
    refine ⟨s, run, fun accepts => ?_, refused⟩
    have running := accepts 2 ⟨1⟩ (.ok plainResult) writing
    cases running.unique (Option.map_eq_some_iff.mp queued)

end Sample

end Cinegraph
