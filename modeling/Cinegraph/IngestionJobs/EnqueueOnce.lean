import Cinegraph.IngestionJobs.LostUpdate

/-!
When enqueueing is exactly-once on the SQL repository. The identifiers of the jobs
are derived from their keys, so a call that loses the race for the insert takes the
winner for its own row and goes on; everything hangs on no insert meeting a row.
-/

namespace Cinegraph

open Library IngestionJobService SqlAlchemyIngestionJobRepository

section Tables

/-- The unique columns of a job row. -/
def IngestionJobFields.identity (row : IngestionJobFields) : UUID × String :=
  (row.jobId, row.idempotencyKey)

def Apart (a b : UUID × String) : Prop := a.1 ≠ b.1 ∧ a.2 ≠ b.2

theorem Apart.symm {a b : UUID × String} (apart : Apart a b) : Apart b a :=
  ⟨apart.1.symm, apart.2.symm⟩

theorem sameJob_eq_false {a b : IngestionJobRow} :
    sameJob a b = false ↔ Apart a.identity b.identity := by
  simp [sameJob, Apart, IngestionJobFields.identity]

def identities (tables : IngestionTables) : List (UUID × String) :=
  tables.jobs.map fun row => row.identity

/-- The events of a job in the order of their commits. -/
def committedEvents (tables : IngestionTables) (jobId : UUID) : List IngestionJobEvent :=
  tables.events.filter (·.jobId = jobId)

/-- A log that starts with the enqueueing of its job, which it never repeats. -/
def EnqueuedOnce (log : List IngestionJobEvent) : Prop :=
  ∃ first rest, log = first :: rest ∧ first.kind = .enqueued ∧ first.sequenceNumber = 1 ∧
    ∀ event ∈ rest, event.kind ≠ .enqueued

theorem EnqueuedOnce.append {log : List IngestionJobEvent} (once : EnqueuedOnce log)
    {more : List IngestionJobEvent} (other : ∀ event ∈ more, event.kind ≠ .enqueued) :
    EnqueuedOnce (log ++ more) := by
  obtain ⟨first, rest, rfl, kind, sequence, later⟩ := once
  refine ⟨first, rest ++ more, rfl, kind, sequence, fun event member => ?_⟩
  rcases List.mem_append.mp member with old | new
  · exact later event old
  · exact other event new

/-- Every job has one row and a log that enqueues it once. -/
structure Exact (tables : IngestionTables) : Prop where
  distinct : (identities tables).Pairwise Apart
  stored : ∀ row ∈ tables.jobs, rowValues row = row
  owned : ∀ event ∈ tables.events, ∃ row ∈ tables.jobs, row.jobId = event.jobId
  logged : ∀ row ∈ tables.jobs, EnqueuedOnce (committedEvents tables row.jobId)

theorem exact_empty : Exact .empty :=
  ⟨.nil, fun _ absent => absurd absent List.not_mem_nil,
    fun _ absent => absurd absent List.not_mem_nil, fun _ absent => absurd absent List.not_mem_nil⟩

@[simp] theorem rowValues_rowValues (job : IngestionJob) : rowValues (rowValues job) = rowValues job := by
  simp [rowValues]

@[simp] theorem rowValues_identity (job : IngestionJob) :
    (rowValues job).identity = job.identity := rfl

variable {tables : IngestionTables}

theorem committedEvents_append (events : List IngestionJobEvent) (event : IngestionJobEvent)
    (rows : List IngestionJobRow) (jobId : UUID) :
    committedEvents ⟨rows, events ++ [event]⟩ jobId =
      events.filter (·.jobId = jobId) ++ if event.jobId = jobId then [event] else [] := by
  rw [committedEvents, List.filter_append, List.filter_singleton]
  by_cases own : event.jobId = jobId <;> simp [own]

/-- The commit of a new row with its first event. -/
theorem Exact.insert (exact : Exact tables) {job : IngestionJob} {event : IngestionJobEvent}
    (fresh : ∀ identity ∈ identities tables, Apart identity job.identity)
    (own : event.jobId = job.jobId) (kind : event.kind = .enqueued)
    (sequence : event.sequenceNumber = 1) :
    Exact ⟨tables.jobs ++ [rowValues job], tables.events ++ [event]⟩ := by
  have silent : ∀ other ∈ tables.events, other.jobId ≠ job.jobId := by
    intro other member same
    obtain ⟨row, listed, named⟩ := exact.owned other member
    exact (fresh row.identity (List.mem_map_of_mem listed)).1 (named.trans same)
  constructor
  · rw [identities, List.map_append, List.pairwise_append]
    refine ⟨exact.distinct, List.pairwise_singleton _ _, fun a member b single => ?_⟩
    rw [List.map_singleton, List.mem_singleton] at single
    rw [single]
    exact fresh a member
  · intro row member
    rcases List.mem_append.mp member with old | new
    · exact exact.stored row old
    · rw [List.mem_singleton.mp new, rowValues_rowValues]
  · intro other member
    rcases List.mem_append.mp member with old | new
    · obtain ⟨row, listed, named⟩ := exact.owned other old
      exact ⟨row, List.mem_append_left _ listed, named⟩
    · rw [List.mem_singleton.mp new]
      exact ⟨rowValues job, List.mem_append_right _ (List.mem_singleton_self _), own.symm⟩
  · intro row member
    rw [committedEvents_append]
    rcases List.mem_append.mp member with old | new
    · have apart := (fresh row.identity (List.mem_map_of_mem old)).1
      rw [if_neg (by rw [own]; exact fun same => apart same.symm), List.append_nil]
      exact exact.logged row old
    · rw [List.mem_singleton.mp new, rowValues_jobId, if_pos own,
        List.filter_eq_nil_iff.mpr (by simpa using silent), List.nil_append]
      exact ⟨event, [], rfl, kind, sequence, fun _ absent => absurd absent List.not_mem_nil⟩

theorem Exact.unique (exact : Exact tables) {a b : IngestionJobRow} (first : a ∈ tables.jobs)
    (second : b ∈ tables.jobs) (same : a.jobId = b.jobId) : a = b := by
  by_contra other
  have symmetric : Std.Symm fun a b : IngestionJobRow => Apart a.identity b.identity :=
    ⟨fun _ _ => Apart.symm⟩
  have apart := (List.pairwise_map.mp exact.distinct).forall first second other
  exact apart.1 same

/-- An UPDATE keeps the unique columns of every row. -/
theorem identities_update (exact : Exact tables) {job : IngestionJob}
    (listed : job.identity ∈ identities tables) (events : List IngestionJobEvent) :
    identities ⟨(update tables job).jobs, events⟩ = identities tables := by
  obtain ⟨row, member, same⟩ := List.mem_map.mp listed
  rw [identities, identities, update, List.map_map]
  apply List.map_congr_left
  intro other inside
  rw [Function.comp_apply]
  split
  · rename_i here
    have sameId : row.jobId = job.jobId := congrArg Prod.fst same
    rw [rowValues_identity, ← same, exact.unique inside member (here.trans sameId.symm)]
  · rfl

/-- The commit of an UPDATE with an event of another kind. -/
theorem Exact.update (exact : Exact tables) {job : IngestionJob} {event : IngestionJobEvent}
    (listed : job.identity ∈ identities tables) (own : event.jobId = job.jobId)
    (other : event.kind ≠ .enqueued) :
    Exact ⟨(SqlAlchemyIngestionJobRepository.update tables job).jobs, tables.events ++ [event]⟩ := by
  have ids := identities_update exact listed (tables.events ++ [event])
  have rows : ∀ row, row ∈ (SqlAlchemyIngestionJobRepository.update tables job).jobs →
      rowValues row = row ∧ ∃ old ∈ tables.jobs, old.jobId = row.jobId := by
    intro row member
    obtain ⟨old, inside, rfl⟩ := List.mem_map.mp member
    split
    · rename_i here
      exact ⟨rowValues_rowValues job, old, inside, here⟩
    · exact ⟨exact.stored old inside, old, inside, rfl⟩
  constructor
  · rw [ids]
    exact exact.distinct
  · exact fun row member => (rows row member).1
  · intro e member
    obtain ⟨old, inside, named⟩ : ∃ old ∈ tables.jobs, old.jobId = e.jobId := by
      rcases List.mem_append.mp member with old | new
      · exact exact.owned e old
      · obtain ⟨row, inside, same⟩ := List.mem_map.mp listed
        rw [List.mem_singleton.mp new, own]
        exact ⟨row, inside, congrArg Prod.fst same⟩
    have still : old.identity ∈ identities
        ⟨(SqlAlchemyIngestionJobRepository.update tables job).jobs, tables.events ++ [event]⟩ := by
      rw [ids]
      exact List.mem_map_of_mem inside
    obtain ⟨row, there, same⟩ := List.mem_map.mp still
    exact ⟨row, there, (congrArg Prod.fst same).trans named⟩
  · intro row member
    obtain ⟨-, old, inside, named⟩ := rows row member
    have before := exact.logged old inside
    rw [committedEvents_append, ← named]
    apply before.append
    intro e added
    split at added
    · rw [List.mem_singleton.mp added]
      exact other
    · exact absurd added List.not_mem_nil

end Tables

namespace IngestionSystem

variable (s : IngestionSystem)

/-- No insert meets a committed row with the key of its job. -/
def Uncontended : IngestionAction → Prop
  | .proceed call _ =>
      match s.calls[call]? with
      | some (.lookedUp job _) => getByIdempotencyKey s.tables job.idempotencyKey = none
      | _ => True
  | _ => True

instance (action : IngestionAction) : Decidable (s.Uncontended action) := by
  unfold Uncontended
  split
  · split <;> infer_instance
  · infer_instance

/-- What is true of a call in front of the committed tables. -/
def Sound (tables : IngestionTables) : IngestionPhase → Prop
  | .added job stored own _ => own = true ∧ stored = rowValues job ∧
      ∀ identity ∈ identities tables, Apart identity job.identity
  | .appended job stored own event => own = true ∧ stored = rowValues job ∧
      (∀ identity ∈ identities tables, Apart identity job.identity) ∧
      event.jobId = job.jobId ∧ event.kind = .enqueued ∧ event.sequenceNumber = 1
  | .updating u => u.plan.updated.identity ∈ identities tables ∧ u.plan.kind ≠ .enqueued
  | .returned job stored => rowValues job = stored ∧ stored.identity ∈ identities tables
  | _ => True

/-- Uncommitted rows of different calls differ in their unique columns. -/
def Locked (calls : List IngestionPhase) : Prop :=
  ∀ (i j : Nat) (a b : IngestionJobRow), i ≠ j → (calls[i]?).bind (·.heldRow) = some a →
    (calls[j]?).bind (·.heldRow) = some b → Apart a.identity b.identity

structure Invariant : Prop where
  exact : Exact s.tables
  sound : ∀ phase ∈ s.calls, Sound s.tables phase
  locked : Locked s.calls

variable {s} {t : IngestionSystem} {configuration : IngestionJobConfiguration} {chosen : UUID}
  {phase next : IngestionPhase} {tables : IngestionTables}

/-- A row that other calls hold is not inserted. -/
theorem rowLocked_eq_false {row : IngestionJobRow} (free : s.rowLocked row = false) {i : Nat}
    {held : IngestionJobRow} (here : (s.calls[i]?).bind (·.heldRow) = some held) :
    Apart held.identity row.identity := by
  obtain ⟨phase, listed, holds⟩ := Option.bind_eq_some_iff.mp here
  rw [rowLocked, List.any_eq_false] at free
  have clear := free phase (List.mem_of_getElem? listed)
  rw [holds, Option.any_some, Bool.not_eq_true] at clear
  exact (sameJob_eq_false.mp clear).symm

/-- A call that moves on without taking a row keeps the rows of the others apart. -/
theorem Locked.set {calls : List IngestionPhase} (locked : Locked calls) {call : Nat}
    (kept : ∀ row, next.heldRow = some row → (calls[call]?).bind (·.heldRow) = some row ∨
      ∀ i held, i ≠ call → (calls[i]?).bind (·.heldRow) = some held →
        Apart held.identity row.identity) :
    Locked (calls.set call next) := by
  have look (i : Nat) (row : IngestionJobRow) (holds : ((calls.set call next)[i]?).bind (·.heldRow) = some row) :
      i = call ∧ next.heldRow = some row ∨ i ≠ call ∧ (calls[i]?).bind (·.heldRow) = some row := by
    by_cases same : call = i
    · subst same
      rw [List.getElem?_set_self'] at holds
      obtain ⟨phase, set, holds⟩ := Option.bind_eq_some_iff.mp holds
      obtain ⟨_, -, same⟩ := Option.map_eq_some_iff.mp set
      exact .inl ⟨rfl, by rw [← holds, ← same]; rfl⟩
    · rw [List.getElem?_set_ne same] at holds
      exact .inr ⟨Ne.symm same, holds⟩
  intro i j a b different first second
  rcases look i a first with ⟨rfl, mine⟩ | ⟨elsewhere, held⟩
  · rcases look j b second with ⟨rfl, -⟩ | ⟨other, second⟩
    · exact absurd rfl different
    · rcases kept a mine with before | apart
      · exact locked i j a b different before second
      · exact (apart j b other second).symm
  · rcases look j b second with ⟨rfl, mine⟩ | ⟨-, second⟩
    · rcases kept b mine with before | apart
      · exact locked i j a b different held before
      · exact apart i a elsewhere held
    · exact locked i j a b different held second

theorem newEvent_ok {job : IngestionJob} {kind : IngestionJobEventKind} {now : DateTime}
    {workerId errorCode : Option String} {count : Nat} {event : IngestionJobEvent}
    (made : newEvent job kind now workerId errorCode count = .ok event) :
    event.jobId = job.jobId ∧ event.kind = kind ∧ event.sequenceNumber = count + 1 := by
  have fields := IngestionJobEvent.make_ok made
  rw [fields]
  exact ⟨rfl, rfl, rfl⟩

theorem length_events (jobId : UUID) :
    (events tables jobId).length = (committedEvents tables jobId).length := by
  rw [events, List.length_insertionSort, committedEvents]

theorem committedEvents_fresh (exact : Exact tables) {job : IngestionJob}
    (fresh : ∀ identity ∈ identities tables, Apart identity job.identity) :
    committedEvents tables job.jobId = [] := by
  rw [committedEvents, List.filter_eq_nil_iff]
  intro event member same
  obtain ⟨row, listed, named⟩ := exact.owned event member
  exact (fresh row.identity (List.mem_map_of_mem listed)).1 (named.trans (decide_eq_true_eq.mp same))

theorem mem_of_getRow {jobId : UUID} {row : IngestionJobRow} (found : getRow tables jobId = some row) :
    row ∈ tables.jobs := List.mem_of_find?_eq_some found

theorem mem_of_getByKey {key : String} {row : IngestionJobRow}
    (found : getByIdempotencyKey tables key = some row) : row ∈ tables.jobs :=
  List.mem_of_find?_eq_some found

/-- The next step of a call, as it changes the tables and its own phase. -/
structure Moves (s : IngestionSystem) (call : Nat) (phase next : IngestionPhase)
    (tables : IngestionTables) : Prop where
  exact : Exact tables
  grows : ∀ identity ∈ identities s.tables, identity ∈ identities tables
  /-- What is new was held by the call. -/
  gained : ∀ identity ∈ identities tables, identity ∈ identities s.tables ∨
    ∃ row, phase.heldRow = some row ∧ row.identity = identity
  sound : Sound tables next
  kept : ∀ row, next.heldRow = some row → phase.heldRow = some row ∨ s.rowLocked row = false

theorem Sound.mono {tables' : IngestionTables} (sound : Sound tables phase)
    (grows : ∀ identity ∈ identities tables, identity ∈ identities tables')
    (apart : ∀ row, phase.heldRow = some row → ∀ identity ∈ identities tables',
      identity ∈ identities tables ∨ Apart identity row.identity) : Sound tables' phase := by
  cases phase with
  | added job stored own now =>
      obtain ⟨rfl, same, fresh⟩ := sound
      refine ⟨rfl, same, fun identity member => ?_⟩
      rcases apart (rowValues job) rfl identity member with old | new
      · exact fresh identity old
      · exact new
  | appended job stored own event =>
      obtain ⟨rfl, same, fresh, rest⟩ := sound
      refine ⟨rfl, same, fun identity member => ?_, rest⟩
      rcases apart (rowValues job) rfl identity member with old | new
      · exact fresh identity old
      · exact new
  | updating u => exact ⟨grows _ sound.1, sound.2⟩
  | returned job stored => exact ⟨sound.1, grows _ sound.2⟩
  | enqueueing | lookedUp | reading | returnedNone | raised => trivial

theorem Moves.invariant {call : Nat} (moves : Moves s call phase next tables) (inv : s.Invariant)
    (here : s.calls[call]? = some phase) :
    Invariant { s with tables, calls := s.calls.set call next } := by
  refine ⟨moves.exact, ?_, ?_⟩
  · intro other member
    obtain ⟨i, found⟩ := List.mem_iff_getElem?.mp member
    by_cases same : call = i
    · subst same
      rw [List.getElem?_set_self', here] at found
      cases found
      exact moves.sound
    · rw [List.getElem?_set_ne same] at found
      apply (inv.sound other (List.mem_of_getElem? found)).mono moves.grows
      intro row holds identity inside
      rcases moves.gained identity inside with old | ⟨mine, held, rfl⟩
      · exact .inl old
      · apply Or.inr
        exact inv.locked call i mine row same (by rw [here]; exact held) (by rw [found]; exact holds)
  · apply inv.locked.set
    intro row holds
    rcases moves.kept row holds with before | free
    · exact .inl (by rw [here]; exact before)
    · exact .inr fun i held _ there => rowLocked_eq_false free there

/-- A step that writes nothing and takes no row. -/
theorem Moves.quiet {call : Nat} (inv : s.Invariant) (sound : Sound s.tables next)
    (kept : next.heldRow = none ∨ next.heldRow = phase.heldRow) :
    Moves s call phase next s.tables := by
  refine ⟨inv.exact, fun _ member => member, fun _ member => .inl member, sound, fun row holds => ?_⟩
  rcases kept with idle | same
  · rw [idle] at holds
    cases holds
  · exact .inl (same ▸ holds)

theorem enqueueStep_moves {call : Nat} (inv : s.Invariant) (here : s.calls[call]? = some phase)
    (uncontended : s.Uncontended (.proceed call chosen))
    (taken : s.enqueueStep configuration phase = some (tables, next)) :
    Moves s call phase next tables := by
  have own := inv.sound phase (List.mem_of_getElem? here)
  have returns {row : IngestionJobRow} (listed : row ∈ s.tables.jobs) :
      Sound s.tables (.returned (jobFromRow row) row) := by
    have same := inv.exact.stored row listed
    refine ⟨?_, List.mem_map_of_mem listed⟩
    change rowValues (rowValues row) = row
    rw [same, same]
  cases phase with
  | enqueueing command now =>
      rw [enqueueStep] at taken
      split at taken
      · cases taken
        exact .quiet inv trivial (.inl rfl)
      · split at taken
        · rename_i existing found
          cases taken
          exact .quiet inv (returns (mem_of_getByKey found)) (.inl rfl)
        · cases taken
          exact .quiet inv trivial (.inl rfl)
  | lookedUp job now =>
      rw [Uncontended, here] at uncontended
      dsimp only at uncontended
      rw [enqueueStep] at taken
      split at taken
      · cases taken
      · rename_i free
        split at taken
        · rw [uncontended] at taken
          cases taken
          exact .quiet inv trivial (.inl rfl)
        · rename_i clear
          cases taken
          rw [Bool.not_eq_true] at free clear
          refine ⟨inv.exact, fun _ member => member, fun _ member => .inl member, ?_, ?_⟩
          · refine ⟨rfl, rfl, fun identity member => ?_⟩
            obtain ⟨row, listed, rfl⟩ := List.mem_map.mp member
            rw [List.any_eq_false] at clear
            have apart := sameJob_eq_false.mp (Bool.not_eq_true _ ▸ clear row listed)
            exact apart.symm
          · rintro row ⟨⟩
            exact .inr free
  | added job stored ownRow now =>
      obtain ⟨rfl, same, fresh⟩ := own
      rw [enqueueStep] at taken
      split at taken
      · cases taken
        exact .quiet inv trivial (.inl rfl)
      · rename_i event made
        split at taken
        · cases taken
        · split at taken
          · cases taken
            exact .quiet inv trivial (.inl rfl)
          · cases taken
            obtain ⟨named, kind, sequence⟩ := newEvent_ok made
            rw [length_events, committedEvents_fresh inv.exact fresh] at sequence
            exact .quiet inv ⟨rfl, same, fresh, named, kind, sequence⟩ (.inr rfl)
  | appended job stored ownRow event =>
      obtain ⟨rfl, rfl, fresh, named, kind, sequence⟩ := own
      cases taken
      have gained : identities ⟨s.tables.jobs ++ [rowValues job], s.tables.events ++ [eventRow event]⟩ =
          identities s.tables ++ [job.identity] := by
        rw [identities, List.map_append]
        rfl
      refine ⟨inv.exact.insert fresh named kind sequence, ?_, ?_, ?_, fun row holds => by cases holds⟩
      · intro identity member
        rw [if_pos rfl, gained]
        exact List.mem_append_left _ member
      · intro identity member
        rw [if_pos rfl, gained] at member
        rcases List.mem_append.mp member with old | new
        · exact .inl old
        · exact .inr ⟨rowValues job, rfl, (List.mem_singleton.mp new).symm⟩
      · refine ⟨rfl, ?_⟩
        rw [if_pos rfl, gained]
        exact List.mem_append_right _ (List.mem_singleton_self _)
  | reading | updating | returned | returnedNone | raised => cases taken

theorem reading_moves {call : Nat} {operation : IngestionOperation} {now : DateTime}
    (inv : s.Invariant)
    (taken : s.operationStep configuration chosen (.reading operation now) = some (tables, next)) :
    Moves s call (.reading operation now) next tables := by
  rw [operationStep] at taken
  split at taken
  · cases taken
    exact .quiet inv trivial (.inl rfl)
  · cases taken
    exact .quiet inv trivial (.inl rfl)
  · rename_i row found
    split at taken
    · cases taken
      exact .quiet inv trivial (.inl rfl)
    · split at taken
      · cases taken
        exact .quiet inv trivial (.inl rfl)
      · rename_i plan made
        cases taken
        have planOf := plan_eq_ok made
        have same : plan.updated.identity = row.identity :=
          Prod.ext planOf.advances.identity.1 planOf.advances.identity.2
        have sound : Sound s.tables (.updating ⟨operation, now, row, plan⟩) :=
          ⟨same ▸ List.mem_map_of_mem (mem_of_getRow found), planOf.kind⟩
        exact .quiet inv sound (.inl rfl)

theorem updating_moves {call : Nat} {u : PlannedUpdate} (inv : s.Invariant)
    (own : Sound s.tables (.updating u))
    (taken : s.operationStep configuration chosen (.updating u) = some (tables, next)) :
    Moves s call (.updating u) next tables := by
  obtain ⟨operation, now, read, plan⟩ := u
  obtain ⟨listed, other⟩ := own
  rw [operationStep] at taken
  split at taken
  · split at taken
    · cases taken
      exact .quiet inv trivial (.inl rfl)
    · rename_i event made
      split at taken
      · cases taken
      · split at taken
        · cases taken
          exact .quiet inv trivial (.inl rfl)
        · cases taken
          obtain ⟨named, kind, -⟩ := newEvent_ok made
          have same : identities ⟨(update s.tables plan.updated).jobs,
              (update s.tables plan.updated).events ++ [eventRow event]⟩ = identities s.tables :=
            identities_update inv.exact listed _
          refine ⟨inv.exact.update listed named (kind.trans_ne other), ?_, ?_, ?_,
            fun row holds => by cases holds⟩
          · rw [same]
            exact fun _ member => member
          · rw [same]
            exact fun _ member => .inl member
          · refine ⟨rfl, ?_⟩
            rw [same]
            exact listed
  · split at taken
    · cases taken
      exact .quiet inv trivial (.inl rfl)
    · cases taken
      exact .quiet inv trivial (.inl rfl)

theorem enter_invariant {now : DateTime} (inv : s.Invariant) (taken : s.enter now phase = some t)
    (sound : Sound s.tables phase) (idle : phase.heldRow = none) : t.Invariant := by
  rw [enter] at taken
  split at taken
  · cases taken
    have look (i : Nat) (row : IngestionJobRow)
        (holds : ((s.calls ++ [phase])[i]?).bind (·.heldRow) = some row) :
        (s.calls[i]?).bind (·.heldRow) = some row := by
      rcases Nat.lt_or_ge i s.calls.length with inside | outside
      · rwa [List.getElem?_append_left inside] at holds
      · obtain ⟨last, found, holds⟩ := Option.bind_eq_some_iff.mp holds
        rw [List.getElem?_append_right outside] at found
        have same := List.mem_singleton.mp (List.mem_of_getElem? found)
        rw [same, idle] at holds
        cases holds
    refine ⟨inv.exact, fun other member => ?_, fun i j a b different first second => ?_⟩
    · rcases List.mem_append.mp member with old | new
      · exact inv.sound other old
      · rw [List.mem_singleton.mp new]
        exact sound
    · exact inv.locked i j a b different (look i a first) (look j b second)
  · cases taken

/-- Every step keeps the invariant, as long as no insert meets a row of its key. -/
theorem step_invariant {action : IngestionAction} (inv : s.Invariant)
    (uncontended : s.Uncontended action) (taken : s.step configuration action = some t) :
    t.Invariant := by
  cases action with
  | enqueue command now => exact enter_invariant inv taken trivial rfl
  | operate operation now =>
      rw [step.eq_def] at taken
      dsimp only at taken
      split at taken
      · split at taken
        · exact enter_invariant inv taken trivial rfl
        · exact enter_invariant inv taken trivial rfl
      · exact enter_invariant inv taken trivial rfl
  | rollback call =>
      obtain ⟨phase, here, taken⟩ := Option.bind_eq_some_iff.mp taken
      split at taken
      · cases taken
        have sound : Sound s.tables (.raised ⟨.operational, "rolled back"⟩) := trivial
        exact (Moves.quiet inv sound (.inl rfl)).invariant inv here
      · cases taken
  | proceed call chosen =>
      obtain ⟨phase, here, taken⟩ := Option.bind_eq_some_iff.mp taken
      obtain ⟨⟨tables, next⟩, moved, same⟩ := Option.bind_eq_some_iff.mp taken
      cases same
      rcases Option.or_eq_some_iff.mp moved with enqueued | ⟨-, operated⟩
      · exact (enqueueStep_moves inv here uncontended enqueued).invariant inv here
      · cases phase with
        | reading operation now => exact (reading_moves inv operated).invariant inv here
        | updating u =>
            have own := inv.sound _ (List.mem_of_getElem? here)
            exact (updating_moves inv own operated).invariant inv here
        | enqueueing | lookedUp | added | appended | returned | returnedNone | raised => cases operated

/-- Enqueueing has happened exactly once for every key: one row, one event that enqueues it, the
first of its log, and calls that return the row which they found or left. -/
structure EnqueuedExactlyOnce (s : IngestionSystem) : Prop where
  rows : (s.tables.jobs.map (·.idempotencyKey)).Nodup
  events : ∀ row ∈ s.tables.jobs, ∃ event,
    (events s.tables row.jobId).filter (·.kind = .enqueued) = [event] ∧ event.sequenceNumber = 1
  calls : ∀ job stored, IngestionPhase.returned job stored ∈ s.calls → rowValues job = stored ∧
    ∃ row ∈ s.tables.jobs, row.jobId = stored.jobId ∧ row.idempotencyKey = stored.idempotencyKey

theorem Invariant.exactlyOnce (inv : s.Invariant) : EnqueuedExactlyOnce s := by
  constructor
  · have keys : s.tables.jobs.map (·.idempotencyKey) = (identities s.tables).map Prod.snd := by
      rw [identities, List.map_map]
      rfl
    rw [keys, List.Nodup, List.pairwise_map]
    exact inv.exact.distinct.imp And.right
  · intro row member
    obtain ⟨first, rest, log, kind, sequence, later⟩ := inv.exact.logged row member
    have sorted : (events s.tables row.jobId).Perm (first :: rest) := by
      rw [← log]
      exact List.perm_insertionSort _ _
    have only : (first :: rest).filter (·.kind = .enqueued) = [first] := by
      rw [List.filter_cons, if_pos (decide_eq_true kind), List.filter_eq_nil_iff.mpr]
      exact fun event inside => by simpa using later event inside
    have filtered := sorted.filter fun event : IngestionJobEvent => event.kind = .enqueued
    rw [only] at filtered
    exact ⟨first, List.perm_singleton.mp filtered, sequence⟩
  · intro job stored member
    obtain ⟨same, listed⟩ := inv.sound _ member
    obtain ⟨row, inside, identity⟩ := List.mem_map.mp listed
    exact ⟨same, row, inside, congrArg Prod.fst identity, congrArg Prod.snd identity⟩

/-- In every run whose inserts meet no committed row of their key, enqueueing is exactly-once in
every state, whatever other operations do in between. -/
theorem enqueued_exactly_once {clock : DateTime}
    (run : Run (step configuration) Uncontended (start .empty clock) s) : EnqueuedExactlyOnce s := by
  have inv : s.Invariant := by
    apply run.invariant
    · exact ⟨exact_empty, fun _ absent => absurd absent List.not_mem_nil,
        fun i j a b _ absent => by cases absent⟩
    · exact fun s t action inv uncontended taken => step_invariant inv uncontended taken
  exact inv.exactlyOnce

/-- Two calls look up the key before either has inserted its row. -/
def racingEnqueues : List IngestionAction :=
  [.enqueue sampleCommand ⟨.utc, 0⟩, .enqueue sampleCommand ⟨.utc, 1⟩, .proceed 0 ⟨0⟩, .proceed 1 ⟨0⟩]

/-- One enqueueing after the other is a run of the kind the theorem is about. -/
theorem enqueued_exactly_once_sample :
    ∃ s, Run (step DEFAULT_INGESTION_JOB_CONFIGURATION) Uncontended (start .empty ⟨.utc, 0⟩) s ∧
      s.tables.jobs.length = 1 ∧ EnqueuedExactlyOnce s := by
  obtain ⟨s, run, test⟩ := Run.exists_of_checked (step DEFAULT_INGESTION_JOB_CONFIGURATION)
    Uncontended (start .empty ⟨.utc, 0⟩)
    [.enqueue sampleCommand ⟨.utc, 0⟩, .proceed 0 ⟨0⟩, .proceed 0 ⟨0⟩, .proceed 0 ⟨0⟩, .proceed 0 ⟨0⟩,
      .enqueue sampleCommand ⟨.utc, 1⟩, .proceed 1 ⟨0⟩]
    (fun s => s.tables.jobs.length = 1) (by decide +kernel)
  exact ⟨s, run, decide_eq_true_eq.mp test, enqueued_exactly_once run⟩

/-- The loser of the race appends a second event and returns its own copy. -/
theorem racing_enqueues_twice :
    ∃ s, Run (step DEFAULT_INGESTION_JOB_CONFIGURATION) (fun _ _ => True)
        (start .empty ⟨.utc, 0⟩) s ∧
      s.tables.events.map (·.kind) = [.enqueued, .enqueued] ∧ ¬EnqueuedExactlyOnce s := by
  obtain ⟨s, run, test⟩ := Run.exists_of_checked (step DEFAULT_INGESTION_JOB_CONFIGURATION)
    (fun _ _ => True) (start .empty ⟨.utc, 0⟩)
    (racingEnqueues ++ [.proceed 0 ⟨0⟩, .proceed 0 ⟨0⟩, .proceed 0 ⟨0⟩, .proceed 1 ⟨0⟩,
      .proceed 1 ⟨0⟩, .proceed 1 ⟨0⟩])
    (fun s => s.tables.events.map (·.kind) = [.enqueued, .enqueued] &&
      s.tables.jobs.any fun row =>
        ((events s.tables row.jobId).filter (·.kind = .enqueued)).length = 2) (by decide +kernel)
  simp only [Bool.and_eq_true, decide_eq_true_eq, List.any_eq_true] at test
  obtain ⟨kinds, row, stored, twice⟩ := test
  refine ⟨s, run, kinds, fun once => ?_⟩
  obtain ⟨event, only, -⟩ := once.events row stored
  rw [only] at twice
  cases twice

end IngestionSystem

end Cinegraph
