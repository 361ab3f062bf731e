import Cinegraph.NetflixHistory.Import
import Mathlib.Data.List.ReduceOption

/-!
Whether an import and the watch log agree. A commit appends its events before it saves its status,
so between the two, and for ever if it does not come to its end, they do not.
-/

namespace Cinegraph.NetflixHistory

open Library Identity

variable {configuration : NetflixHistoryImportConfiguration}
  {resolve : NetflixViewingHistoryRow → NetflixTitleResolution} {s t : State} {a : Action}
  {importId : UUID} {record : NetflixHistoryImportRecord} {thread : Nat}

/-- The watch events that an import appended. -/
def eventsOf (s : State) (importId : UUID) : List WatchEvent :=
  (s.appended.filter fun entry => entry.1 = importId).map Prod.snd

/-- A committed import counts its events and names their episodes, and any other has none. -/
def Agrees (record : NetflixHistoryImportRecord) (events : List WatchEvent) : Prop :=
  match record.status with
  | .committed => record.importedEventCount = events.length ∧
      ∀ event ∈ events, event.episode.episodeId ∈ record.approvedEpisodeIds
  | .pendingReview | .expired => events = []

def AllAgree (s : State) : Prop :=
  ∀ importId record, s.imports.get importId = some record → Agrees record (eventsOf s importId)

/-- The events that a call has appended for an import. -/
def carriedBy (call : Option Call) (importId : UUID) : List WatchEvent :=
  match call.bind Call.commit? with
  | some commit => if commit.importId = importId then commit.written else []
  | none => []

/-- The events that a thread has appended for an import, in the commit that it carries out. -/
def State.carried (s : State) (thread : Nat) (importId : UUID) : List WatchEvent :=
  carriedBy (s.calls thread) importId

/-- No commit of the import is under way. -/
def Idle (s : State) (importId : UUID) : Prop :=
  ∀ thread commit, (s.calls thread).bind Call.commit? = some commit → commit.importId ≠ importId

/-- No other commit of the import has appended an event. -/
def Alone (s : State) (thread : Nat) (importId : UUID) : Prop :=
  ∀ other, other ≠ thread → s.carried other importId = []

/-- What the write of the next episode comes to. -/
def State.writeOf (s : State) (thread : Nat) (eventId : UUID) (occurredAt : DateTime) :
    Option (Commit × Except Raised (WatchEvent × InMemoryWatchProgressRepository)) :=
  match s.calls thread with
  | some (.marking commit episode current) =>
      some (commit, MarkEpisodeWatchedService.write s.watch current commit.record.profileId episode
        .netflixCsv eventId occurredAt)
  | _ => none

/-- A step that appends no event. -/
def Silent (s : State) : Action → Prop
  | .writeEpisode thread eventId occurredAt =>
      ∀ commit appended, s.writeOf thread eventId occurredAt ≠ some (commit, .ok appended)
  | _ => True

/-- A step in which no commit that has appended an event raises, and a commit appends or is saved
only if no other commit of the import has appended an event, and appends only if the import is not
committed. -/
def Undisturbed (s : State) : Action → Prop
  | .interrupt thread => ∀ importId, s.carried thread importId = []
  | .readEpisode thread => ∀ commit, s.calls thread = some (.writing commit) →
      s.watch.get commit.record.profileId = none → commit.written = []
  | .writeEpisode thread eventId occurredAt =>
      ∀ commit result, s.writeOf thread eventId occurredAt = some (commit, result) →
        match result with
        | .error _ => commit.written = []
        | .ok _ => Alone s thread commit.importId ∧
            (s.imports.get commit.importId).map (·.status) ≠ some .committed
  | .saveCommitted thread => ∀ commit, s.calls thread = some (.writing commit) →
      if (s.imports.get commit.importId).map (·.status) = some .pendingReview then
        Alone s thread commit.importId
      else commit.written = []
  | _ => True

/-! ### What every run keeps -/

theorem Commit.committed_importId (commit : Commit) : commit.committed.importId = commit.record.importId :=
  rfl

/-- What a commit has left to do and what it has appended is among its approved episodes. -/
structure Commit.Sound (commit : Commit) : Prop where
  remaining : ∀ episode ∈ commit.remaining, episode.episodeId ∈ commit.episodeIds
  written : ∀ event ∈ commit.written, event.episode.episodeId ∈ commit.episodeIds

def Call.Sound : Call → Prop
  | .writing commit => commit.Sound
  | .marking commit episode _ => commit.Sound ∧ episode ∈ commit.remaining
  | _ => True

structure Sound (s : State) : Prop where
  keyed : ∀ importId record, s.imports.get importId = some record → record.importId = importId
  stored : ∀ thread commit, (s.calls thread).bind Call.commit? = some commit →
    s.imports.get commit.importId ≠ none
  known : ∀ entry ∈ s.appended, s.imports.get entry.1 ≠ none
  calls : ∀ thread, ∀ call ∈ s.calls thread, call.Sound

/-- A write of the imports that commits none and loses none. -/
structure Reviews (old new : InMemoryNetflixHistoryImportRepository) : Prop where
  kept : ∀ importId, old.get importId ≠ none → new.get importId ≠ none
  found : ∀ importId record, new.get importId = some record → old.get importId = some record ∨
    record.importId = importId ∧ record.status ≠ .committed ∧
      ∀ before, old.get importId = some before → before.status ≠ .committed

/-- What a step leaves that changes one call and appends and commits nothing. -/
structure Quiet (s t : State) (thread : Nat) (call : Option Call) : Prop where
  calls : t.calls = Function.update s.calls thread call
  appended : t.appended = s.appended
  imports : Reviews s.imports t.imports
  sound : ∀ next ∈ call, next.Sound
  stored : ∀ commit, call.bind Call.commit? = some commit → s.imports.get commit.importId ≠ none

theorem Reviews.refl (imports : InMemoryNetflixHistoryImportRepository) : Reviews imports imports :=
  ⟨fun _ => id, fun _ _ => .inl⟩

theorem get_of_records {old new : InMemoryNetflixHistoryImportRepository}
    (written : new.records = old.records.set record.importId record) (importId : UUID) :
    new.get importId = if importId = record.importId then some record else old.get importId := by
  rw [InMemoryNetflixHistoryImportRepository.get, written, Dict.get?_set]
  rfl

theorem Reviews.of_records {old new : InMemoryNetflixHistoryImportRepository}
    (written : new.records = old.records.set record.importId record)
    (status : record.status ≠ .committed)
    (before : ∀ current, old.get record.importId = some current → current.status ≠ .committed) :
    Reviews old new where
  kept importId present := by
    rw [get_of_records written]
    split
    · exact Option.some_ne_none _
    · exact present
  found importId found stored := by
    rw [get_of_records written] at stored
    split at stored
    · cases stored
      subst importId
      exact .inr ⟨rfl, status, before⟩
    · exact .inl stored

theorem Reviews.add {old new : InMemoryNetflixHistoryImportRepository} (added : old.add record = .ok new)
    (status : record.status ≠ .committed) : Reviews old new := by
  obtain ⟨absent, written⟩ := InMemoryNetflixHistoryImportRepository.add_ok added
  refine .of_records written status fun current found => ?_
  rw [absent] at found
  cases found

theorem Reviews.save {old new : InMemoryNetflixHistoryImportRepository}
    {expected : NetflixHistoryImportStatus} (saved : old.save record expected = .ok new)
    (status : record.status ≠ .committed) (reviewed : expected ≠ .committed) : Reviews old new := by
  obtain ⟨⟨current, found, same⟩, written⟩ := InMemoryNetflixHistoryImportRepository.save_ok saved
  refine .of_records written status fun before here => ?_
  rw [found] at here
  cases here
  exact same ▸ reviewed

theorem Reviews.expireSensitiveContent (sound : Sound s) (now : DateTime) :
    Reviews s.imports (s.imports.expireSensitiveContent now) := by
  constructor
  · intro importId present
    rw [InMemoryNetflixHistoryImportRepository.get,
      InMemoryNetflixHistoryImportRepository.expireSensitiveContent, Dict.get?_mapValues]
    exact Option.map_eq_none_iff.not.mpr present
  · intro importId record found
    rw [InMemoryNetflixHistoryImportRepository.get,
      InMemoryNetflixHistoryImportRepository.expireSensitiveContent, Dict.get?_mapValues] at found
    obtain ⟨before, here, rfl⟩ := Option.map_eq_some_iff.mp found
    split
    case isFalse => exact .inl here
    case isTrue outdated =>
      refine .inr ⟨sound.keyed importId before here, by simp [NetflixHistoryImportRecord.expire],
        fun other also => ?_⟩
      change s.imports.records.get? importId = some other at also
      rw [here] at also
      cases also
      rw [outdated.1]
      decide

/-! ### What one step does -/

/-- What a step comes to: it changes one call, or appends an event, or saves a commit. -/
inductive Effect (s : State) : Action → State → Prop where
  | quiet {a : Action} {t : State} {thread : Nat} {call : Option Call} (quiet : Quiet s t thread call)
      (silent : Silent s a)
      (same : Undisturbed s a → ∀ importId, carriedBy call importId = s.carried thread importId) :
      Effect s a t
  | append {thread : Nat} {eventId : UUID} {occurredAt : DateTime} {commit : Commit}
      {episode : EpisodeRef} {event : WatchEvent} {watch : InMemoryWatchProgressRepository}
      {current : ProfileWatchState} (marking : s.calls thread = some (.marking commit episode current))
      (named : event.episode = episode)
      (written : s.writeOf thread eventId occurredAt = some (commit, .ok (event, watch))) :
      Effect s (.writeEpisode thread eventId occurredAt) (State.put { s with
          watch := watch
          appended := s.appended ++ [(commit.importId, event)] }
        thread (some (.writing (commit.after (some event)))))
  | save {thread : Nat} {commit : Commit} {imports : InMemoryNetflixHistoryImportRepository}
      (writing : s.calls thread = some (.writing commit))
      (saved : s.imports.save commit.committed .pendingReview = .ok imports) :
      Effect s (.saveCommitted thread) (State.put { s with imports := imports } thread none)

@[simp] theorem carriedBy_none : carriedBy none importId = [] := rfl

theorem carriedBy_of_none {call : Option Call} (idle : call.bind Call.commit? = none) :
    carriedBy call importId = [] := by
  rw [carriedBy, idle]

theorem carriedBy_of_some {call : Option Call} {commit : Commit}
    (carries : call.bind Call.commit? = some commit) :
    carriedBy call importId = if commit.importId = importId then commit.written else [] := by
  rw [carriedBy, carries]

theorem quiet_put {call : Option Call} (known : ∀ next ∈ call, next.Sound)
    (stored : ∀ commit, call.bind Call.commit? = some commit → s.imports.get commit.importId ≠ none) :
    Quiet s (s.put thread call) thread call :=
  ⟨rfl, rfl, .refl _, known, stored⟩

theorem quiet_drop : Quiet s (s.put thread none) thread none :=
  quiet_put (fun _ found => by cases found) fun _ found => by cases found

/-- A call that carries no commit goes on to one that carries none. -/
theorem Effect.put {call : Option Call} (silent : Silent s a)
    (before : (s.calls thread).bind Call.commit? = none) (after : call.bind Call.commit? = none)
    (known : ∀ next ∈ call, next.Sound) : Effect s a (s.put thread call) :=
  .quiet (quiet_put known fun _ found => by rw [after] at found; cases found) silent fun _ _ =>
    (carriedBy_of_none after).trans (carriedBy_of_none before).symm

theorem Effect.store {write : Except Raised InMemoryNetflixHistoryImportRepository} {next : Option Call}
    (silent : Silent s a) (before : (s.calls thread).bind Call.commit? = none)
    (after : next.bind Call.commit? = none) (known : ∀ call ∈ next, call.Sound)
    (reviews : ∀ imports, write = .ok imports → Reviews s.imports imports) :
    Effect s a (s.store thread write next) := by
  cases write with
  | error raised => exact .put silent before rfl fun _ found => by cases found
  | ok imports =>
      have quiet : Quiet s (s.store thread (.ok imports) next) thread next := by
        refine ⟨rfl, rfl, reviews imports rfl, known, fun _ found => ?_⟩
        rw [after] at found
        cases found
      refine .quiet quiet silent fun _ _ => ?_
      exact (carriedBy_of_none after).trans (carriedBy_of_none before).symm

theorem Effect.stay (silent : Silent s a) (sound : Sound s) (calls : t.calls = s.calls)
    (appended : t.appended = s.appended) (imports : Reviews s.imports t.imports) : Effect s a t :=
  have quiet : Quiet s t 0 (s.calls 0) :=
    ⟨by rw [calls, Function.update_eq_self], appended, imports, sound.calls 0, sound.stored 0⟩
  .quiet quiet silent fun _ _ => rfl

theorem uniqueEpisodes_get {approved : List EpisodeRef} {id : UUID} {episode : EpisodeRef}
    (found : (uniqueEpisodes approved).get? id = some episode) : episode.episodeId = id := by
  have member := Dict.mem_of_get?_ofList found
  obtain ⟨_, _, same⟩ := List.mem_map.mp member
  cases same
  rfl

/-- A planned commit is of the record that was found, and has approved what it has left to do. -/
theorem planCommit_write {principal : SessionPrincipal} {command : CommitNetflixHistoryImportCommand}
    {found : Option NetflixHistoryImportRecord} {now : DateTime} {commit : Commit}
    (planned : planCommit principal command found now = .ok (.write commit)) :
    found = some commit.record ∧ commit.Sound ∧ commit.written = [] := by
  simp only [planCommit, unit_bind_eq_ok] at planned
  obtain ⟨_, planned⟩ := planned
  cases found with
  | none => cases planned
  | some record =>
      simp only [reject_bind_eq_ok] at planned
      obtain ⟨_, planned⟩ := planned
      cases status : record.status <;> simp only [status] at planned
      case committed => cases planned
      case expired => cases planned
      case pendingReview =>
        split at planned
        · cases planned
        simp only [bind_eq_ok] at planned
        obtain ⟨_, _, approved, _, made⟩ := planned
        cases made
        refine ⟨rfl, ⟨fun episode left => ?_, fun event written => by cases written⟩, rfl⟩
        obtain ⟨id, listed, found⟩ := List.mem_filterMap.mp left
        rw [uniqueEpisodes_get found]
        exact listed

theorem Commit.written_after (commit : Commit) (outcome : Option WatchEvent) :
    (commit.after outcome).written = commit.written ++ outcome.toList := by
  simp [Commit.written, Commit.after, List.reduceOption_append, List.reduceOption_singleton]

theorem Commit.Sound.after {commit : Commit} (sound : commit.Sound) {outcome : Option WatchEvent}
    (named : ∀ event ∈ outcome, event.episode.episodeId ∈ commit.episodeIds) :
    (commit.after outcome).Sound where
  remaining episode left := sound.remaining episode (List.mem_of_mem_tail left)
  written event appended := by
    rw [Commit.written_after, List.mem_append, Option.mem_toList] at appended
    rcases appended with earlier | last
    · exact sound.written event earlier
    · exact named event last

/-- A call that goes on with its commit. -/
theorem Effect.goOn {call : Option Call} {commit later : Commit} (silent : Silent s a) (sound : Sound s)
    (before : (s.calls thread).bind Call.commit? = some commit)
    (after : call.bind Call.commit? = some later) (same : later.importId = commit.importId)
    (written : later.written = commit.written) (known : ∀ next ∈ call, next.Sound) :
    Effect s a (s.put thread call) := by
  refine .quiet (quiet_put known fun other found => ?_) silent fun _ importId => ?_
  · rw [after] at found
    cases found
    rw [same]
    exact sound.stored thread commit before
  · rw [State.carried, carriedBy_of_some after, carriedBy_of_some before, same, written]

/-- A commit that raises, which is undisturbed if it has appended nothing. -/
theorem Effect.raise {commit : Commit} (silent : Silent s a)
    (before : (s.calls thread).bind Call.commit? = some commit)
    (empty : Undisturbed s a → commit.written = []) : Effect s a (s.put thread none) := by
  refine .quiet quiet_drop silent fun undisturbed importId => ?_
  rw [State.carried, carriedBy_of_some before, empty undisturbed]
  simp

/-- What each step does. -/
theorem effect (sound : Sound s) (taken : step configuration resolve s a = some t) : Effect s a t := by
  cases a with
  | prepare thread principal parsed =>
      simp only [step] at taken
      split at taken
      case h_2 => cases taken
      case h_1 _ idle _ =>
        cases taken
        exact .put trivial (by rw [idle]; rfl) rfl fun next found => by cases found; trivial
  | settle thread importId now =>
      simp only [step] at taken
      split at taken
      case h_3 => cases taken
      case h_1 principal parsed preparing =>
        cases taken
        refine .store trivial (by rw [preparing]; rfl) rfl (fun _ found => by cases found)
          fun imports added => ?_
        exact .add added (by simp [prepared])
      case h_2 _ parsed existing preparing =>
        have before : (s.calls thread).bind Call.commit? = none := by rw [preparing]; rfl
        cases status : existing.status <;> simp only [status] at taken
        case committed =>
          cases taken
          exact .put trivial before rfl fun _ found => by cases found
        case expired =>
          cases taken
          refine .store trivial before rfl (fun _ found => by cases found) fun imports saved => ?_
          exact .save saved (by simp [restarted, NetflixHistoryImportRecord.restartReview]) (by decide)
        case pendingReview =>
          split at taken <;> cases taken
          · refine .store trivial before rfl (fun next found => by cases found; trivial)
              fun imports saved => ?_
            exact .save saved (by simp [NetflixHistoryImportRecord.expire]) (by decide)
          · exact .put trivial before rfl fun _ found => by cases found
  | restart thread =>
      simp only [step] at taken
      split at taken
      case h_2 => cases taken
      case h_1 _ existing _ restarting =>
        cases taken
        refine .store trivial (by rw [restarting]; rfl) rfl (fun _ found => by cases found)
          fun imports saved => ?_
        exact .save saved (by simp [restarted, NetflixHistoryImportRecord.restartReview]) (by decide)
  | commit thread principal command now =>
      simp only [step] at taken
      split at taken
      case h_3 => cases taken
      case h_1 record idle _ =>
        cases taken
        exact .put trivial (by rw [idle]; rfl) rfl fun next found => by cases found; trivial
      case h_2 planned idle plan =>
        cases taken
        obtain ⟨found, known, empty⟩ := planCommit_write plan
        have same := sound.keyed _ _ found
        refine .quiet (quiet_put (fun next here => by cases here; exact known) fun other here => ?_)
          trivial fun _ importId => ?_
        · cases here
          rw [Commit.importId, same, found]
          exact Option.some_ne_none _
        · rw [State.carried, idle, carriedBy_none]
          change (if planned.importId = importId then planned.written else []) = []
          rw [empty, ite_self]
  | expireFound thread =>
      simp only [step] at taken
      split at taken
      case h_2 => cases taken
      case h_1 record expiring =>
        cases taken
        refine .store trivial (by rw [expiring]; rfl) rfl (fun _ found => by cases found)
          fun imports saved => ?_
        exact .save saved (by simp [NetflixHistoryImportRecord.expire]) (by decide)
  | readEpisode thread =>
      simp only [step] at taken
      split at taken
      case h_2 => cases taken
      case h_1 commit writing =>
        have before : (s.calls thread).bind Call.commit? = some commit := by rw [writing]; rfl
        have known := sound.calls thread _ writing
        cases left : commit.remaining with
        | nil =>
            simp only [left] at taken
            cases taken
        | cons episode rest =>
            simp only [left] at taken
            split at taken <;> cases taken
            case h_1 raised refused =>
              refine .raise trivial before fun undisturbed => undisturbed commit writing ?_
              unfold MarkEpisodeWatchedService.read at refused
              split at refused
              · assumption
              · cases refused
            case h_2 _ =>
              refine .goOn trivial sound before rfl rfl ?_ fun next found => ?_
              · rw [Commit.written_after, Option.toList_none, List.append_nil]
              · cases found
                exact known.after fun _ found => by cases found
            case h_3 current _ =>
              refine .goOn trivial sound before rfl rfl rfl fun next found => ?_
              cases found
              exact ⟨known, by rw [left]; exact List.mem_cons_self⟩
  | writeEpisode thread eventId occurredAt =>
      simp only [step] at taken
      split at taken
      case h_2 => cases taken
      case h_1 commit episode current marking =>
        have before : (s.calls thread).bind Call.commit? = some commit := by rw [marking]; rfl
        have known := sound.calls thread _ marking
        have write : s.writeOf thread eventId occurredAt = some (commit,
            MarkEpisodeWatchedService.write s.watch current commit.record.profileId episode .netflixCsv
              eventId occurredAt) := by
          rw [State.writeOf, marking]
        split at taken <;> cases taken
        case h_1 raised refused =>
          rw [refused] at write
          refine .raise ?_ before fun undisturbed => undisturbed commit _ write
          intro other appended same
          rw [write] at same
          cases same
        case h_2 event watch appended =>
          rw [appended] at write
          refine .append marking ?_ write
          simp only [MarkEpisodeWatchedService.write, bind_eq_ok] at appended
          obtain ⟨_, _, _, _, made⟩ := appended
          cases made
          rfl
  | saveCommitted thread =>
      simp only [step] at taken
      split at taken
      case h_2 => cases taken
      case h_1 commit writing =>
        split at taken <;> cases taken
        cases saved : s.imports.save commit.committed .pendingReview with
        | ok imports => exact .save writing saved
        | error raised =>
            refine .raise trivial (by rw [writing]; rfl) fun undisturbed => ?_
            have empty := undisturbed commit writing
            rw [if_neg] at empty
            · exact empty
            · intro current
              rw [InMemoryNetflixHistoryImportRepository.save,
                reject_of_not (by exact not_not.mpr current)] at saved
              cases saved
  | interrupt thread =>
      cases taken
      exact .quiet quiet_drop trivial fun undisturbed importId => (undisturbed importId).symm
  | expireSensitiveContent now =>
      cases taken
      exact .stay trivial sound rfl rfl (.expireSensitiveContent sound now)
  | updateWatchState watchState watchEvents expectedVersion =>
      simp only [step] at taken
      split at taken <;> cases taken
      · exact .stay trivial sound rfl rfl (.refl _)
      · exact .stay trivial sound rfl rfl (.refl _)

theorem Reviews.keyed {old new : InMemoryNetflixHistoryImportRepository} (reviews : Reviews old new)
    (keyed : ∀ importId record, old.get importId = some record → record.importId = importId)
    (found : new.get importId = some record) : record.importId = importId := by
  rcases reviews.found importId record found with before | ⟨same, _⟩
  · exact keyed importId record before
  · exact same

theorem carried_update {call : Option Call} {other : Nat}
    (calls : t.calls = Function.update s.calls thread call) :
    t.carried other importId = if other = thread then carriedBy call importId
      else s.carried other importId := by
  rw [State.carried, calls]
  rcases eq_or_ne other thread with rfl | different
  · rw [Function.update_self, if_pos rfl]
  · rw [Function.update_of_ne different, if_neg different, State.carried]

/-- A step of one call that loses no import and appends only for imports that are stored. -/
theorem Sound.of_update {call : Option Call} (sound : Sound s)
    (calls : t.calls = Function.update s.calls thread call)
    (keyed : ∀ importId record, t.imports.get importId = some record → record.importId = importId)
    (kept : ∀ importId, s.imports.get importId ≠ none → t.imports.get importId ≠ none)
    (known : ∀ entry ∈ t.appended, s.imports.get entry.1 ≠ none) (here : ∀ next ∈ call, next.Sound)
    (stored : ∀ commit, call.bind Call.commit? = some commit → s.imports.get commit.importId ≠ none) :
    Sound t where
  keyed := keyed
  stored other commit found := by
    apply kept
    rw [calls] at found
    rcases eq_or_ne other thread with rfl | different
    · rw [Function.update_self] at found
      exact stored commit found
    · rw [Function.update_of_ne different] at found
      exact sound.stored other commit found
  known entry member := kept _ (known entry member)
  calls other next found := by
    rw [calls] at found
    rcases eq_or_ne other thread with rfl | different
    · rw [Function.update_self] at found
      exact here next found
    · rw [Function.update_of_ne different] at found
      exact sound.calls other next found

theorem Sound.step (sound : Sound s) (effect : Effect s a t) : Sound t := by
  cases effect with
  | quiet quiet _ _ =>
      refine sound.of_update quiet.calls (fun _ _ => quiet.imports.keyed sound.keyed) quiet.imports.kept
        (fun entry member => ?_) quiet.sound quiet.stored
      rw [quiet.appended] at member
      exact sound.known entry member
  | append marking named written =>
      have stored := sound.stored _ _ (by rw [marking]; rfl)
      have ⟨known, next⟩ := sound.calls _ _ marking
      refine sound.of_update rfl sound.keyed (fun _ => id) (fun entry member => ?_)
        (fun later found => ?_) fun later found => ?_
      · rcases List.mem_append.mp member with earlier | last
        · exact sound.known entry earlier
        · cases List.mem_singleton.mp last
          exact stored
      · cases found
        refine known.after fun event found => ?_
        cases found
        rw [named]
        exact known.remaining _ next
      · cases found
        exact stored
  | save writing saved =>
      obtain ⟨_, written⟩ := InMemoryNetflixHistoryImportRepository.save_ok saved
      refine sound.of_update rfl (fun importId record found => ?_) (fun importId present => ?_)
        sound.known (fun _ found => by cases found) fun _ found => by cases found
      · change _ = some record at found
        rw [State.put, get_of_records written] at found
        split at found
        · cases found
          symm
          assumption
        · exact sound.keyed importId record found
      · rw [State.put, get_of_records written]
        split
        · exact Option.some_ne_none _
        · exact present

/-! ### Imports without a disturbed commit -/

/-- What the calls and the status of an import say about the events that it appended: only one commit
under way may have appended any, and it appended them all. -/
structure Books (s : State) (importId : UUID) : Prop where
  whole : ∀ thread, s.carried thread importId = [] ∨ s.carried thread importId = eventsOf s importId
  lone : ∀ thread other, s.carried thread importId ≠ [] → s.carried other importId ≠ [] → thread = other
  reviewed : ∀ record, s.imports.get importId = some record → record.status ≠ .committed →
    eventsOf s importId = [] ∨ ∃ thread, s.carried thread importId = eventsOf s importId
  committed : ∀ record, s.imports.get importId = some record → record.status = .committed →
    Agrees record (eventsOf s importId) ∧ ∀ thread, s.carried thread importId = []

theorem agrees_of_not_committed {events : List WatchEvent} (status : record.status ≠ .committed) :
    Agrees record events ↔ events = [] := by
  unfold Agrees
  split
  · exact absurd ‹_› status
  · rfl
  · rfl

/-- Where no commit has appended an event that it has not saved, the import agrees. -/
theorem Books.agrees (books : Books s importId) (none : ∀ thread, s.carried thread importId = [])
    (found : s.imports.get importId = some record) : Agrees record (eventsOf s importId) := by
  by_cases status : record.status = .committed
  · exact (books.committed record found status).1
  · rw [agrees_of_not_committed status]
    rcases books.reviewed record found status with empty | ⟨thread, all⟩
    · exact empty
    · rw [← all, none]

theorem eventsOf_of_appended (same : t.appended = s.appended) : eventsOf t importId = eventsOf s importId := by
  rw [eventsOf, eventsOf, same]

theorem eventsOf_eq_nil (sound : Sound s) (absent : s.imports.get importId = none) :
    eventsOf s importId = [] := by
  rw [eventsOf, List.map_eq_nil_iff, List.filter_eq_nil_iff]
  intro entry member same
  rw [decide_eq_true_eq] at same
  exact sound.known entry member (same ▸ absent)

/-- What the calls have appended for the import stays as it is, and so do its events. -/
theorem Books.keep (books : Books s importId) (events : eventsOf t importId = eventsOf s importId)
    (carried : ∀ thread, t.carried thread importId = s.carried thread importId)
    (imports : ∀ record, t.imports.get importId = some record → s.imports.get importId = some record ∨
      record.status ≠ .committed ∧ (eventsOf s importId = [] ∨
        ∃ before, s.imports.get importId = some before ∧ before.status ≠ .committed)) :
    Books t importId where
  whole thread := by
    rw [carried, events]
    exact books.whole thread
  lone thread other := by
    rw [carried, carried]
    exact books.lone thread other
  reviewed record found status := by
    simp only [carried, events]
    rcases imports record found with same | ⟨_, empty | ⟨before, here, open_⟩⟩
    · exact books.reviewed record same status
    · exact .inl empty
    · exact books.reviewed before here open_
  committed record found status := by
    simp only [carried, events]
    rcases imports record found with same | ⟨other, _⟩
    · exact books.committed record same status
    · exact absurd status other

/-- A commit that no other commit of an open import has appended beside has appended all its events. -/
theorem Books.all_of_alone (books : Books s importId) (alone : Alone s thread importId)
    (found : s.imports.get importId = some record) (status : record.status ≠ .committed) :
    s.carried thread importId = eventsOf s importId := by
  rcases books.whole thread with nothing | all
  · rcases books.reviewed record found status with empty | ⟨other, all⟩
    · rw [nothing, empty]
    · rcases eq_or_ne other thread with rfl | different
      · exact all
      · rw [nothing, ← all, alone other different]
  · exact all

theorem Books.quiet {call : Option Call} (sound : Sound s) (books : Books s importId)
    (quiet : Quiet s t thread call) (same : carriedBy call importId = s.carried thread importId) :
    Books t importId := by
  refine books.keep (eventsOf_of_appended quiet.appended) (fun other => ?_) fun record found => ?_
  · rw [carried_update quiet.calls, same]
    split
    · rw [‹other = thread›]
    · rfl
  · rcases quiet.imports.found importId record found with before | ⟨_, status, reviewed⟩
    · exact .inl before
    · refine .inr ⟨status, ?_⟩
      cases here : s.imports.get importId with
      | none => exact .inl (eventsOf_eq_nil sound here)
      | some before => exact .inr ⟨before, rfl, reviewed before here⟩

theorem eventsOf_of_append {id : UUID} {event : WatchEvent}
    (appended : t.appended = s.appended ++ [(id, event)]) :
    eventsOf t importId = eventsOf s importId ++ if id = importId then [event] else [] := by
  rw [eventsOf, eventsOf, appended, List.filter_append, List.map_append]
  rcases eq_or_ne id importId with rfl | different
  · simp
  · simp [different]

/-- A commit appends an event: again it has appended all the events of its import. -/
theorem Books.append {commit : Commit} {call : Option Call} {event : WatchEvent} (sound : Sound s)
    (books : Books s importId) (carries : (s.calls thread).bind Call.commit? = some commit)
    (alone : Alone s thread commit.importId)
    (status : (s.imports.get commit.importId).map (·.status) ≠ some .committed)
    (calls : t.calls = Function.update s.calls thread call)
    (carried : carriedBy call importId =
      if commit.importId = importId then commit.written ++ [event] else [])
    (appended : t.appended = s.appended ++ [(commit.importId, event)]) (imports : t.imports = s.imports) :
    Books t importId := by
  have before : carriedBy (s.calls thread) importId =
      if commit.importId = importId then commit.written else [] := carriedBy_of_some carries
  have events : eventsOf t importId =
      eventsOf s importId ++ if commit.importId = importId then [event] else [] :=
    eventsOf_of_append appended
  rcases eq_or_ne commit.importId importId with rfl | different
  · obtain ⟨record, found⟩ := Option.ne_none_iff_exists'.mp (sound.stored thread commit carries)
    rw [found, Option.map_some, ne_eq, Option.some.injEq] at status
    have all := books.all_of_alone alone found status
    rw [if_pos rfl] at carried before events
    have mine : t.carried thread commit.importId = eventsOf t commit.importId := by
      rw [carried_update calls, if_pos rfl, carried, events, ← all, State.carried, before]
    have others : ∀ other, other ≠ thread → t.carried other commit.importId = [] := by
      intro other different
      rw [carried_update calls, if_neg different, alone other different]
    have only : ∀ other, t.carried other commit.importId ≠ [] → other = thread := fun other nonempty =>
      not_not.mp fun different => nonempty (others other different)
    refine ⟨fun other => ?_, fun first second some_first some_second => ?_,
      fun _ _ _ => .inr ⟨thread, mine⟩, fun other also committed => ?_⟩
    · rcases eq_or_ne other thread with rfl | different
      · exact .inr mine
      · exact .inl (others other different)
    · rw [only first some_first, only second some_second]
    · rw [imports, found] at also
      cases also
      exact absurd committed status
  · rw [if_neg different] at carried before events
    refine books.keep (by rw [events, List.append_nil]) (fun other => ?_) fun record found => ?_
    · rw [carried_update calls, carried]
      split
      · rw [‹other = thread›, State.carried, before]
      · rfl
    · exact .inl (imports ▸ found)

/-- A commit is saved: it counts the events of its import and names their episodes. -/
theorem Books.save {commit : Commit} {imports : InMemoryNetflixHistoryImportRepository} (sound : Sound s)
    (books : Books s importId) (writing : s.calls thread = some (.writing commit))
    (saved : s.imports.save commit.committed .pendingReview = .ok imports)
    (alone : Alone s thread commit.importId) :
    Books (State.put { s with imports := imports } thread none) importId := by
  have carries : (s.calls thread).bind Call.commit? = some commit := by rw [writing]; rfl
  have before : carriedBy (s.calls thread) importId =
      if commit.importId = importId then commit.written else [] := carriedBy_of_some carries
  have calls : (State.put { s with imports := imports } thread none).calls =
      Function.update s.calls thread none := rfl
  have events : eventsOf (State.put { s with imports := imports } thread none) importId =
      eventsOf s importId := eventsOf_of_appended rfl
  obtain ⟨⟨current, found, status⟩, written⟩ := InMemoryNetflixHistoryImportRepository.save_ok saved
  have stored := get_of_records written importId
  change _ = if importId = commit.importId then _ else _ at stored
  rcases eq_or_ne commit.importId importId with rfl | different
  · have all := books.all_of_alone alone found (by rw [status]; decide)
    rw [if_pos rfl] at before stored
    rw [State.carried, before] at all
    have none : ∀ other, State.carried (State.put { s with imports := imports } thread none) other
        commit.importId = [] := by
      intro other
      rw [carried_update calls]
      split
      · rfl
      · exact alone other ‹_›
    have agrees : Agrees commit.committed (eventsOf s commit.importId) := by
      rw [← all]
      have known : commit.Sound := sound.calls thread _ writing
      refine ⟨?_, known.written⟩
      change commit.importedEventCount = _
      rw [Commit.importedEventCount, Commit.written, List.reduceOption_length_eq, List.countP_eq_length_filter]
    refine ⟨fun other => .inl (none other), fun first _ nonempty => absurd (none first) nonempty,
      fun record also open_ => ?_, fun record also _ => ?_⟩
    · change imports.get _ = _ at also
      rw [stored] at also
      cases also
      exact absurd rfl open_
    · change imports.get _ = _ at also
      rw [stored] at also
      cases also
      exact ⟨events ▸ agrees, none⟩
  · rw [if_neg different] at before
    rw [if_neg different.symm] at stored
    refine books.keep events (fun other => ?_) fun record also => .inl ?_
    · rw [carried_update calls]
      split
      · rw [‹other = thread›, State.carried, before, carriedBy_none]
      · rfl
    · exact stored.symm.trans also

/-- What an undisturbed step does to the books of an import. -/
theorem Books.step (sound : Sound s) (books : Books s importId) (undisturbed : Undisturbed s a)
    (effect : Effect s a t) : Books t importId := by
  cases effect with
  | quiet quiet _ same => exact books.quiet sound quiet (same undisturbed importId)
  | @append thread _ _ commit _ event _ _ marking named written =>
      obtain ⟨alone, status⟩ := undisturbed _ _ written
      refine books.append sound (by rw [marking]; rfl) alone status rfl ?_ rfl rfl
      rw [carriedBy_of_some rfl, Commit.written_after]
      rfl
  | @save thread commit imports writing saved =>
      obtain ⟨⟨current, found, status⟩, _⟩ := InMemoryNetflixHistoryImportRepository.save_ok saved
      have alone := undisturbed commit writing
      rw [Commit.importId, ← commit.committed_importId, found, Option.map_some, status, if_pos rfl] at alone
      exact books.save sound writing saved alone

/-! ### Runs -/

theorem carried_of_idle (idle : Idle s importId) (thread : Nat) : s.carried thread importId = [] := by
  unfold State.carried carriedBy
  split
  · exact if_neg (idle thread _ ‹_›)
  · rfl

/-- What is known of every state of an undisturbed run. -/
structure Kept (s : State) : Prop where
  sound : Sound s
  books : ∀ importId, Books s importId

theorem Kept.start (watch : InMemoryWatchProgressRepository) : Kept (start watch) where
  sound := {
    keyed := fun _ _ found => by cases found
    stored := fun _ _ found => by cases found
    known := fun _ member => absurd member List.not_mem_nil
    calls := fun _ _ found => by cases found }
  books _ := {
    whole := fun _ => .inl rfl
    lone := fun _ _ nonempty => absurd rfl nonempty
    reviewed := fun _ found => by cases found
    committed := fun _ found => by cases found }

theorem Kept.step (kept : Kept s) (undisturbed : Undisturbed s a)
    (taken : step configuration resolve s a = some t) : Kept t :=
  have effect := effect kept.sound taken
  ⟨kept.sound.step effect, fun importId => (kept.books importId).step kept.sound undisturbed effect⟩

theorem Kept.of_run {watch : InMemoryWatchProgressRepository}
    (run : Run (NetflixHistory.step configuration resolve) Undisturbed (NetflixHistory.start watch) s) :
    Kept s :=
  run.invariant (.start watch) fun _ _ _ kept undisturbed taken => kept.step undisturbed taken

/-- As long as no event is appended, no commit has anything to lose. -/
theorem Kept.carried (kept : Kept s) (nothing : s.appended = []) (thread : Nat) (importId : UUID) :
    s.carried thread importId = [] := by
  have events : eventsOf s importId = [] := by
    rw [eventsOf, nothing]
    rfl
  rcases (kept.books importId).whole thread with none | all
  · exact none
  · rw [all, events]

theorem Kept.undisturbed (kept : Kept s) (nothing : s.appended = []) (silent : Silent s a) :
    Undisturbed s a := by
  have written : ∀ thread commit, (s.calls thread).bind Call.commit? = some commit →
      commit.written = [] := by
    intro thread commit carries
    have none := kept.carried nothing thread commit.importId
    rwa [State.carried, carriedBy_of_some carries, if_pos rfl] at none
  cases a with
  | interrupt thread => exact kept.carried nothing thread
  | readEpisode thread => exact fun commit writing _ => written thread commit (by rw [writing]; rfl)
  | saveCommitted thread =>
      intro commit writing
      split
      · exact fun other _ => kept.carried nothing other _
      · exact written thread commit (by rw [writing]; rfl)
  | writeEpisode thread eventId occurredAt =>
      intro commit result same
      cases result with
      | ok appended => exact absurd same (silent commit appended)
      | error raised =>
          apply written thread commit
          unfold State.writeOf at same
          split at same
          case h_1 marking =>
            rw [Option.some.injEq, Prod.mk.injEq] at same
            rw [marking, ← same.1]
            rfl
          case h_2 => cases same
  | prepare | settle | restart | commit | expireFound | expireSensitiveContent | updateWatchState =>
      trivial

theorem Kept.silent (kept : Kept s) (nothing : s.appended = []) (silent : Silent s a)
    (taken : NetflixHistory.step configuration resolve s a = some t) : Kept t ∧ t.appended = [] := by
  refine ⟨kept.step (kept.undisturbed nothing silent) taken, ?_⟩
  cases effect kept.sound taken with
  | quiet quiet => rw [quiet.appended, nothing]
  | append _ _ written => exact absurd written (silent _ _)
  | save => exact nothing

theorem silent_of_run {watch : InMemoryWatchProgressRepository}
    (run : Run (NetflixHistory.step configuration resolve) Silent (NetflixHistory.start watch) s) :
    Kept s ∧ s.appended = [] :=
  run.invariant (I := fun s => Kept s ∧ s.appended = []) ⟨.start watch, rfl⟩
    fun _ _ _ ⟨kept, nothing⟩ silent taken => kept.silent nothing silent taken

theorem Kept.allAgree (kept : Kept s) (nothing : s.appended = []) : AllAgree s :=
  fun importId _ found => (kept.books importId).agrees (fun thread => kept.carried nothing thread _) found

/-- The first event that a commit appends is not counted by its import. -/
theorem Kept.allAgree_iff (kept : Kept s) (nothing : s.appended = [])
    (taken : NetflixHistory.step configuration resolve s a = some t) : AllAgree t ↔ Silent s a := by
  constructor
  · intro agree
    cases effect kept.sound taken with
    | quiet _ silent => exact silent
    | save => trivial
    | @append thread _ _ commit _ event _ _ marking named written =>
        have carries : (s.calls thread).bind Call.commit? = some commit := by rw [marking]; rfl
        obtain ⟨record, found⟩ := Option.ne_none_iff_exists'.mp (kept.sound.stored thread commit carries)
        have before : eventsOf s commit.importId = [] := by
          rw [eventsOf, nothing]
          rfl
        have one := agree commit.importId record found
        rw [@eventsOf_of_append s _ _ commit.importId event rfl, before, if_pos rfl,
          List.nil_append] at one
        have none := kept.allAgree nothing commit.importId record found
        rw [before] at none
        unfold Agrees at one none
        cases status : record.status <;> simp only [status] at one none
        case committed =>
          rw [none.1] at one
          simp at one
        case pendingReview => cases one
        case expired => cases one
  · intro silent
    obtain ⟨after, still⟩ := kept.silent nothing silent taken
    exact after.allAgree still

/-- In a run that appends no event every import agrees, and goes on to agree exactly until an event is
appended. In an undisturbed run every import agrees that no commit is under way for. -/
theorem imports_agree_iff (configuration : NetflixHistoryImportConfiguration)
    (resolve : NetflixViewingHistoryRow → NetflixTitleResolution)
    (watch : InMemoryWatchProgressRepository) (s : State) :
    (Run (NetflixHistory.step configuration resolve) Silent (NetflixHistory.start watch) s →
      AllAgree s ∧ ∀ a t, NetflixHistory.step configuration resolve s a = some t →
        (AllAgree t ↔ Silent s a)) ∧
    (Run (NetflixHistory.step configuration resolve) Undisturbed (NetflixHistory.start watch) s →
      ∀ importId record, s.imports.get importId = some record → Idle s importId →
        Agrees record (eventsOf s importId)) := by
  constructor
  · intro run
    obtain ⟨kept, nothing⟩ := silent_of_run run
    exact ⟨kept.allAgree nothing, fun _ _ => kept.allAgree_iff nothing⟩
  · intro run importId record found idle
    exact ((Kept.of_run run).books importId).agrees (carried_of_idle idle) found

end Cinegraph.NetflixHistory

namespace Cinegraph.NetflixHistory.ImportSamples

open Library Identity

open CatalogueSamples

def second : EpisodeRef where
  seriesId := ⟨1⟩
  seasonId := ⟨2⟩
  episodeId := ⟨4⟩
  position := ⟨1, 2, EpisodePosition.first_pos, EpisodePosition.second_pos⟩

def profile : ProfileWatchState where
  profileId := ⟨5⟩
  profileName := "viewer"
  seriesWatchStates := []
  spoilerMode := .strict
  version := 0
  name_trimmed := viewer_trimmed
  series_unique := List.nodup_nil
  version_nonneg := ProfileWatchState.first_version

def watch : InMemoryWatchProgressRepository := ⟨Dict.empty.set ⟨5⟩ profile, []⟩

def viewer : SessionPrincipal := .authenticated ⟨5⟩ ⟨6⟩

def configuration : NetflixHistoryImportConfiguration := ⟨1000, by decide⟩

/-- Every row proposes both episodes. -/
def resolve (row : NetflixViewingHistoryRow) : NetflixTitleResolution :=
  ⟨row, .ambiguous, [⟨pilot, "Show", 1, 1, none, ""⟩, ⟨second, "Show", 1, 2, none, ""⟩]⟩

def history : ParsedNetflixViewingHistory := ⟨"", [⟨"a", 2, "Show", 0⟩, ⟨"b", 3, "Show", 1⟩]⟩

def approveBoth : CommitNetflixHistoryImportCommand := ⟨⟨5⟩, ⟨7⟩, [⟨"a", ⟨3⟩⟩, ⟨"b", ⟨4⟩⟩]⟩

/-- An import is reviewed, and its commit appends the event of the first of two episodes. -/
def half : List Action :=
  [.prepare 0 viewer history, .settle 0 ⟨7⟩ ⟨.utc, 0⟩, .commit 0 viewer approveBoth ⟨.utc, 1⟩,
    .readEpisode 0, .writeEpisode 0 ⟨8⟩ ⟨.utc, 2⟩]

/-- The commit is tried again, finds the first episode watched, and appends the event of the second. -/
def rest : List Action :=
  [.commit 0 viewer approveBoth ⟨.utc, 3⟩, .readEpisode 0, .readEpisode 0,
    .writeEpisode 0 ⟨9⟩ ⟨.utc, 4⟩, .saveCommitted 0]

/-- The only thread that acts has come to an end, and the import shows a status and a count, beside the
number of events that it appended. -/
def shows (s : State) (status : NetflixHistoryImportStatus) (count events : Nat) : Bool :=
  (s.calls 0).isNone && (eventsOf s ⟨7⟩).length = events &&
    (s.imports.get ⟨7⟩).any fun record => record.status = status ∧ record.importedEventCount = count

theorem not_allAgree_of_shows {s : State} {status : NetflixHistoryImportStatus} {count events : Nat}
    (shown : shows s status count events = true)
    (wrong : status = .committed ∧ count ≠ events ∨ status ≠ .committed ∧ events ≠ 0) : ¬AllAgree s := by
  simp only [shows, Bool.and_eq_true, decide_eq_true_eq, Option.any_eq_true] at shown
  obtain ⟨⟨_, length⟩, record, found, rfl, counted⟩ := shown
  intro agree
  have agrees := agree ⟨7⟩ record found
  rcases wrong with ⟨committed, different⟩ | ⟨reviewed, some_events⟩
  · rw [Agrees, committed] at agrees
    exact different (counted ▸ length ▸ agrees.1)
  · rw [agrees_of_not_committed reviewed, ← List.length_eq_zero_iff, length] at agrees
    exact some_events agrees

/-- The commit raises between its two episodes: the import stays under review with one event, and a
second commit counts one of the two events that were appended. -/
theorem imports_disagree :
    (∃ s, Run (NetflixHistory.step configuration resolve) (fun _ _ => True) (NetflixHistory.start watch) s ∧
      shows s .pendingReview 0 1 = true ∧ ¬AllAgree s) ∧
    ∃ s, Run (NetflixHistory.step configuration resolve) (fun _ _ => True) (NetflixHistory.start watch) s ∧
      shows s .committed 1 2 = true ∧ ¬AllAgree s := by
  constructor
  · obtain ⟨s, run, shown⟩ := Run.exists_of_checked (NetflixHistory.step configuration resolve)
      (fun _ _ => True) (NetflixHistory.start watch) (half ++ [.interrupt 0])
      (shows · .pendingReview 0 1) (by decide)
    exact ⟨s, run, shown, not_allAgree_of_shows shown (by decide)⟩
  · obtain ⟨s, run, shown⟩ := Run.exists_of_checked (NetflixHistory.step configuration resolve)
      (fun _ _ => True) (NetflixHistory.start watch) (half ++ [.interrupt 0] ++ rest)
      (shows · .committed 1 2) (by decide)
    exact ⟨s, run, shown, not_allAgree_of_shows shown (by decide)⟩

theorem alone_of_succ {s : State} {importId : UUID} (none : ∀ n, s.carried (n + 1) importId = []) :
    Alone s 0 importId := by
  intro other different
  obtain ⟨n, rfl⟩ := Nat.exists_eq_succ_of_ne_zero different
  exact none n

/-- The same commit, when nothing disturbs it. -/
theorem undisturbed_commit : ∃ s,
    Run (NetflixHistory.step configuration resolve) Undisturbed (NetflixHistory.start watch) s ∧
      Idle s ⟨7⟩ ∧ shows s .committed 2 2 = true := by
  have starts : Run (NetflixHistory.step configuration resolve) Undisturbed
      (NetflixHistory.start watch) (NetflixHistory.start watch) := .start
  have prepares := starts.next (a := .prepare 0 viewer history) (by trivial) rfl
  have settles := prepares.next (a := .settle 0 ⟨7⟩ ⟨.utc, 0⟩) (by trivial) rfl
  have commits := settles.next (a := .commit 0 viewer approveBoth ⟨.utc, 1⟩) (by trivial) rfl
  have reads := commits.next (a := .readEpisode 0)
    (by intro commit writing missing; cases writing; cases missing) rfl
  have writes := reads.next (a := .writeEpisode 0 ⟨8⟩ ⟨.utc, 2⟩)
    (by
      intro commit result same
      cases same
      exact ⟨alone_of_succ fun _ => rfl, by decide⟩) rfl
  have readsNext := writes.next (a := .readEpisode 0)
    (by intro commit writing missing; cases writing; cases missing) rfl
  have writesNext := readsNext.next (a := .writeEpisode 0 ⟨9⟩ ⟨.utc, 3⟩)
    (by
      intro commit result same
      cases same
      exact ⟨alone_of_succ fun _ => rfl, by decide⟩) rfl
  have saves := writesNext.next (a := .saveCommitted 0)
    (by
      intro commit writing
      cases writing
      exact alone_of_succ fun _ => rfl) rfl
  refine ⟨_, saves, ?_, by decide⟩
  intro thread commit found
  cases thread <;> cases found

/-- The commit up to its first event, which has not been appended: the run is silent so far. -/
theorem before_first_event : ∃ s,
    Run (NetflixHistory.step configuration resolve) Silent (NetflixHistory.start watch) s ∧
      ¬Silent s (.writeEpisode 0 ⟨8⟩ ⟨.utc, 2⟩) ∧
      (∃ t, NetflixHistory.step configuration resolve s (.interrupt 0) = some t) ∧
      ∃ t, NetflixHistory.step configuration resolve s (.writeEpisode 0 ⟨8⟩ ⟨.utc, 2⟩) = some t := by
  have starts : Run (NetflixHistory.step configuration resolve) Silent
      (NetflixHistory.start watch) (NetflixHistory.start watch) := .start
  have prepares := starts.next (a := .prepare 0 viewer history) (by trivial) rfl
  have settles := prepares.next (a := .settle 0 ⟨7⟩ ⟨.utc, 0⟩) (by trivial) rfl
  have commits := settles.next (a := .commit 0 viewer approveBoth ⟨.utc, 1⟩) (by trivial) rfl
  have reads := commits.next (a := .readEpisode 0) (by trivial) rfl
  exact ⟨_, reads, fun silent => silent _ _ rfl, ⟨_, rfl⟩, _, rfl⟩

/-- Every import agrees before the first event of a commit, and if the commit is interrupted there, but
not once the event is appended. It agrees again when the commit is saved. -/
theorem imports_agree_sample :
    (∃ s, AllAgree s ∧
      (∃ t, NetflixHistory.step configuration resolve s (.interrupt 0) = some t ∧ AllAgree t) ∧
      ∃ t, NetflixHistory.step configuration resolve s (.writeEpisode 0 ⟨8⟩ ⟨.utc, 2⟩) = some t ∧
        ¬AllAgree t) ∧
    ∃ s, shows s .committed 2 2 = true ∧
      ∀ record, s.imports.get ⟨7⟩ = some record → Agrees record (eventsOf s ⟨7⟩) := by
  constructor
  · obtain ⟨s, run, loud, ⟨interrupted, interrupts⟩, written, writes⟩ := before_first_event
    obtain ⟨agree, next⟩ := (imports_agree_iff configuration resolve watch s).1 run
    refine ⟨s, agree, ⟨interrupted, interrupts, ?_⟩, written, writes, ?_⟩
    · apply (next _ _ interrupts).mpr
      trivial
    · exact fun after => loud ((next _ _ writes).mp after)
  · obtain ⟨s, run, idle, shown⟩ := undisturbed_commit
    refine ⟨s, shown, fun record found => ?_⟩
    exact (imports_agree_iff configuration resolve watch s).2 run ⟨7⟩ record found idle

end Cinegraph.NetflixHistory.ImportSamples
