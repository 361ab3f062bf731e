import Cinegraph.Library.Run
import Cinegraph.Transcripts.IndexWriter

/-!
Calls that replace the points of one episode and language at the same time. A
call that crashes sends no further request, so every state of a run is also one
in which calls have crashed.
-/

namespace Cinegraph

open Library

namespace IndexReplacement

variable {denseVectorSize : Nat} {episodeId : UUID} {language : Language} {ι : Type}

/-- A call in episode-language mode that the writer accepts, with the requests it sends. -/
structure Call (denseVectorSize : Nat) (episodeId : UUID) (language : Language) where
  newSourceVersionId : UUID
  retiredSourceVersionId : Option UUID
  first : TranscriptIndexPoint
  rest : List TranscriptIndexPoint
  requests : List QdrantRequest
  accepted : QdrantTranscriptIndexWriter.replaceSourceVersion .episodeLanguage denseVectorSize
    newSourceVersionId retiredSourceVersionId (first :: rest) = .ok requests
  episode_eq : first.payload.episodeId = episodeId
  language_eq : first.payload.language = language

namespace Call

variable (call : Call denseVectorSize episodeId language)

def points : List TranscriptIndexPoint := call.first :: call.rest

def retire : QdrantRequest := .deleteEpisodeLanguage episodeId language call.newSourceVersionId

theorem requests_eq : call.requests = [.upsert call.points, call.retire] := by
  have sent :=
    (QdrantTranscriptIndexWriter.replaceSourceVersion_episodeLanguage call.accepted).2.2
  rwa [call.episode_eq, call.language_eq] at sent

theorem points_unique : (call.points.map TranscriptIndexPoint.chunkId).Nodup :=
  (QdrantTranscriptIndexWriter.replaceSourceVersion_episodeLanguage call.accepted).1

theorem point_payload {point : TranscriptIndexPoint} (member : point ∈ call.points) :
    point.payload.sourceVersionId = call.newSourceVersionId ∧
      point.payload.episodeId = episodeId ∧ point.payload.language = language := by
  have shared :=
    (QdrantTranscriptIndexWriter.replaceSourceVersion_episodeLanguage call.accepted).2.1 point member
  rwa [call.episode_eq, call.language_eq] at shared

end Call

structure State (ι : Type) where
  collection : QdrantCollection
  pending : ι → List QdrantRequest

variable (calls : ι → Call denseVectorSize episodeId language)

def start (collection : QdrantCollection) : State ι :=
  ⟨collection, fun i => (calls i).requests⟩

/-- A call sends its next request. -/
def step [DecidableEq ι] (s : State ι) (i : ι) : Option (State ι) :=
  match s.pending i with
  | [] => none
  | request :: rest => some ⟨s.collection.serve request, Function.update s.pending i rest⟩

def State.upserted (s : State ι) (i : ι) : Prop := (s.pending i).length ≤ 1

/-- A point of the episode and language stands under an id. -/
def Stored (episodeId : UUID) (language : Language) (collection : QdrantCollection) (id : UUID)
    (point : TranscriptIndexPoint) : Prop :=
  collection id = some point ∧ point.payload.episodeId = episodeId ∧
    point.payload.language = language

/-- The episode never loses all its points, and in the end has those of one version. -/
def Kept (s : State ι) : Prop :=
  (∀ i, s.upserted i → ∃ id point, Stored episodeId language s.collection id point) ∧
  ((∀ i, s.pending i = []) → ∃ i, ∀ id point, Stored episodeId language s.collection id point ↔
    point ∈ (calls i).points ∧ point.chunkId = id)

/-- All points of a call are in the collection. -/
def Intact (i : ι) (collection : QdrantCollection) : Prop :=
  ∀ point ∈ (calls i).points, collection point.chunkId = some point

/-- A call that has sent its points still finds them when it sends its deletion. -/
def FindsOwnPoints (s : State ι) (i : ι) : Prop := s.upserted i → Intact calls i s.collection

/-- Points of the new versions that stand in the collection are those of the calls. -/
def Fresh (collection : QdrantCollection) : Prop :=
  ∀ i id point, Stored episodeId language collection id point →
    point.payload.sourceVersionId = (calls i).newSourceVersionId →
      point ∈ (calls i).points ∧ point.chunkId = id

section Requests

variable {calls} {collection : QdrantCollection} {i j : ι}

theorem intact_upsert : Intact calls i (collection.upsert (calls i).points) := by
  intro point member
  exact QdrantCollection.upsert_of_mem collection (calls i).points_unique member

/-- What a batch of points leaves under an id is one of them or what stood there. -/
theorem stored_upsert {id : UUID} {point : TranscriptIndexPoint}
    (stored : Stored episodeId language (collection.upsert (calls i).points) id point) :
    (point ∈ (calls i).points ∧ point.chunkId = id) ∨
      Stored episodeId language collection id point := by
  by_cases covered : id ∈ (calls i).points.map TranscriptIndexPoint.chunkId
  · obtain ⟨own, member, rfl⟩ := List.mem_map.mp covered
    have all_written : Intact calls i (collection.upsert (calls i).points) := intact_upsert
    have written := all_written own member
    have same : some own = some point := written.symm.trans stored.1
    cases same
    exact Or.inl ⟨member, rfl⟩
  · have unchanged := QdrantCollection.upsert_of_not_mem collection covered
    exact Or.inr ⟨unchanged ▸ stored.1, stored.2⟩

theorem stored_retire {id : UUID} {point : TranscriptIndexPoint} :
    Stored episodeId language (collection.serve (calls i).retire) id point ↔
      Stored episodeId language collection id point ∧
        point.payload.sourceVersionId = (calls i).newSourceVersionId := by
  unfold Stored Call.retire QdrantCollection.serve
  rw [QdrantCollection.delete_eq_some]
  simp only [decide_eq_false_iff_not, not_and, not_not]
  constructor
  · rintro ⟨⟨here, matching⟩, episode, lang⟩
    exact ⟨⟨here, episode, lang⟩, matching episode lang⟩
  · rintro ⟨⟨here, episode, lang⟩, version⟩
    exact ⟨⟨here, fun _ _ => version⟩, episode, lang⟩

theorem stored_of_intact (intact : Intact calls i collection) {point : TranscriptIndexPoint}
    (member : point ∈ (calls i).points) :
    Stored episodeId language collection point.chunkId point :=
  ⟨intact point member, ((calls i).point_payload member).2⟩

theorem intact_retire (intact : Intact calls i collection) :
    Intact calls i (collection.serve (calls i).retire) := by
  intro point member
  have stays := stored_retire.mpr
    ⟨stored_of_intact intact member, ((calls i).point_payload member).1⟩
  exact stays.1

theorem fresh_upsert (distinct : Function.Injective fun i => (calls i).newSourceVersionId)
    (fresh : Fresh calls collection) : Fresh calls (collection.upsert (calls i).points) := by
  intro k id point stored version
  rcases stored_upsert stored with own | before
  · have same : i = k := distinct (((calls i).point_payload own.1).1.symm.trans version)
    exact same ▸ own
  · exact fresh k id point before version

theorem fresh_retire (fresh : Fresh calls collection) :
    Fresh calls (collection.serve (calls i).retire) := by
  intro k id point stored version
  exact fresh k id point (stored_retire.mp stored).1 version

end Requests

section Runs

variable {calls} {s t : State ι} {i : ι}

/-- The requests that a call still has to send are an end of its two. -/
def Ordered (calls : ι → Call denseVectorSize episodeId language) (s : State ι) : Prop :=
  ∀ i, s.pending i = [.upsert (calls i).points, (calls i).retire] ∨
    s.pending i = [(calls i).retire] ∨ s.pending i = []

theorem ordered_start (collection : QdrantCollection) : Ordered calls (start calls collection) :=
  fun i => Or.inl (calls i).requests_eq

theorem not_upserted_start {collection : QdrantCollection} :
    ¬(start calls collection).upserted i := by
  simp [State.upserted, start, (calls i).requests_eq]

/-- What runs keep whose deletions find the points of their call. -/
structure Safe (calls : ι → Call denseVectorSize episodeId language) (s : State ι) : Prop where
  ordered : Ordered calls s
  fresh : Fresh calls s.collection
  held : (∃ i, s.upserted i) → ∃ j, Intact calls j s.collection
  ended : (∀ i, s.pending i = []) → ∃ i, ∀ id point,
    Stored episodeId language s.collection id point ↔
      point ∈ (calls i).points ∧ point.chunkId = id

theorem Safe.kept (safe : Safe calls s) : Kept calls s := by
  refine ⟨?_, safe.ended⟩
  intro i sent
  obtain ⟨j, intact⟩ := safe.held ⟨i, sent⟩
  exact ⟨_, _, stored_of_intact intact List.mem_cons_self⟩

theorem safe_start [Nonempty ι] {collection : QdrantCollection}
    (fresh : Fresh calls collection) : Safe calls (start calls collection) := by
  refine ⟨ordered_start collection, fresh, ?_, ?_⟩
  · rintro ⟨i, sent⟩
    exact absurd sent not_upserted_start
  · intro all
    obtain ⟨i⟩ := ‹Nonempty ι›
    have here : (calls i).requests = [] := all i
    rw [(calls i).requests_eq] at here
    cases here

variable [DecidableEq ι]

/-- A step sends the points of a call, or its deletion where the points have been sent. -/
theorem step_cases (ordered : Ordered calls s) (taken : step s i = some t) :
    (¬s.upserted i ∧ t = ⟨s.collection.upsert (calls i).points,
      Function.update s.pending i [(calls i).retire]⟩) ∨
    (s.upserted i ∧ t = ⟨s.collection.serve (calls i).retire,
      Function.update s.pending i []⟩) := by
  unfold step at taken
  unfold State.upserted
  rcases ordered i with both | last | none_left
  · rw [both] at taken ⊢
    cases taken
    exact Or.inl ⟨by simp, rfl⟩
  · rw [last] at taken ⊢
    cases taken
    exact Or.inr ⟨by simp, rfl⟩
  · rw [none_left] at taken
    cases taken

theorem ordered_step (ordered : Ordered calls s) (taken : step s i = some t) :
    Ordered calls t := by
  intro k
  rcases step_cases ordered taken with ⟨-, rfl⟩ | ⟨-, rfl⟩
  · by_cases same : k = i
    · subst same
      exact Or.inr (Or.inl (Function.update_self _ _ _))
    · have kept := ordered k
      simpa only [Function.update_of_ne same] using kept
  · by_cases same : k = i
    · subst same
      exact Or.inr (Or.inr (Function.update_self _ _ _))
    · have kept := ordered k
      simpa only [Function.update_of_ne same] using kept

theorem safe_step (distinct : Function.Injective fun i => (calls i).newSourceVersionId)
    (safe : Safe calls s) (finds : FindsOwnPoints calls s i) (taken : step s i = some t) :
    Safe calls t := by
  have ordered := ordered_step safe.ordered taken
  rcases step_cases safe.ordered taken with ⟨-, rfl⟩ | ⟨sent, rfl⟩
  · refine ⟨ordered, fresh_upsert distinct safe.fresh, fun _ => ⟨i, intact_upsert⟩, ?_⟩
    intro all
    have last := all i
    simp only [Function.update_self] at last
    cases last
  · have intact := finds sent
    refine ⟨ordered, fresh_retire safe.fresh, fun _ => ⟨i, intact_retire intact⟩, ?_⟩
    intro _
    refine ⟨i, fun id point => ?_⟩
    rw [stored_retire]
    constructor
    · rintro ⟨stored, version⟩
      exact safe.fresh i id point stored version
    · rintro ⟨member, rfl⟩
      exact ⟨stored_of_intact intact member, ((calls i).point_payload member).1⟩

variable (calls) in
/-- Nothing of a call is left. -/
def Gone (i : ι) (collection : QdrantCollection) : Prop :=
  ∀ id point, Stored episodeId language collection id point →
    point.payload.sourceVersionId ≠ (calls i).newSourceVersionId

/-- The points of a call stand or fall together while the calls share no point id. -/
theorem intact_or_gone (distinct : Function.Injective fun i => (calls i).newSourceVersionId)
    (apart : ∀ i j, i ≠ j → ∀ p ∈ (calls i).points, ∀ q ∈ (calls j).points, p.chunkId ≠ q.chunkId)
    (ordered : Ordered calls s) (taken : step s i = some t)
    (before : ∀ k, s.upserted k → Intact calls k s.collection ∨ Gone calls k s.collection) :
    ∀ k, t.upserted k → Intact calls k t.collection ∨ Gone calls k t.collection := by
  intro k sent
  rcases step_cases ordered taken with ⟨-, rfl⟩ | ⟨sent_before, rfl⟩
  · by_cases same : k = i
    · subst same
      exact Or.inl intact_upsert
    · have earlier : s.upserted k := by
        simpa only [State.upserted, Function.update_of_ne same] using sent
      rcases before k earlier with intact | gone
      · left
        intro point member
        have absent : point.chunkId ∉ (calls i).points.map TranscriptIndexPoint.chunkId := by
          intro covered
          obtain ⟨own, own_member, shared⟩ := List.mem_map.mp covered
          exact apart i k (Ne.symm same) own own_member point member shared
        exact (QdrantCollection.upsert_of_not_mem s.collection absent).trans (intact point member)
      · right
        intro id point stored
        rcases stored_upsert stored with own | here
        · intro version
          exact same (distinct (version.symm.trans ((calls i).point_payload own.1).1))
        · exact gone id point here
  · by_cases same : k = i
    · subst same
      rcases before k sent_before with intact | gone
      · exact Or.inl (intact_retire intact)
      · right
        intro id point stored
        exact gone id point (stored_retire.mp stored).1
    · right
      intro id point stored version
      exact same (distinct (version.symm.trans (stored_retire.mp stored).2))

/-- A call whose points are gone when it deletes leaves the episode empty. -/
theorem finds_of_kept (ordered : Ordered calls s) (taken : step s i = some t)
    (kept : Kept calls t)
    (before : ∀ k, s.upserted k → Intact calls k s.collection ∨ Gone calls k s.collection) :
    FindsOwnPoints calls s i := by
  intro sent
  rcases before i sent with intact | gone
  · exact intact
  · rcases step_cases ordered taken with ⟨unsent, -⟩ | ⟨-, rfl⟩
    · exact absurd sent unsent
    · have done : State.upserted (⟨s.collection.serve (calls i).retire,
          Function.update s.pending i []⟩ : State ι) i := by
        simp [State.upserted]
      obtain ⟨id, point, stored⟩ := kept.1 i done
      have own := stored_retire.mp stored
      exact absurd own.2 (gone id point own.1)

end Runs

/-- Runs in which every deletion finds the points of its own call keep the episode. Where the
calls share no point id, no deletion of any run keeps it that does not find them. -/
theorem replacement_keeps_one_version {ι : Type} [DecidableEq ι] [Nonempty ι]
    {denseVectorSize : Nat} {episodeId : UUID} {language : Language}
    (calls : ι → Call denseVectorSize episodeId language) (collection : QdrantCollection)
    (distinct : Function.Injective fun i => (calls i).newSourceVersionId)
    (fresh : Fresh calls collection) :
    (∀ s, Run step (FindsOwnPoints calls) (start calls collection) s → Kept calls s) ∧
    ((∀ i j, i ≠ j → ∀ p ∈ (calls i).points, ∀ q ∈ (calls j).points, p.chunkId ≠ q.chunkId) →
      ∀ s, Run step (fun _ _ => True) (start calls collection) s →
        ∀ i t, step s i = some t → Kept calls t → FindsOwnPoints calls s i) := by
  constructor
  · intro s run
    have safe : Safe calls s := run.invariant (safe_start fresh) fun _ _ _ safe finds taken =>
      safe_step distinct safe finds taken
    exact safe.kept
  · intro apart s run i t taken kept
    obtain ⟨ordered, pieces⟩ : Ordered calls s ∧
        ∀ k, s.upserted k → Intact calls k s.collection ∨ Gone calls k s.collection := by
      apply run.invariant (I := fun s => Ordered calls s ∧
        ∀ k, s.upserted k → Intact calls k s.collection ∨ Gone calls k s.collection)
      · exact ⟨ordered_start collection, fun k sent => absurd sent not_upserted_start⟩
      · rintro before after k ⟨ordered, pieces⟩ - taken
        exact ⟨ordered_step ordered taken, intact_or_gone distinct apart ordered taken pieces⟩
    exact finds_of_kept ordered taken kept pieces

/-- One chunk of an episode in a given version. -/
def samplePoint (chunkId sourceVersionId : UUID) : TranscriptIndexPoint where
  chunkId := chunkId
  vector := ⟨[.finite 1], [(0, .finite 1)]⟩
  payload := ⟨sourceVersionId, ⟨1⟩, ⟨2⟩, ⟨3⟩, 1, 1, 0, 1000, "Hello.", .english, .allowed, .active,
    .reviewed, [⟨5⟩], 0, TRANSCRIPT_INDEX_REVISION⟩

def racing : Bool → Call 1 ⟨3⟩ .english
  | true => ⟨⟨21⟩, some ⟨20⟩, samplePoint ⟨31⟩ ⟨21⟩, [], _, rfl, rfl, rfl⟩
  | false => ⟨⟨22⟩, some ⟨20⟩, samplePoint ⟨32⟩ ⟨22⟩, [], _, rfl, rfl, rfl⟩

theorem racing_distinct : Function.Injective fun i => (racing i).newSourceVersionId := by
  intro i j same
  cases i <;> cases j
  · rfl
  · exact absurd same (by decide)
  · exact absurd same (by decide)
  · rfl

theorem racing_fresh : Fresh racing fun _ => none := by
  rintro i id point ⟨here, -⟩
  cases here

theorem racing_apart : ∀ i j, i ≠ j → ∀ p ∈ (racing i).points, ∀ q ∈ (racing j).points,
    p.chunkId ≠ q.chunkId := by
  intro i j other p first q second
  cases i <;> cases j <;> cases List.mem_singleton.mp first <;> cases List.mem_singleton.mp second
  · exact absurd rfl other
  · decide
  · decide
  · exact absurd rfl other

theorem replacement_keeps_one_version_sample :
    (∀ s, Run step (FindsOwnPoints racing) (start racing fun _ => none) s → Kept racing s) ∧
    ∀ s, Run step (fun _ _ => True) (start racing fun _ => none) s →
      ∀ i t, step s i = some t → Kept racing t → FindsOwnPoints racing s i := by
  obtain ⟨keeps, finds⟩ :=
    replacement_keeps_one_version racing (fun _ => none) racing_distinct racing_fresh
  exact ⟨keeps, finds racing_apart⟩

/-- Both calls put their points in, then each deletes those of the other. -/
theorem racing_replacements_empty :
    ∃ s, Run step (fun _ _ => True) (start racing fun _ => none) s ∧ (∀ i, s.pending i = []) ∧
      (∀ id, s.collection id = none) ∧ ¬Kept racing s := by
  have unstarted : Run step (fun _ _ => True) (start racing fun _ => none)
      (start racing fun _ => none) := .start
  have upserted_first := unstarted.next (a := true) trivial rfl
  have upserted_second := upserted_first.next (a := false) trivial rfl
  have deleted_second := upserted_second.next (a := true) trivial rfl
  have deleted_first := deleted_second.next (a := false) trivial rfl
  have empty : ∀ id, QdrantCollection.serve (QdrantCollection.serve (QdrantCollection.upsert
      (racing false).points (QdrantCollection.upsert (racing true).points fun _ => none))
      (racing true).retire) (racing false).retire id = none := by
    intro id
    by_cases first : id = ⟨31⟩
    · subst first
      rfl
    · by_cases second : id = ⟨32⟩
      · subst second
        rfl
      · have untouched : QdrantCollection.upsert (racing false).points
            (QdrantCollection.upsert (racing true).points fun _ => none) id = none := by
          rw [QdrantCollection.upsert_of_not_mem, QdrantCollection.upsert_of_not_mem]
          · exact fun member => first (List.mem_singleton.mp member)
          · exact fun member => second (List.mem_singleton.mp member)
        rw [Call.retire, Call.retire, QdrantCollection.serve, QdrantCollection.serve,
          QdrantCollection.delete, QdrantCollection.delete, untouched]
        rfl
  refine ⟨_, deleted_first, by decide, empty, ?_⟩
  intro kept
  obtain ⟨id, point, here, -⟩ := kept.1 true (by decide : (0 : Nat) ≤ 1)
  cases (empty id).symm.trans here

end IndexReplacement

end Cinegraph
