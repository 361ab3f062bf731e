import Cinegraph.Library.Run
import Cinegraph.Transcripts.Ingest

/-!
The versions of a source document over whole runs of ingestions. The versions of
a document are a chain of parents with the active one in front.
-/

namespace Cinegraph

open Library SpeakerReview

namespace InMemoryTranscriptIngestionRepository

variable {repository : InMemoryTranscriptIngestionRepository} {document : SourceDocument}
  {version : SourceVersion} {previous : Option SourceVersion} {segments : List TranscriptSegment}

/-- What a persisted version changes in the store. -/
structure Persisted (repository next : InMemoryTranscriptIngestionRepository)
    (document : SourceDocument) (version : SourceVersion) (previous : Option SourceVersion)
    (segments : List TranscriptSegment) : Prop where
  versions : next.versions = replaceVersion repository.versions version previous
  activeVersions : next.activeVersions =
    repository.activeVersions.set document.sourceDocumentId version.sourceVersionId
  segments : next.segmentsByVersion =
    repository.segmentsByVersion.set version.sourceVersionId segments

/-- Where the caller has read the active version and the segments are of the new one, only
another document under the same id makes the store refuse, before it changes. -/
theorem persist_post (read : repository.getActiveVersion document.sourceDocumentId = .ok previous)
    (own : ∀ segment ∈ segments, segment.sourceVersionId = version.sourceVersionId) :
    Exec.Post (persistNewSubtitleIngestion document version previous segments)
      (fun _ next => Persisted repository next document version previous segments)
      (fun _ next => next = repository) repository := by
  have matching : ¬∃ segment ∈ segments, segment.sourceVersionId ≠ version.sourceVersionId := by
    rintro ⟨segment, member, foreign⟩
    exact foreign (own segment member)
  unfold persistNewSubtitleIngestion keepDocument
  rw [Exec.post_bind, Exec.post_bind, Exec.post_get]
  cases known : repository.documents.get? document.sourceDocumentId with
  | none =>
      have same : InMemoryTranscriptIngestionRepository.getActiveVersion
          { repository with documents :=
              repository.documents.set document.sourceDocumentId document }
          document.sourceDocumentId = .ok previous := read
      simp only [Exec.post_modify, Exec.post_bind, Exec.post_get, same, Exec.post_lift_ok,
        Exec.post_ite, ne_eq, not_true, false_implies, true_and, matching, not_false_iff,
        true_implies]
      exact ⟨rfl, rfl, rfl⟩
  | some stored =>
      simp only [Exec.post_ite, Exec.post_pure, Exec.post_throw, Exec.post_bind, Exec.post_get,
        read, Exec.post_lift_ok, ne_eq, not_true, false_implies, true_and, matching,
        not_false_iff, true_implies, Exec.post_modify, implies_true, and_true]
      exact fun _ => ⟨rfl, rfl, rfl⟩

end InMemoryTranscriptIngestionRepository

open InMemoryTranscriptIngestionRepository

namespace IngestReviewedSubtitleService

variable {command : IngestReviewedSubtitleCommand} {readText : Except Raised (List Char)}
  {now : DateTime} {repository : InMemoryTranscriptIngestionRepository}

/-- An ingestion that returns found its content active or persisted a new version of it. -/
inductive Ingested (command : IngestReviewedSubtitleCommand) (text : List Char) (now : DateTime)
    (repository next : InMemoryTranscriptIngestionRepository) :
    IngestReviewedSubtitleResult → Prop where
  | known {active : SourceVersion}
      (read : repository.getActiveVersion command.sourceDocument.sourceDocumentId =
        .ok (some active))
      (content : active.contentHash = sha256Hex text) (unchanged : next = repository) :
      Ingested command text now repository next ⟨active, [], none, true⟩
  | fresh {previous : Option SourceVersion} {version : SourceVersion}
      {result : TranscriptIngestionResult}
      (read : repository.getActiveVersion command.sourceDocument.sourceDocumentId = .ok previous)
      (content : ∀ active ∈ previous, active.contentHash ≠ sha256Hex text)
      (fields : version.toSourceVersionFields =
        newVersion command (sha256Hex text) now previous)
      (canonical : ingestFinalizedSrtText version.sourceVersionId command.episode command.language
        command.rightsStatus text command.sourceLocator = .ok result)
      (persisted : Persisted repository next command.sourceDocument version previous
        result.segments) :
      Ingested command text now repository next
        ⟨version, result.segments, some result.report, false⟩

/-- An ingestion ends as the persisting step lets it end; `R` is what that step tells beside. -/
theorem executeWith_post {persist : SourceDocument → SourceVersion → Option SourceVersion →
      List TranscriptSegment → Exec InMemoryTranscriptIngestionRepository Raised Unit}
    {E : Raised → InMemoryTranscriptIngestionRepository → Prop} {R : Prop}
    (stays : ∀ e, E e repository)
    (persists : ∀ text previous version result, isSourceVersionApproved command.reviewStatus = true →
      readText = .ok text →
      repository.getActiveVersion command.sourceDocument.sourceDocumentId = .ok previous →
      (∀ active ∈ previous, active.contentHash ≠ sha256Hex text) →
      version.toSourceVersionFields = newVersion command (sha256Hex text) now previous →
      ingestFinalizedSrtText version.sourceVersionId command.episode command.language
        command.rightsStatus text command.sourceLocator = .ok result →
      Exec.Post (persist command.sourceDocument version previous result.segments)
        (fun _ next => Persisted repository next command.sourceDocument version previous
          result.segments ∧ R) E repository) :
    Exec.Post (executeWith persist command readText now)
      (fun result next => ∃ text, readText = .ok text ∧
        Ingested command text now repository next result ∧ (result.wasAlreadyIngested = false → R))
      E repository := by
  unfold executeWith
  rw [Exec.post_ite]
  refine ⟨fun _ => stays _, fun approved => ?_⟩
  rw [Bool.not_eq_false] at approved
  rw [Exec.post_bind, Exec.post_lift]
  refine ⟨?_, fun _ _ => stays _⟩
  intro text text_read
  simp only [Exec.post_bind, Exec.post_get]
  rw [Exec.post_lift]
  refine ⟨?_, fun _ _ => stays _⟩
  intro existing found
  obtain ⟨active, read, found⟩ := (bind_eq_ok _).mp found
  cases found
  cases matching : active.filter fun version => version.contentHash = sha256Hex text with
  | some known =>
      rw [Option.filter_eq_some_iff, decide_eq_true_iff] at matching
      exact ⟨text, text_read, .known (read.trans (congrArg _ matching.1)) matching.2 rfl,
        fun h => by cases h⟩
  | none =>
      simp only [Exec.post_bind, Exec.post_get, read, Exec.post_lift_ok]
      rw [Exec.post_lift]
      refine ⟨?_, fun _ _ => stays _⟩
      intro version created
      rw [Exec.post_lift]
      refine ⟨?_, fun _ _ => stays _⟩
      intro result canonical
      have fields := SourceVersionFields.create_ok created
      have content : ∀ other ∈ active, other.contentHash ≠ sha256Hex text := by
        intro other present same
        rw [Option.filter_eq_none_iff] at matching
        exact matching other present (decide_eq_true same)
      refine (persists text active version result approved text_read read content fields
        canonical).mono ?_ fun _ _ same => same
      rintro _ next ⟨persisted, also⟩
      exact ⟨text, text_read, .fresh read content fields canonical persisted, fun _ => also⟩

theorem execute_post :
    Exec.Post (execute command readText now)
      (fun result next => ∃ text, readText = .ok text ∧
        Ingested command text now repository next result)
      (fun _ next => next = repository) repository := by
  refine (executeWith_post (E := fun _ next => next = repository) (R := True) (fun _ => rfl)
    ?_).mono ?_ fun _ _ same => same
  · intro text previous version result _ _ read _ _ canonical
    refine (persist_post read ?_).mono (fun _ _ persisted => ⟨persisted, trivial⟩)
      fun _ _ same => same
    exact fun segment member => (ingestFinalizedSrtText_owner _ _ _ _ canonical segment member).1
  · rintro result next ⟨text, text_read, ingested, -⟩
    exact ⟨text, text_read, ingested⟩

end IngestReviewedSubtitleService

namespace IngestionHistory

/-- The store together with the text last ingested for each document. -/
structure State where
  repository : InMemoryTranscriptIngestionRepository
  lastIngested : UUID → Option (List Char)

def initial : State := ⟨.new, fun _ => none⟩

/-- A call of the service with what the reader and the clock answer it. -/
structure Call where
  command : IngestReviewedSubtitleCommand
  readText : Except Raised (List Char)
  now : DateTime

def step (s : State) (call : Call) : Option State :=
  match Exec.run (IngestReviewedSubtitleService.execute call.command call.readText call.now)
    s.repository with
  | (.ok _, next) => some ⟨next, Function.update s.lastIngested
      call.command.sourceDocument.sourceDocumentId call.readText.toOption⟩
  | (.error _, next) => some ⟨next, s.lastIngested⟩

/-- Each version names the next older one as its parent, the oldest none. -/
def Linked : List SourceVersion → Prop
  | [] => True
  | version :: older =>
      version.parentSourceVersionId = older.head?.map (fun v => v.sourceVersionId) ∧ Linked older

/-- The versions of a document, newest first. -/
structure Chain (s : State) (sourceDocumentId : UUID) (chain : List SourceVersion) : Prop where
  members : ∀ id version, s.repository.versions.get? id = some version ∧
    version.sourceDocumentId = sourceDocumentId ↔ version ∈ chain ∧ version.sourceVersionId = id
  linked : Linked chain
  acyclic : (chain.map fun v => v.sourceVersionId).Nodup
  active : s.repository.getActiveVersion sourceDocumentId = .ok chain.head?
  only_active : ∀ version ∈ chain, version.status = .active ↔ chain.head? = some version
  content : chain.head?.map (fun v => v.contentHash) =
    (s.lastIngested sourceDocumentId).map sha256Hex

/-- Every document has its chain, and segments are stored for the versions and nothing else. -/
structure Kept (s : State) : Prop where
  chains : ∀ sourceDocumentId, ∃ chain, Chain s sourceDocumentId chain
  segments : ∀ id, s.repository.segmentsByVersion.get? id = none ↔
    s.repository.versions.get? id = none

/-- The content is that of the active version, or no version is stored under its id. -/
def NotReturning (s : State) (call : Call) : Prop :=
  ∀ text, call.readText = .ok text →
    (∃ active, s.repository.getActiveVersion call.command.sourceDocument.sourceDocumentId =
      .ok (some active) ∧ active.contentHash = sha256Hex text) ∨
    s.repository.versions.get? (IdentifierGenerator.sourceVersionId
      call.command.sourceDocument.sourceDocumentId (sha256Hex text)) = none

variable {s t : State} {call : Call}

theorem step_cases (taken : step s call = some t) :
    t = s ∨ ∃ text result, call.readText = .ok text ∧
      t.lastIngested = Function.update s.lastIngested
        call.command.sourceDocument.sourceDocumentId (some text) ∧
      IngestReviewedSubtitleService.Ingested call.command text call.now s.repository t.repository
        result := by
  have post : Exec.Post
      (IngestReviewedSubtitleService.execute call.command call.readText call.now) _ _ s.repository :=
    IngestReviewedSubtitleService.execute_post
  unfold step at taken
  split at taken
  · rename_i result next run
    cases taken
    obtain ⟨text, read, ingested⟩ := post.of_ok run
    refine Or.inr ⟨text, result, read, ?_, ingested⟩
    rw [read]
    rfl
  · rename_i next run
    cases taken
    cases post.of_error run
    exact Or.inl rfl

section Persist

variable {chain : List SourceVersion} {sourceDocumentId : UUID} {version : SourceVersion}

/-- The chain behind a new version: the version that was active is retired. -/
def retireHead : List SourceVersion → List SourceVersion
  | [] => []
  | previous :: older => previous.withStatus .retired :: older

theorem linked_retireHead (linked : Linked chain) : Linked (retireHead chain) := by
  cases chain with
  | nil => trivial
  | cons previous older => exact linked

theorem head?_retireHead :
    (retireHead chain).head?.map (fun v => v.sourceVersionId) =
      chain.head?.map fun v => v.sourceVersionId := by
  cases chain <;> rfl

theorem ids_retireHead : (retireHead chain).map (fun v => v.sourceVersionId) =
    chain.map fun v => v.sourceVersionId := by
  cases chain <;> rfl

theorem get?_replaceVersion (versions : Dict UUID SourceVersion) (id : UUID) :
    (replaceVersion versions version chain.head?).get? id =
      if id = version.sourceVersionId then some version
      else if chain.head?.map (fun v => v.sourceVersionId) = some id then
        chain.head?.map fun v => v.withStatus .retired
      else versions.get? id := by
  cases chain with
  | nil => simp [replaceVersion, Dict.get?_set]
  | cons previous older => simp [replaceVersion, Dict.get?_set, eq_comm]

variable {repository next : InMemoryTranscriptIngestionRepository} {document : SourceDocument}
  {segments : List TranscriptSegment}

theorem get?_persisted (persisted : Persisted repository next document version chain.head? segments)
    (id : UUID) : next.versions.get? id =
      if id = version.sourceVersionId then some version
      else if chain.head?.map (fun v => v.sourceVersionId) = some id then
        chain.head?.map fun v => v.withStatus .retired
      else repository.versions.get? id := by
  rw [persisted.versions, get?_replaceVersion]

/-- A version that is of no concern to the new one stays as it is. -/
theorem get?_persisted_of_ne
    (persisted : Persisted repository next document version chain.head? segments) {id : UUID}
    (other : id ≠ version.sourceVersionId) (behind : ∀ v, chain.head? = some v → v.sourceVersionId ≠ id) :
    next.versions.get? id = repository.versions.get? id := by
  rw [get?_persisted persisted, if_neg other, if_neg]
  intro head
  obtain ⟨v, first, same⟩ := Option.map_eq_some_iff.mp head
  exact behind v first same

end Persist

section Chains

variable {chain : List SourceVersion} {version : SourceVersion} {sourceDocumentId : UUID}
  {document : SourceDocument} {segments : List TranscriptSegment}

theorem Chain.stored (kept : Chain s sourceDocumentId chain) {v : SourceVersion}
    (member : v ∈ chain) : s.repository.versions.get? v.sourceVersionId = some v ∧
      v.sourceDocumentId = sourceDocumentId :=
  (kept.members v.sourceVersionId v).mpr ⟨member, rfl⟩

/-- Persisting a version with a new id puts it in front of the chain of its document. -/
theorem chain_persisted (kept : Chain s document.sourceDocumentId chain)
    (persisted : Persisted s.repository t.repository document version chain.head? segments)
    (fresh : s.repository.versions.get? version.sourceVersionId = none)
    (owner : version.sourceDocumentId = document.sourceDocumentId) (status : version.status = .active)
    (parent : version.parentSourceVersionId = chain.head?.map fun v => v.sourceVersionId)
    (content : (t.lastIngested document.sourceDocumentId).map sha256Hex = some version.contentHash) :
    Chain t document.sourceDocumentId (version :: retireHead chain) := by
  have apart : ∀ v ∈ chain, v.sourceVersionId ≠ version.sourceVersionId := by
    intro v member same
    have here := (kept.stored member).1
    rw [same, fresh] at here
    cases here
  have at_version : t.repository.versions.get? version.sourceVersionId = some version := by
    rw [get?_persisted persisted, if_pos rfl]
  refine ⟨?_, ?_, ?_, ?_, ?_, ?_⟩
  · intro id v
    cases chain with
    | nil =>
        rw [get?_persisted persisted]
        by_cases new : id = version.sourceVersionId
        · subst new
          simp only [if_true, Option.some.injEq, retireHead, List.mem_singleton]
          constructor
          · rintro ⟨rfl, -⟩
            exact ⟨rfl, rfl⟩
          · rintro ⟨rfl, -⟩
            exact ⟨rfl, owner⟩
        · simp only [new, if_false, List.head?_nil, Option.map_none, reduceCtorEq, retireHead,
            List.mem_singleton]
          constructor
          · intro old
            exact absurd ((kept.members id v).mp old).1 List.not_mem_nil
          · rintro ⟨rfl, same⟩
            exact absurd same.symm new
    | cons previous older =>
        have distinct := (List.nodup_cons.mp kept.acyclic).1
        rw [get?_persisted persisted, retireHead, List.mem_cons, List.mem_cons]
        by_cases new : id = version.sourceVersionId
        · subst new
          simp only [if_true, Option.some.injEq]
          constructor
          · rintro ⟨rfl, -⟩
            exact ⟨Or.inl rfl, rfl⟩
          · rintro ⟨rfl | rfl | member, same⟩
            · exact ⟨rfl, owner⟩
            · exact absurd same (apart previous List.mem_cons_self)
            · exact absurd same (apart v (List.mem_cons_of_mem _ member))
        · simp only [new, if_false, List.head?_cons, Option.map_some, Option.some.injEq]
          by_cases old_head : previous.sourceVersionId = id
          · subst old_head
            simp only [if_true, Option.some.injEq]
            constructor
            · rintro ⟨rfl, -⟩
              exact ⟨Or.inr (Or.inl rfl), rfl⟩
            · rintro ⟨rfl | rfl | member, same⟩
              · exact absurd same.symm new
              · exact ⟨rfl, (kept.stored List.mem_cons_self).2⟩
              · exact absurd (List.mem_map.mpr ⟨v, member, same⟩) distinct
          · simp only [old_head, if_false]
            rw [kept.members id v, List.mem_cons]
            constructor
            · rintro ⟨rfl | member, same⟩
              · exact absurd same old_head
              · exact ⟨Or.inr (Or.inr member), same⟩
            · rintro ⟨rfl | rfl | member, same⟩
              · exact absurd same.symm new
              · exact absurd same old_head
              · exact ⟨Or.inr member, same⟩
  · exact ⟨parent.trans head?_retireHead.symm, linked_retireHead kept.linked⟩
  · rw [List.map_cons, List.nodup_cons, ids_retireHead]
    refine ⟨?_, kept.acyclic⟩
    intro member
    obtain ⟨v, inside, same⟩ := List.mem_map.mp member
    exact apart v inside same
  · unfold getActiveVersion
    rw [persisted.activeVersions, Dict.get?_set_self]
    simp only [at_version]
    rfl
  · intro v member
    rw [List.head?_cons, Option.some.injEq]
    rcases List.mem_cons.mp member with rfl | behind
    · exact iff_of_true status rfl
    · cases chain with
      | nil => cases behind
      | cons previous older =>
          rcases List.mem_cons.mp behind with rfl | inside
          · refine iff_of_false (fun active => by cases active) ?_
            intro same
            exact apart previous List.mem_cons_self (congrArg (fun v => v.sourceVersionId) same).symm
          · refine iff_of_false ?_ ?_
            · intro active
              have front := (kept.only_active v (List.mem_cons_of_mem _ inside)).mp active
              cases front
              exact (List.nodup_cons.mp kept.acyclic).1 (List.mem_map_of_mem inside)
            · rintro rfl
              exact apart version (List.mem_cons_of_mem _ inside) rfl
  · rw [content]
    rfl

/-- The chain of every other document stays. -/
theorem chain_other {others : List SourceVersion}
    (kept : Chain s document.sourceDocumentId chain)
    (other : Chain s sourceDocumentId others) (apart : sourceDocumentId ≠ document.sourceDocumentId)
    (persisted : Persisted s.repository t.repository document version chain.head? segments)
    (fresh : s.repository.versions.get? version.sourceVersionId = none)
    (owner : version.sourceDocumentId = document.sourceDocumentId)
    (content : t.lastIngested sourceDocumentId = s.lastIngested sourceDocumentId) :
    Chain t sourceDocumentId others := by
  have head_owner : ∀ v, chain.head? = some v → v.sourceDocumentId = document.sourceDocumentId :=
    fun v first => (kept.stored (List.mem_of_mem_head? first)).2
  have unchanged : ∀ v ∈ others, t.repository.versions.get? v.sourceVersionId = some v := by
    intro v member
    obtain ⟨here, own⟩ := other.stored member
    rw [get?_persisted_of_ne persisted, here]
    · intro same
      rw [same, fresh] at here
      cases here
    · intro p first same
      have there := (kept.stored (List.mem_of_mem_head? first)).1
      rw [same, here] at there
      cases there
      exact apart (own.symm.trans (head_owner v first))
  refine ⟨?_, other.linked, other.acyclic, ?_, other.only_active, ?_⟩
  · intro id v
    constructor
    · rintro ⟨here, own⟩
      rw [get?_persisted persisted] at here
      split at here
      · cases here
        exact absurd (own.symm.trans owner) apart
      · split at here
        · obtain ⟨p, first, rfl⟩ := Option.map_eq_some_iff.mp here
          exact absurd (own.symm.trans (head_owner p first)) apart
        · exact (other.members id v).mp ⟨here, own⟩
    · rintro ⟨member, rfl⟩
      exact ⟨unchanged v member, (other.stored member).2⟩
  · have before := other.active
    unfold getActiveVersion at before ⊢
    rw [persisted.activeVersions, Dict.get?_set_of_ne _ _ apart]
    cases active : s.repository.activeVersions.get? sourceDocumentId with
    | none =>
        rw [active] at before
        exact before
    | some id =>
        rw [active] at before
        dsimp only at before ⊢
        cases stored : s.repository.versions.get? id with
        | none =>
            rw [stored] at before
            cases before
        | some v =>
            rw [stored] at before
            have first : others.head? = some v := (Except.ok.inj before).symm
            have member := List.mem_of_mem_head? first
            have same := ((other.members id v).mp ⟨stored, (other.stored member).2⟩).2
            rw [← same, unchanged v member, first]
            rfl
  · rw [content]
    exact other.content

/-- A call whose content does not return to an older version keeps every chain. -/
theorem kept_step (kept : Kept s) (new_content : NotReturning s call)
    (taken : step s call = some t) : Kept t := by
  rcases step_cases taken with rfl | ⟨text, result, read, last, ingested⟩
  · exact kept
  · have here : t.lastIngested call.command.sourceDocument.sourceDocumentId = some text := by
      rw [last, Function.update_self]
    have elsewhere : ∀ doc, doc ≠ call.command.sourceDocument.sourceDocumentId →
        t.lastIngested doc = s.lastIngested doc := by
      intro doc apart
      rw [last, Function.update_of_ne apart]
    cases ingested with
    | known active_read content unchanged =>
        refine ⟨fun doc => ?_, by rw [unchanged]; exact kept.segments⟩
        obtain ⟨chain, before⟩ := kept.chains doc
        refine ⟨chain, ?_⟩
        by_cases own : doc = call.command.sourceDocument.sourceDocumentId
        · subst own
          have front := Except.ok.inj (before.active.symm.trans active_read)
          refine ⟨?_, before.linked, before.acyclic, ?_, before.only_active, ?_⟩
          · rw [unchanged]
            exact before.members
          · rw [unchanged]
            exact before.active
          · rw [front, here, Option.map_some, Option.map_some, content]
        · refine ⟨?_, before.linked, before.acyclic, ?_, before.only_active, ?_⟩
          · rw [unchanged]
            exact before.members
          · rw [unchanged]
            exact before.active
          · rw [elsewhere doc own]
            exact before.content
    | fresh active_read content fields canonical persisted =>
        rename_i previous version result
        obtain ⟨chain, before⟩ := kept.chains call.command.sourceDocument.sourceDocumentId
        have front := Except.ok.inj (before.active.symm.trans active_read)
        subst front
        have unused : s.repository.versions.get? version.sourceVersionId = none := by
          rcases new_content text read with ⟨active, active_read', same⟩ | unused
          · have first := Except.ok.inj (active_read'.symm.trans active_read)
            exact absurd same (content active first.symm)
          · rw [fields]
            exact unused
        refine ⟨fun doc => ?_, fun id => ?_⟩
        · by_cases own : doc = call.command.sourceDocument.sourceDocumentId
          · subst own
            refine ⟨_, chain_persisted before persisted unused ?_ ?_ ?_ ?_⟩
            · rw [fields]
              rfl
            · rw [fields]
              rfl
            · rw [fields]
              rfl
            · rw [here, fields]
              rfl
          · obtain ⟨others, other⟩ := kept.chains doc
            refine ⟨others, chain_other before other own persisted unused ?_ (elsewhere doc own)⟩
            rw [fields]
            rfl
        · rw [persisted.segments, Dict.get?_set, get?_persisted persisted]
          by_cases new : id = version.sourceVersionId
          · simp [new]
          · rw [if_neg new, if_neg new]
            by_cases head : chain.head?.map (fun v => v.sourceVersionId) = some id
            · rw [if_pos head]
              obtain ⟨v, first, rfl⟩ := Option.map_eq_some_iff.mp head
              have there := (before.stored (List.mem_of_mem_head? first)).1
              rw [kept.segments, there, first]
              exact iff_of_false (fun h => by cases h) (fun h => by cases h)
            · rw [if_neg head]
              exact kept.segments id

end Chains

theorem kept_initial : Kept initial := by
  refine ⟨fun doc => ⟨[], ?_, trivial, List.nodup_nil, rfl, fun _ member =>
    absurd member List.not_mem_nil, rfl⟩, fun id => ⟨fun _ => rfl, fun _ => rfl⟩⟩
  intro id version
  constructor
  · rintro ⟨stored, -⟩
    exact absurd stored (Option.some_ne_none version).symm
  · rintro ⟨member, -⟩
    exact absurd member List.not_mem_nil

theorem Kept.one_active (kept : Kept s) {a b : UUID} {v w : SourceVersion}
    (first : s.repository.versions.get? a = some v) (second : s.repository.versions.get? b = some w)
    (v_active : v.status = .active) (w_active : w.status = .active)
    (same : v.sourceDocumentId = w.sourceDocumentId) : v = w := by
  obtain ⟨chain, has⟩ := kept.chains v.sourceDocumentId
  have v_front := (has.only_active v ((has.members a v).mp ⟨first, rfl⟩).1).mp v_active
  have w_front := (has.only_active w ((has.members b w).mp ⟨second, same.symm⟩).1).mp w_active
  exact Option.some.inj (v_front.symm.trans w_front)

/-- In runs in which no content returns to an older version, every document has one active
version, the one last ingested, in front of an acyclic chain of parents; a call that raises
leaves the store as it was. -/
theorem versions_form_chains (run : Run step NotReturning initial s) :
    Kept s ∧
    (∀ a b v w, s.repository.versions.get? a = some v → s.repository.versions.get? b = some w →
      v.status = .active → w.status = .active → v.sourceDocumentId = w.sourceDocumentId → v = w) ∧
    (∀ (call : Call) error next, Exec.run (IngestReviewedSubtitleService.execute call.command call.readText
      call.now) s.repository = (.error error, next) → next = s.repository) := by
  have kept : Kept s := run.invariant kept_initial fun _ _ _ => kept_step
  refine ⟨kept, ?_, ?_⟩
  · intro a b v w first second v_active w_active same
    exact kept.one_active first second v_active w_active same
  · intro call error next raised
    exact IngestReviewedSubtitleService.execute_post.of_error raised

instance (s : State) (call : Call) : Decidable (NotReturning s call) :=
  match read : call.readText with
  | .error e => isTrue fun text same => by
      rw [read] at same
      cases same
  | .ok text =>
      decidable_of_iff
        (((s.repository.getActiveVersion call.command.sourceDocument.sourceDocumentId).toOption.bind
            id).any (fun active => active.contentHash = sha256Hex text) = true ∨
          s.repository.versions.get? (IdentifierGenerator.sourceVersionId
            call.command.sourceDocument.sourceDocumentId (sha256Hex text)) = none) <| by
        unfold NotReturning
        rw [read]
        constructor
        · rintro known text' same
          cases same
          refine known.imp ?_ id
          intro any
          obtain ⟨active, found, same⟩ := (Option.any_eq_true _ _).mp any
          obtain ⟨result, answered, rfl⟩ := Option.bind_eq_some_iff.mp found
          refine ⟨active, ?_, of_decide_eq_true same⟩
          cases read_active : s.repository.getActiveVersion
              call.command.sourceDocument.sourceDocumentId with
          | error e =>
              rw [read_active] at answered
              cases answered
          | ok value =>
              rw [read_active] at answered
              cases answered
              rfl
        · intro each
          refine (each text rfl).imp ?_ id
          rintro ⟨active, read_active, same⟩
          rw [read_active]
          exact decide_eq_true same

/-- A reviewed subtitle of one episode. -/
def sampleCommand : IngestReviewedSubtitleCommand where
  sourceDocument := ⟨⟨5⟩, "Pilot", .subtitle, "reviewed-subtitle:pilot.srt", by decide, by decide⟩
  sourceLocator := "pilot.srt"
  episode := ⟨⟨1⟩, ⟨2⟩, ⟨3⟩, ⟨1, 1, EpisodePosition.first_pos, EpisodePosition.first_pos⟩⟩
  language := .english
  rightsStatus := .allowed
  acquisitionMethod := .localFilesystem
  reviewedBy := "editor"
  reviewedAt := ⟨.utc, 0⟩
  reviewStatus := .reviewed

def ingest (text : String) : Call := ⟨sampleCommand, .ok text.toList, ⟨.utc, 0⟩⟩

def firstCut : String := "1\n00:00:01,000 --> 00:00:02,000\nALICE: Hi.\n"

def secondCut : String := "1\n00:00:01,000 --> 00:00:02,000\nALICE: Hello.\n"

theorem versions_form_chains_sample : ∃ s, Run step NotReturning initial s ∧
    s.repository.versions.keys.length = 2 ∧ Kept s := by
  obtain ⟨s, run, two⟩ := Run.exists_of_checked step NotReturning initial
    [ingest firstCut, ingest secondCut] (fun s => s.repository.versions.keys.length = 2)
    (by decide +kernel)
  exact ⟨s, run, of_decide_eq_true two, (versions_form_chains run).1⟩

theorem linked_parent {chain : List SourceVersion} (linked : Linked chain) {v : SourceVersion}
    (member : v ∈ chain) {id : UUID} (parent : v.parentSourceVersionId = some id) :
    id ∈ chain.tail.map fun w => w.sourceVersionId := by
  induction chain with
  | nil => cases member
  | cons first older ih =>
      rcases List.mem_cons.mp member with rfl | inside
      · obtain ⟨w, front, same⟩ := Option.map_eq_some_iff.mp (linked.1.symm.trans parent)
        exact List.mem_map.mpr ⟨w, List.mem_of_mem_head? front, same⟩
      · obtain ⟨w, behind, same⟩ := List.mem_map.mp (ih linked.2 inside)
        exact List.mem_map.mpr ⟨w, List.mem_of_mem_tail behind, same⟩

/-- No two versions of a chain are each other's parents. -/
theorem linked_acyclic {chain : List SourceVersion} (linked : Linked chain)
    (distinct : (chain.map fun w => w.sourceVersionId).Nodup) {v w : SourceVersion}
    (v_member : v ∈ chain) (w_member : w ∈ chain)
    (v_parent : v.parentSourceVersionId = some w.sourceVersionId)
    (w_parent : w.parentSourceVersionId = some v.sourceVersionId) : False := by
  induction chain with
  | nil => cases v_member
  | cons first older ih =>
      have front := (List.nodup_cons.mp distinct).1
      have v_behind := linked_parent linked w_member w_parent
      have w_behind := linked_parent linked v_member v_parent
      rcases List.mem_cons.mp v_member with rfl | v_inside
      · exact front v_behind
      · rcases List.mem_cons.mp w_member with rfl | w_inside
        · exact front w_behind
        · exact ih linked.2 (List.nodup_cons.mp distinct).2 v_inside w_inside

/-- A text that comes back makes the older of two versions the child of the newer. -/
theorem returning_text_closes_cycle : ∃ s, Run step (fun _ _ => True) initial s ∧
    (∃ v w, s.repository.versions.get? v.sourceVersionId = some v ∧
      s.repository.versions.get? w.sourceVersionId = some w ∧
      v.parentSourceVersionId = some w.sourceVersionId ∧
      w.parentSourceVersionId = some v.sourceVersionId) ∧ ¬Kept s := by
  obtain ⟨s, run, test⟩ := Run.exists_of_checked step (fun _ _ => True) initial
    [ingest firstCut, ingest secondCut, ingest firstCut]
    (fun s => s.repository.versions.values.any fun v => s.repository.versions.values.any fun w =>
      s.repository.versions.get? v.sourceVersionId = some v ∧
      s.repository.versions.get? w.sourceVersionId = some w ∧
      v.parentSourceVersionId = some w.sourceVersionId ∧
      w.parentSourceVersionId = some v.sourceVersionId ∧ v.sourceDocumentId = w.sourceDocumentId)
    (by decide +kernel)
  obtain ⟨v, -, test⟩ := List.any_eq_true.mp test
  obtain ⟨w, -, test⟩ := List.any_eq_true.mp test
  obtain ⟨v_stored, w_stored, v_parent, w_parent, owner⟩ := of_decide_eq_true test
  refine ⟨s, run, ⟨v, w, v_stored, w_stored, v_parent, w_parent⟩, fun kept => ?_⟩
  obtain ⟨chain, has⟩ := kept.chains v.sourceDocumentId
  have v_member := ((has.members _ v).mp ⟨v_stored, rfl⟩).1
  have w_member := ((has.members _ w).mp ⟨w_stored, owner.symm⟩).1
  exact linked_acyclic has.linked has.acyclic v_member w_member v_parent w_parent

end IngestionHistory

end Cinegraph
