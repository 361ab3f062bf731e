import Cinegraph.Transcripts.Corpus
import Cinegraph.Transcripts.History

/-!
Repeated executions over a corpus. The repository decides what a retry skips, so
the index is complete as long as no execution stops between persisting an episode
and indexing it.
-/

namespace Cinegraph

open Library SpeakerReview InMemoryTranscriptIngestionRepository

namespace CorpusRetry

/-- Which document an episode is read from and which names the generated ids stand for. -/
structure Naming where
  episodeDocument : UUID → UUID
  versionDocument : UUID → UUID
  chunkVersion : UUID → UUID

/-- Every chunk of the segments has its point in the index. -/
def FullyIndexed (configuration : TranscriptChunkingConfiguration) (index : QdrantCollection)
    (version : SourceVersion) (segments : List TranscriptSegment) : Prop :=
  ∃ chunks, TranscriptChunkingService.chunk configuration segments = .ok chunks ∧
    ∀ chunk ∈ chunks, ∃ vector, index chunk.chunkId =
      some (IndexTranscriptSegmentsService.point version chunk vector)

variable (mode : QdrantTranscriptReplacementMode) (denseVectorSize : Nat)
  (configuration : TranscriptChunkingConfiguration) (naming : Naming)
  (ledger : UUID → String → Prop)

def AlreadyActive (s : Corpus) (item : ReviewedSubtitleBatchItem) (text : List Char) : Prop :=
  ∃ active, s.repository.getActiveVersion item.sourceDocumentId = .ok (some active) ∧
    active.contentHash = sha256Hex text

/-- New content is what the ledger lists, is persisted and then indexed without a failure. -/
structure Settles (s : Corpus) (item : ReviewedSubtitleBatchItem) (answers : EpisodeAnswers)
    (text : List Char) : Prop where
  hash : sha256Hex text = item.contentSha256
  listed : ledger item.sourceDocumentId item.contentSha256
  named : naming.versionDocument (IdentifierGenerator.sourceVersionId item.sourceDocumentId
    (sha256Hex text)) = item.sourceDocumentId
  persisted : answers.persistence = .acknowledged
  acknowledged : ∀ answer ∈ answers.requests, answer = .acknowledged
  indexes : ∀ document previous version result, document.sourceDocumentId = item.sourceDocumentId →
    s.repository.getActiveVersion item.sourceDocumentId = .ok previous →
    version.toSourceVersionFields = IngestReviewedSubtitleService.newVersion
      (item.command document) (sha256Hex text) answers.now previous →
    ingestFinalizedSrtText version.sourceVersionId item.episode .english .allowed text
      item.sourcePath = .ok result →
    (∃ indexed, IndexTranscriptSegmentsService.execute mode denseVectorSize configuration
      answers.encodeDocuments version result.segments = .ok indexed) ∧
    ∀ chunks, TranscriptChunkingService.chunk configuration result.segments = .ok chunks →
      ∀ chunk ∈ chunks, naming.chunkVersion chunk.chunkId = version.sourceVersionId

/-- Before anything is persisted the text is refused: by the check of the review status, by a
constructor or by the parser. -/
def Refused (s : Corpus) (item : ReviewedSubtitleBatchItem) (answers : EpisodeAnswers)
    (text : List Char) : Prop :=
  ∀ document previous (version : SourceVersion) result,
    isSourceVersionApproved item.reviewStatus = true →
    SourceDocument.make item.sourceDocumentId item.episodeTitle .subtitle item.origin = .ok document →
    s.repository.getActiveVersion item.sourceDocumentId = .ok previous →
    version.toSourceVersionFields = IngestReviewedSubtitleService.newVersion
      (item.command document) (sha256Hex text) answers.now previous →
    ingestFinalizedSrtText version.sourceVersionId item.episode .english .allowed text
      item.sourcePath ≠ .ok result

/-- An episode that does not fail between its persistence and the end of its indexing. -/
def EpisodeSettles (s : Corpus) (entry : ReviewedSubtitleBatchItem × EpisodeAnswers) : Prop :=
  naming.episodeDocument entry.1.episode.episodeId = entry.1.sourceDocumentId ∧
  ∀ text, entry.2.readText = .ok text → AlreadyActive s entry.1 text ∨
    Refused s entry.1 entry.2 text ∨ (∃ error, entry.2.persistence = .failedBefore error) ∨
    Settles mode denseVectorSize configuration naming ledger s entry.1 entry.2 text

/-- The episodes of a batch have documents of their own, and each settles. -/
def BatchSettles (s : Corpus) (batch : List (ReviewedSubtitleBatchItem × EpisodeAnswers)) : Prop :=
  (batch.map fun entry => entry.1.sourceDocumentId).Nodup ∧
    ∀ entry ∈ batch, EpisodeSettles mode denseVectorSize configuration naming ledger s entry

/-- The active version of a document is listed, and all its chunks are in the index. -/
structure Entry (s : Corpus) (documentId id : UUID) (version : SourceVersion)
    (segments : List TranscriptSegment) (chunks : List TranscriptRetrievalChunk) : Prop where
  stored : s.repository.versions.get? id = some version
  identity : version.sourceVersionId = id
  named : naming.versionDocument id = documentId
  listed : ledger documentId version.contentHash
  persisted : s.repository.segmentsByVersion.get? id = some segments
  cut : TranscriptChunkingService.chunk configuration segments = .ok chunks
  origin : ∀ chunk ∈ chunks, chunk.sourceVersionId = id ∧
    naming.chunkVersion chunk.chunkId = id ∧
    naming.episodeDocument chunk.episode.episodeId = documentId
  indexed : ∀ chunk ∈ chunks, ∃ vector, s.index chunk.chunkId =
    some (IndexTranscriptSegmentsService.point version chunk vector)

/-- What no execution breaks. -/
def Consistent (s : Corpus) : Prop :=
  ∀ documentId id, s.repository.activeVersions.get? documentId = some id →
    ∃ version segments chunks,
      Entry configuration naming ledger s documentId id version segments chunks

variable {mode denseVectorSize configuration naming ledger} {s t : Corpus}
  {documentId id : UUID} {version : SourceVersion}

theorem getActiveVersion_eq (active : s.repository.activeVersions.get? documentId = some id)
    (stored : s.repository.versions.get? id = some version) :
    s.repository.getActiveVersion documentId = .ok (some version) := by
  unfold getActiveVersion
  rw [active]
  dsimp only
  rw [stored]
  rfl

theorem exists_of_getActiveVersion
    (read : s.repository.getActiveVersion documentId = .ok (some version)) :
    ∃ id, s.repository.activeVersions.get? documentId = some id ∧
      s.repository.versions.get? id = some version := by
  unfold getActiveVersion at read
  split at read
  · cases read
  · rename_i id active
    refine ⟨id, active, ?_⟩
    cases stored : s.repository.versions.get? id with
    | none =>
        rw [stored] at read
        cases read
    | some found =>
        rw [stored] at read
        cases read
        rfl

section Persist

variable {document : SourceDocument} {previous : Option SourceVersion}
  {segments : List TranscriptSegment}

/-- The ids that a persisted version touches are of its document. -/
theorem previous_named (consistent : Consistent configuration naming ledger s)
    (read : s.repository.getActiveVersion documentId = .ok previous) :
    ∀ p ∈ previous, naming.versionDocument p.sourceVersionId = documentId := by
  intro p present
  cases present
  obtain ⟨id, active, stored⟩ := exists_of_getActiveVersion read
  obtain ⟨version, _, _, entry⟩ := consistent documentId id active
  have same : some version = some p := entry.stored.symm.trans stored
  cases same
  rw [entry.identity]
  exact entry.named

theorem get?_replaceVersion_of_ne {versions : Dict UUID SourceVersion}
    (new : id ≠ version.sourceVersionId) (old : ∀ p ∈ previous, id ≠ p.sourceVersionId) :
    (replaceVersion versions version previous).get? id = versions.get? id := by
  cases previous with
  | none => exact Dict.get?_set_of_ne _ _ new
  | some p =>
      rw [replaceVersion, Dict.get?_set_of_ne _ _ new, Dict.get?_set_of_ne _ _ (old p rfl)]

theorem get?_replaceVersion_self {versions : Dict UUID SourceVersion} :
    (replaceVersion versions version previous).get? version.sourceVersionId = some version := by
  cases previous <;> exact Dict.get?_set_self _ _ _

/-- A document other than the one persisted keeps its entry where the index keeps its points. -/
theorem entry_other {next : Corpus} {chunks : List TranscriptRetrievalChunk}
    {active : SourceVersion} {stored : List TranscriptSegment}
    (consistent : Consistent configuration naming ledger s)
    (read : s.repository.getActiveVersion document.sourceDocumentId = .ok previous)
    (persisted : Persisted s.repository next.repository document version previous segments)
    (named : naming.versionDocument version.sourceVersionId = document.sourceDocumentId)
    (other : documentId ≠ document.sourceDocumentId)
    (entry : Entry configuration naming ledger s documentId id active stored chunks)
    (kept : ∀ chunk ∈ chunks, ∀ vector, s.index chunk.chunkId =
      some (IndexTranscriptSegmentsService.point active chunk vector) →
      next.index chunk.chunkId = some (IndexTranscriptSegmentsService.point active chunk vector)) :
    Entry configuration naming ledger next documentId id active stored chunks := by
  have new : id ≠ version.sourceVersionId := by
    rintro rfl
    exact other (entry.named.symm.trans named)
  have old : ∀ p ∈ previous, id ≠ p.sourceVersionId := by
    rintro p present rfl
    exact other (entry.named.symm.trans (previous_named consistent read p present))
  refine ⟨?_, entry.identity, entry.named, entry.listed, ?_, entry.cut, entry.origin, ?_⟩
  · rw [persisted.versions, get?_replaceVersion_of_ne new old]
    exact entry.stored
  · rw [persisted.segments, Dict.get?_set_of_ne _ _ new]
    exact entry.persisted
  · intro chunk member
    obtain ⟨vector, here⟩ := entry.indexed chunk member
    exact ⟨vector, kept chunk member vector here⟩

/-- The active version of every other document stays. -/
theorem getActiveVersion_other {next : Corpus}
    (consistent : Consistent configuration naming ledger s)
    (read : s.repository.getActiveVersion document.sourceDocumentId = .ok previous)
    (persisted : Persisted s.repository next.repository document version previous segments)
    (named : naming.versionDocument version.sourceVersionId = document.sourceDocumentId)
    (other : documentId ≠ document.sourceDocumentId) :
    next.repository.getActiveVersion documentId = s.repository.getActiveVersion documentId := by
  unfold getActiveVersion
  rw [persisted.activeVersions, Dict.get?_set_of_ne _ _ other]
  cases active : s.repository.activeVersions.get? documentId with
  | none => rfl
  | some id =>
      obtain ⟨stored, segments, chunks, entry⟩ := consistent documentId id active
      have new : id ≠ version.sourceVersionId := by
        rintro rfl
        exact other (entry.named.symm.trans named)
      have old : ∀ p ∈ previous, id ≠ p.sourceVersionId := by
        rintro p present rfl
        exact other (entry.named.symm.trans (previous_named consistent read p present))
      dsimp only
      rw [persisted.versions, get?_replaceVersion_of_ne new old]

end Persist

theorem getActiveVersion_persisted {repository next : InMemoryTranscriptIngestionRepository}
    {document : SourceDocument} {previous : Option SourceVersion}
    {segments : List TranscriptSegment}
    (persisted : Persisted repository next document version previous segments) :
    next.getActiveVersion document.sourceDocumentId = .ok (some version) := by
  unfold getActiveVersion
  rw [persisted.activeVersions, Dict.get?_set_self]
  dsimp only
  rw [persisted.versions, get?_replaceVersion_self]
  rfl

section Index

variable {segments : List TranscriptSegment} {requests : List QdrantRequest}
  {points : List TranscriptIndexPoint} {retired : Option UUID} {newId : UUID}

/-- The requests of a replacement leave alone the points of documents it is not about. -/
theorem spares_other
    (accepted : QdrantTranscriptIndexWriter.replaceSourceVersion mode denseVectorSize newId retired
      points = .ok requests) {point : TranscriptIndexPoint}
    (absent : point.chunkId ∉ points.map TranscriptIndexPoint.chunkId)
    (episode : ∀ p ∈ points, point.payload.episodeId ≠ p.payload.episodeId)
    (not_retired : ∀ r ∈ retired, point.payload.sourceVersionId ≠ r) :
    ∀ request ∈ requests, QdrantCollection.Spares point request := by
  obtain ⟨-, -, -, deletions, rfl, each⟩ :=
    QdrantTranscriptIndexWriter.replaceSourceVersion_ok accepted
  intro request member
  rcases List.mem_append.mp member with first | later
  · split at first
    · cases first
    · rw [List.mem_singleton.mp first]
      exact absent
  · rcases each request later with ⟨p, inside, rfl⟩ | ⟨r, given, rfl⟩
    · exact fun same => absurd same (episode p inside)
    · exact not_retired r given

/-- After a replacement all its points are in the index. -/
theorem replacement_indexes
    (accepted : QdrantTranscriptIndexWriter.replaceSourceVersion mode denseVectorSize newId retired
      points = .ok requests) (index : QdrantCollection) {point : TranscriptIndexPoint}
    (member : point ∈ points) :
    requests.foldl QdrantCollection.serve index point.chunkId = some point := by
  obtain ⟨differ, unique, own, deletions, rfl, each⟩ :=
    QdrantTranscriptIndexWriter.replaceSourceVersion_ok accepted
  have some_point : points ≠ [] := List.ne_nil_of_mem member
  rw [if_neg some_point, List.singleton_append, List.foldl_cons]
  refine QdrantCollection.serve_all_of_spares ?_ (QdrantCollection.upsert_of_mem index unique member)
  intro request inside
  rcases each request inside with ⟨p, -, rfl⟩ | ⟨r, given, rfl⟩
  · exact fun _ _ => own point member
  · intro same
    rw [own point member] at same
    exact differ (same ▸ given)

end Index

section Episode

variable {item : ReviewedSubtitleBatchItem} {answers : EpisodeAnswers}

/-- The document has the version that the ledger lists for the item. -/
def Done (s : Corpus) (item : ReviewedSubtitleBatchItem) : Prop :=
  ∃ version, s.repository.getActiveVersion item.sourceDocumentId = .ok (some version) ∧
    version.contentHash = item.contentSha256

theorem make_sourceDocumentId {title origin : String} {kind : SourceKind} {document : SourceDocument}
    (made : SourceDocument.make documentId title kind origin = .ok document) :
    document.sourceDocumentId = documentId := by
  unfold SourceDocument.make at made
  split at made
  · split at made
    · cases made
      rfl
    · cases made
  · cases made

/-- Persisting new content and indexing it keeps both stores consistent. -/
theorem consistent_indexed {document : SourceDocument} {text : List Char}
    {previous : Option SourceVersion} {result : TranscriptIngestionResult}
    {next : InMemoryTranscriptIngestionRepository} {requests : List QdrantRequest} {count : Nat}
    (consistent : Consistent configuration naming ledger s)
    (settles : Settles mode denseVectorSize configuration naming ledger s item answers text)
    (sourced : naming.episodeDocument item.episode.episodeId = item.sourceDocumentId)
    (own : document.sourceDocumentId = item.sourceDocumentId)
    (read : s.repository.getActiveVersion item.sourceDocumentId = .ok previous)
    (fields : version.toSourceVersionFields = IngestReviewedSubtitleService.newVersion
      (item.command document) (sha256Hex text) answers.now previous)
    (canonical : ingestFinalizedSrtText version.sourceVersionId item.episode .english .allowed text
      item.sourcePath = .ok result)
    (persisted : Persisted s.repository next document version previous result.segments)
    (executed : IndexTranscriptSegmentsService.execute mode denseVectorSize configuration
      answers.encodeDocuments version result.segments = .ok (requests, count)) :
    Consistent configuration naming ledger
      ⟨next, requests.foldl QdrantCollection.serve s.index⟩ := by
  obtain ⟨chunks, points, cut, accepted, covered, from_chunks⟩ :=
    IndexTranscriptSegmentsService.execute_ok executed
  have chunk_names := (settles.indexes document previous version result own read fields canonical).2
    chunks cut
  have parent : version.parentSourceVersionId = previous.map fun p => p.sourceVersionId := by
    rw [fields]
    rfl
  have named : naming.versionDocument version.sourceVersionId = item.sourceDocumentId := by
    rw [fields]
    show naming.versionDocument (IdentifierGenerator.sourceVersionId document.sourceDocumentId _) = _
    rw [own]
    exact settles.named
  have origin : ∀ chunk ∈ chunks, chunk.sourceVersionId = version.sourceVersionId ∧
      chunk.episode = item.episode := by
    intro chunk member
    obtain ⟨segment, inside, same_version, same_episode⟩ :=
      TranscriptChunkingService.chunk_from cut chunk member
    have owner := ingestFinalizedSrtText_owner _ _ _ _ canonical segment inside
    exact ⟨same_version.trans owner.1, same_episode.trans owner.2⟩
  have read' : s.repository.getActiveVersion document.sourceDocumentId = .ok previous := own ▸ read
  have named' : naming.versionDocument version.sourceVersionId = document.sourceDocumentId :=
    named.trans own.symm
  intro documentId id active
  dsimp only at active
  rw [persisted.activeVersions, Dict.get?_set] at active
  split at active
  · rename_i same
    cases active
    subst same
    refine ⟨version, result.segments, chunks, ?_⟩
    refine ⟨?_, rfl, named', ?_, ?_, cut, ?_, ?_⟩
    · dsimp only
      rw [persisted.versions, get?_replaceVersion_self]
    · rw [own, fields]
      show ledger _ (sha256Hex text)
      rw [settles.hash]
      exact settles.listed
    · dsimp only
      rw [persisted.segments, Dict.get?_set_self]
    · intro chunk member
      refine ⟨(origin chunk member).1, chunk_names chunk member, ?_⟩
      rw [(origin chunk member).2, own]
      exact sourced
    · intro chunk member
      obtain ⟨vector, inside⟩ := covered chunk member
      exact ⟨vector, replacement_indexes accepted s.index inside⟩
  · rename_i other
    obtain ⟨stored, segments, kept_chunks, entry⟩ := consistent documentId id active
    refine ⟨stored, segments, kept_chunks, entry_other consistent read' persisted named' other entry ?_⟩
    intro chunk member vector here
    obtain ⟨chunk_version, chunk_name, chunk_document⟩ := entry.origin chunk member
    suffices spared : ∀ request ∈ requests, QdrantCollection.Spares
        (IndexTranscriptSegmentsService.point stored chunk vector) request from
      QdrantCollection.serve_all_of_spares spared here
    apply spares_other accepted
    · intro clash
      obtain ⟨p, inside, same⟩ := List.mem_map.mp clash
      obtain ⟨new_chunk, new_member, _, rfl⟩ := from_chunks p inside
      have new_name := chunk_names new_chunk new_member
      have id_eq : id = version.sourceVersionId := by
        rw [← chunk_name, ← new_name]
        exact congrArg naming.chunkVersion same.symm
      exact other (entry.named.symm.trans (id_eq ▸ named'))
    · intro p inside same
      obtain ⟨new_chunk, new_member, _, rfl⟩ := from_chunks p inside
      apply other
      rw [← chunk_document, own, ← sourced, ← (origin new_chunk new_member).2]
      exact congrArg naming.episodeDocument same
    · intro r given same
      rw [parent] at given
      obtain ⟨p, present, rfl⟩ := Option.map_eq_some_iff.mp given
      have here_named := previous_named consistent read' p present
      have id_eq : id = p.sourceVersionId := chunk_version.symm.trans same
      exact other (entry.named.symm.trans (id_eq ▸ here_named))

theorem persistAnswered_post {document : SourceDocument} {previous : Option SourceVersion}
    {segments : List TranscriptSegment} {repository : InMemoryTranscriptIngestionRepository}
    {answer : RequestAnswer} (answered : answer = .acknowledged ∨ ∃ error, answer = .failedBefore error)
    (read : repository.getActiveVersion document.sourceDocumentId = .ok previous)
    (own : ∀ segment ∈ segments, segment.sourceVersionId = version.sourceVersionId) :
    Exec.Post (persistAnswered answer document version previous segments)
      (fun _ next => Persisted repository next document version previous segments ∧
        answer = .acknowledged)
      (fun _ next => next = repository) repository := by
  rcases answered with rfl | ⟨error, rfl⟩
  · exact (persist_post read own).mono (fun _ _ persisted => ⟨persisted, rfl⟩) fun _ _ same => same
  · exact rfl

/-- An episode that settles ends with its ledger's content active, or changes nothing. -/
theorem ingestEpisode_post (consistent : Consistent configuration naming ledger s)
    (settles : EpisodeSettles mode denseVectorSize configuration naming ledger s (item, answers)) :
    Exec.Post (IngestReviewedCorpusService.ingestEpisode mode denseVectorSize configuration item
        answers)
      (fun _ t => Consistent configuration naming ledger t ∧ Done t item ∧
        ∀ d, d ≠ item.sourceDocumentId →
          t.repository.getActiveVersion d = s.repository.getActiveVersion d)
      (fun _ t => Consistent configuration naming ledger t) s := by
  obtain ⟨sourced, each⟩ := settles
  unfold IngestReviewedCorpusService.ingestEpisode
  rw [Exec.post_bind, Exec.post_lift]
  refine ⟨?_, fun _ _ => consistent⟩
  intro document made
  have own : document.sourceDocumentId = item.sourceDocumentId := make_sourceDocumentId made
  rw [Exec.post_bind, Corpus.post_onRepository]
  have ingest : Exec.Post (IngestReviewedSubtitleService.executeWith
      (persistAnswered answers.persistence) (item.command document) answers.readText answers.now)
      (fun result next => ∃ text, answers.readText = .ok text ∧
        IngestReviewedSubtitleService.Ingested (item.command document) text answers.now
          s.repository next result ∧
        (result.wasAlreadyIngested = false → answers.persistence = .acknowledged ∧
          ∀ text, answers.readText = .ok text → ¬Refused s item answers text))
      (fun _ next => next = s.repository) s.repository :=
    IngestReviewedSubtitleService.executeWith_post (fun _ => rfl) (by
      intro text previous version result approved text_read read content fields canonical
      have possible : ¬Refused s item answers text := fun refused =>
        refused document previous version result approved made ((congrArg _ own.symm).trans read) fields
          canonical
      have answered : answers.persistence = .acknowledged ∨
          ∃ error, answers.persistence = .failedBefore error := by
        rcases each text text_read with ⟨active, active_read, same⟩ | refused | failed | settled
        · have first := Except.ok.inj (read.symm.trans ((congrArg _ own).trans active_read))
          exact absurd same (content active first)
        · exact absurd refused possible
        · exact Or.inr failed
        · exact Or.inl settled.persisted
      have owned : ∀ segment ∈ result.segments, segment.sourceVersionId = version.sourceVersionId :=
        fun segment member => (ingestFinalizedSrtText_owner _ _ _ _ canonical segment member).1
      refine (persistAnswered_post answered read owned).mono ?_ fun _ _ same => same
      rintro _ next ⟨persisted, acknowledged⟩
      refine ⟨persisted, acknowledged, fun again again_read => ?_⟩
      rw [text_read] at again_read
      cases again_read
      exact possible)
  refine ingest.mono ?_ ?_
  · rintro ingestion next ⟨text, text_read, ingested, answered⟩
    rw [Exec.post_ite]
    cases ingested with
    | known read content unchanged =>
        rw [unchanged]
        refine ⟨fun _ => consistent, fun matching => ?_⟩
        refine ⟨consistent, ⟨_, ?_, not_not.mp matching⟩, fun _ _ => rfl⟩
        exact (congrArg _ own.symm).trans read
    | fresh read content fields canonical persisted =>
        rename_i previous version result
        have settled : Settles mode denseVectorSize configuration naming ledger s item answers
            text := by
          rcases each text text_read with
            ⟨active, active_read, same⟩ | refused | ⟨error, failed⟩ | settled
          · have first := Except.ok.inj (read.symm.trans ((congrArg _ own).trans active_read))
            exact absurd same (content active first)
          · exact absurd refused ((answered rfl).2 text text_read)
          · cases failed.symm.trans (answered rfl).1
          · exact settled
        have read' : s.repository.getActiveVersion item.sourceDocumentId = .ok previous :=
          (congrArg _ own.symm).trans read
        have hash : version.contentHash = item.contentSha256 := by
          rw [fields]
          exact settled.hash
        refine ⟨fun differs => absurd hash differs, fun _ => ?_⟩
        obtain ⟨⟨⟨requests, count⟩, executed⟩, -⟩ :=
          settled.indexes document previous version result own read' fields canonical
        have consistent' := consistent_indexed consistent settled sourced own read' fields canonical
          persisted executed
        have here : next.getActiveVersion item.sourceDocumentId = .ok (some version) :=
          (congrArg _ own.symm).trans (getActiveVersion_persisted persisted)
        have named : naming.versionDocument version.sourceVersionId = document.sourceDocumentId := by
          rw [fields, own, ← settled.named, ← own]
          rfl
        simp only [Bool.false_eq_true, if_false]
        rw [Exec.post_bind]
        rw [executed, Exec.post_lift_ok, Exec.post_bind, Corpus.post_onIndex settled.acknowledged]
        refine ⟨consistent', ⟨version, here, hash⟩, fun d other => ?_⟩
        exact getActiveVersion_other consistent read persisted named (own.symm ▸ other)
  · rintro _ next rfl
    exact consistent

end Episode

section Batch

variable {batch : List (ReviewedSubtitleBatchItem × EpisodeAnswers)}

theorem episodeSettles_of_same {entry : ReviewedSubtitleBatchItem × EpisodeAnswers}
    (same : t.repository.getActiveVersion entry.1.sourceDocumentId =
      s.repository.getActiveVersion entry.1.sourceDocumentId)
    (settles : EpisodeSettles mode denseVectorSize configuration naming ledger s entry) :
    EpisodeSettles mode denseVectorSize configuration naming ledger t entry := by
  refine ⟨settles.1, fun text text_read => ?_⟩
  rcases settles.2 text text_read with ⟨active, read, content⟩ | refused | failed | settled
  · exact Or.inl ⟨active, same.trans read, content⟩
  · refine Or.inr (Or.inl fun document previous version result approved made read => ?_)
    exact refused document previous version result approved made (same.symm.trans read)
  · exact Or.inr (Or.inr (Or.inl failed))
  · refine Or.inr (Or.inr (Or.inr ⟨settled.hash, settled.listed, settled.named, settled.persisted,
      settled.acknowledged, ?_⟩))
    intro document previous version result own read
    exact settled.indexes document previous version result own (same.symm.trans read)

/-- The loop keeps the stores consistent; when it ends every episode of the batch is done. -/
theorem execute_post (consistent : Consistent configuration naming ledger s)
    (settles : BatchSettles mode denseVectorSize configuration naming ledger s batch) :
    Exec.Post (IngestReviewedCorpusService.execute mode denseVectorSize configuration batch)
      (fun _ t => Consistent configuration naming ledger t ∧ ∀ entry ∈ batch, Done t entry.1)
      (fun _ t => Consistent configuration naming ledger t) s := by
  obtain ⟨distinct, each⟩ := settles
  let I (rest : List (ReviewedSubtitleBatchItem × EpisodeAnswers)) (t : Corpus) : Prop :=
    Consistent configuration naming ledger t ∧ ∃ before, batch = before ++ rest ∧
      (∀ entry ∈ before, Done t entry.1) ∧
      ∀ entry ∈ rest, EpisodeSettles mode denseVectorSize configuration naming ledger t entry
  have loop := Exec.post_mapM (f := fun entry => IngestReviewedCorpusService.ingestEpisode mode
    denseVectorSize configuration entry.1 entry.2) (I := I)
    (E := fun _ t => Consistent configuration naming ledger t) ?_ batch s
    ⟨consistent, [], rfl, fun _ member => absurd member List.not_mem_nil, each⟩
  · refine loop.mono ?_ fun _ _ kept => kept
    rintro _ t ⟨kept, before, all, finished, -⟩
    rw [List.append_nil] at all
    exact ⟨kept, all ▸ finished⟩
  · rintro ⟨item, answers⟩ rest t ⟨kept, before, all, finished, pending⟩
    refine (ingestEpisode_post kept (pending _ List.mem_cons_self)).mono ?_ fun _ _ kept => kept
    rintro _ u ⟨kept, now_done, others⟩
    rw [all, List.map_append, List.map_cons, List.nodup_append] at distinct
    obtain ⟨-, rest_distinct, apart⟩ := distinct
    refine ⟨kept, before ++ [(item, answers)], by simp [all], ?_, ?_⟩
    · intro entry member
      rcases List.mem_append.mp member with earlier | last
      · obtain ⟨version, read, content⟩ := finished entry earlier
        have other : entry.1.sourceDocumentId ≠ item.sourceDocumentId :=
          apart _ (List.mem_map_of_mem earlier) _ List.mem_cons_self
        exact ⟨version, (others _ other).trans read, content⟩
      · rw [List.mem_singleton] at last
        exact last ▸ now_done
    · intro entry member
      have other : entry.1.sourceDocumentId ≠ item.sourceDocumentId := by
        intro same
        exact (List.nodup_cons.mp rest_distinct).1 (same ▸ List.mem_map_of_mem member)
      exact episodeSettles_of_same (others _ other) (pending entry (List.mem_cons_of_mem _ member))

end Batch

section Runs

/-- One execution of the service, whether it returns or raises. -/
def step (mode : QdrantTranscriptReplacementMode) (denseVectorSize : Nat)
    (configuration : TranscriptChunkingConfiguration) (s : Corpus)
    (batch : List (ReviewedSubtitleBatchItem × EpisodeAnswers)) : Option Corpus :=
  some (Exec.run (IngestReviewedCorpusService.execute mode denseVectorSize configuration batch) s).2

theorem consistent_step {batch : List (ReviewedSubtitleBatchItem × EpisodeAnswers)}
    (consistent : Consistent configuration naming ledger s)
    (settles : BatchSettles mode denseVectorSize configuration naming ledger s batch)
    (taken : step mode denseVectorSize configuration s batch = some t) :
    Consistent configuration naming ledger t := by
  have post := execute_post consistent settles
  cases taken
  unfold Exec.Post at post
  split at post <;> rename_i run <;> rw [run]
  · exact post.1
  · exact post

theorem consistent_active (consistent : Consistent configuration naming ledger s)
    (read : s.repository.getActiveVersion documentId = .ok (some version)) :
    ledger documentId version.contentHash ∧ ∃ segments,
      s.repository.segmentsByVersion.get? version.sourceVersionId = some segments ∧
      FullyIndexed configuration s.index version segments := by
  obtain ⟨id, active, stored⟩ := exists_of_getActiveVersion read
  obtain ⟨found, segments, chunks, entry⟩ := consistent documentId id active
  cases entry.stored.symm.trans stored
  refine ⟨entry.listed, segments, ?_, chunks, entry.cut, entry.indexed⟩
  rw [entry.identity]
  exact entry.persisted

/-- In runs without a failure between persistence and the end of indexing, active versions are
listed and indexed, and an execution that returns leaves every episode of its batch so. -/
theorem retries_complete (mode : QdrantTranscriptReplacementMode) (denseVectorSize : Nat)
    (configuration : TranscriptChunkingConfiguration) (naming : Naming)
    (ledger : UUID → String → Prop) (index : QdrantCollection) (s : Corpus)
    (run : Run (step mode denseVectorSize configuration)
      (BatchSettles mode denseVectorSize configuration naming ledger) ⟨.new, index⟩ s) :
    (∀ documentId version, s.repository.getActiveVersion documentId = .ok (some version) →
      ledger documentId version.contentHash ∧ ∃ segments,
        s.repository.segmentsByVersion.get? version.sourceVersionId = some segments ∧
        FullyIndexed configuration s.index version segments) ∧
    (∀ batch outcomes t, BatchSettles mode denseVectorSize configuration naming ledger s batch →
      Exec.run (IngestReviewedCorpusService.execute mode denseVectorSize configuration batch) s =
        (.ok outcomes, t) →
      ∀ entry ∈ batch, ∃ version segments,
        t.repository.getActiveVersion entry.1.sourceDocumentId = .ok (some version) ∧
        version.contentHash = entry.1.contentSha256 ∧
        t.repository.segmentsByVersion.get? version.sourceVersionId = some segments ∧
        FullyIndexed configuration t.index version segments) := by
  have nothing : Consistent configuration naming ledger ⟨.new, index⟩ := by
    intro documentId id active
    cases active
  have consistent : Consistent configuration naming ledger s :=
    run.invariant nothing fun _ _ _ consistent settles taken =>
      consistent_step consistent settles taken
  refine ⟨fun documentId version read => consistent_active consistent read, ?_⟩
  intro batch outcomes t settles returned entry member
  obtain ⟨kept, finished⟩ := (execute_post consistent settles).of_ok returned
  obtain ⟨version, read, content⟩ := finished entry member
  obtain ⟨-, segments, persisted, indexed⟩ := consistent_active kept read
  exact ⟨version, segments, read, content, persisted, indexed⟩

end Runs

section Samples

def sampleText : List Char := "1\n00:00:01,000 --> 00:00:02,000\nALICE: Hi.\n".toList

def sampleItem : ReviewedSubtitleBatchItem where
  episode := ⟨⟨1⟩, ⟨2⟩, ⟨3⟩, ⟨1, 1, EpisodePosition.first_pos, EpisodePosition.first_pos⟩⟩
  episodeTitle := "Pilot"
  sourcePath := "corpus/pilot.srt"
  sourceName := "pilot.srt"
  contentSha256 := sha256Hex sampleText
  reviewedBy := "editor"
  reviewedAt := ⟨.utc, 0⟩
  reviewStatus := .reviewed

def sampleAnswers (encode : List String → Except Raised (List DocumentVector)) : EpisodeAnswers where
  readText := .ok sampleText
  now := ⟨.utc, 0⟩
  persistence := .acknowledged
  encodeDocuments := encode
  requests := []

def encodeAll (texts : List String) : Except Raised (List DocumentVector) :=
  .ok (texts.map fun _ => ⟨[.finite 1], [(0, .finite 1)]⟩)

def encodeNone (_ : List String) : Except Raised (List DocumentVector) :=
  .error ⟨.runtimeError, "encoder unavailable"⟩

/-- The active version of a document lacks the point of its first chunk. -/
def lacksFirstPoint (configuration : TranscriptChunkingConfiguration) (documentId : UUID)
    (s : Corpus) : Bool :=
  match s.repository.getActiveVersion documentId with
  | .ok (some version) =>
      match s.repository.segmentsByVersion.get? version.sourceVersionId with
      | some segments =>
          match TranscriptChunkingService.chunk configuration segments with
          | .ok (first :: _) => (s.index first.chunkId).isNone
          | _ => false
      | none => false
  | _ => false

theorem not_indexed_of_lacksFirstPoint (lacks : lacksFirstPoint configuration documentId s = true) :
    ¬∃ version segments, s.repository.getActiveVersion documentId = .ok (some version) ∧
      s.repository.segmentsByVersion.get? version.sourceVersionId = some segments ∧
      FullyIndexed configuration s.index version segments := by
  rintro ⟨version, segments, read, persisted, chunks, cut, indexed⟩
  unfold lacksFirstPoint at lacks
  rw [read] at lacks
  dsimp only at lacks
  rw [persisted] at lacks
  dsimp only at lacks
  rw [cut] at lacks
  cases chunks with
  | nil => cases lacks
  | cons first rest =>
      obtain ⟨vector, here⟩ := indexed first List.mem_cons_self
      dsimp only at lacks
      rw [here] at lacks
      cases lacks

/-- The encoder fails once; the retry returns and leaves the episode out of the index. -/
theorem failed_indexing_is_skipped : ∃ s t outcomes,
    Run (step .episodeLanguage 1 DEFAULT_TRANSCRIPT_CHUNKING_CONFIGURATION) (fun _ _ => True)
      ⟨.new, fun _ => none⟩ s ∧
    Exec.run (IngestReviewedCorpusService.execute .episodeLanguage 1
      DEFAULT_TRANSCRIPT_CHUNKING_CONFIGURATION [(sampleItem, sampleAnswers encodeAll)]) s =
        (.ok outcomes, t) ∧
    ¬∃ version segments, t.repository.getActiveVersion sampleItem.sourceDocumentId =
        .ok (some version) ∧
      t.repository.segmentsByVersion.get? version.sourceVersionId = some segments ∧
      FullyIndexed DEFAULT_TRANSCRIPT_CHUNKING_CONFIGURATION t.index version segments := by
  let retry (s : Corpus) := Exec.run (IngestReviewedCorpusService.execute .episodeLanguage 1
    DEFAULT_TRANSCRIPT_CHUNKING_CONFIGURATION [(sampleItem, sampleAnswers encodeAll)]) s
  obtain ⟨s, run, test⟩ := Run.exists_of_checked
    (step .episodeLanguage 1 DEFAULT_TRANSCRIPT_CHUNKING_CONFIGURATION) (fun _ _ => True)
    ⟨.new, fun _ => none⟩ [[(sampleItem, sampleAnswers encodeNone)]]
    (fun s => (retry s).1.toOption.isSome && lacksFirstPoint
      DEFAULT_TRANSCRIPT_CHUNKING_CONFIGURATION sampleItem.sourceDocumentId (retry s).2)
    (by decide +kernel)
  obtain ⟨returned, lacks⟩ := Bool.and_eq_true_iff.mp test
  cases executed : retry s with
  | mk outcome t =>
      rw [executed] at returned lacks
      cases outcome with
      | error e => cases returned
      | ok outcomes => exact ⟨s, t, outcomes, run, executed, not_indexed_of_lacksFirstPoint lacks⟩

def sampleNaming : Naming where
  episodeDocument _ := sampleItem.sourceDocumentId
  versionDocument _ := sampleItem.sourceDocumentId
  chunkVersion _ := IdentifierGenerator.sourceVersionId sampleItem.sourceDocumentId
    sampleItem.contentSha256

theorem pilot_trimmed : Trimmed "Pilot" := by decide

def sampleDocument : SourceDocument :=
  ⟨sampleItem.sourceDocumentId, "Pilot", .subtitle, sampleItem.origin, pilot_trimmed, by decide⟩

def sampleVersion : SourceVersion :=
  ⟨IngestReviewedSubtitleService.newVersion (sampleItem.command sampleDocument)
    (sha256Hex sampleText) ⟨.utc, 0⟩ none, by decide +kernel⟩

theorem sampleVersion_indexes :
    (match ingestFinalizedSrtText sampleVersion.sourceVersionId sampleItem.episode .english .allowed
        sampleText sampleItem.sourcePath with
      | .ok result => (IndexTranscriptSegmentsService.execute .episodeLanguage 1
          DEFAULT_TRANSCRIPT_CHUNKING_CONFIGURATION encodeAll sampleVersion
          result.segments).toOption.isSome
      | .error _ => true) = true := by decide +kernel

theorem sample_version_eq {document : SourceDocument} {version : SourceVersion}
    (own : document.sourceDocumentId = sampleItem.sourceDocumentId)
    (fields : version.toSourceVersionFields = IngestReviewedSubtitleService.newVersion
      (sampleItem.command document) (sha256Hex sampleText) ⟨.utc, 0⟩ none) :
    version = sampleVersion := by
  have parts : version.toSourceVersionFields = sampleVersion.toSourceVersionFields := by
    rw [fields, sampleVersion]
    simp only [IngestReviewedSubtitleService.newVersion, ReviewedSubtitleBatchItem.command, own,
      sampleDocument]
  cases version
  cases parts
  rfl

theorem sample_settles_text : Settles .episodeLanguage 1 DEFAULT_TRANSCRIPT_CHUNKING_CONFIGURATION
    sampleNaming (fun _ _ => True) ⟨.new, fun _ => none⟩ sampleItem (sampleAnswers encodeAll)
    sampleText := by
  have nothing : ∀ d, InMemoryTranscriptIngestionRepository.getActiveVersion .new d = .ok none :=
    fun _ => rfl
  refine ⟨by simp only [sampleItem], trivial, by simp only [sampleNaming], by simp only [sampleAnswers],
    fun _ member => absurd member List.not_mem_nil, ?_⟩
  intro document previous version result own read fields canonical
  have fresh := Except.ok.inj ((nothing _).symm.trans read)
  subst fresh
  have same := sample_version_eq own fields
  subst same
  constructor
  · have computed := sampleVersion_indexes
    rw [canonical] at computed
    dsimp only at computed
    cases executed : IndexTranscriptSegmentsService.execute .episodeLanguage 1
        DEFAULT_TRANSCRIPT_CHUNKING_CONFIGURATION encodeAll sampleVersion result.segments with
    | error e =>
        rw [executed] at computed
        cases computed
    | ok indexed => exact ⟨indexed, executed⟩
  · intro _ _ _ _
    simp only [sampleNaming, sampleVersion, IngestReviewedSubtitleService.newVersion,
      ReviewedSubtitleBatchItem.command, sampleDocument, sampleItem]

theorem sample_settles : BatchSettles .episodeLanguage 1 DEFAULT_TRANSCRIPT_CHUNKING_CONFIGURATION
    sampleNaming (fun _ _ => True) ⟨.new, fun _ => none⟩
    [(sampleItem, sampleAnswers encodeAll)] := by
  refine ⟨List.nodup_singleton _, ?_⟩
  intro entry member
  rw [List.mem_singleton] at member
  subst member
  refine ⟨by simp only [sampleNaming], fun text text_read => ?_⟩
  have same : sampleText = text := Except.ok.inj text_read
  exact Or.inr (Or.inr (Or.inr (same ▸ sample_settles_text)))

theorem retries_complete_sample : ∃ s,
    Run (step .episodeLanguage 1 DEFAULT_TRANSCRIPT_CHUNKING_CONFIGURATION)
      (BatchSettles .episodeLanguage 1 DEFAULT_TRANSCRIPT_CHUNKING_CONFIGURATION sampleNaming
        fun _ _ => True) ⟨.new, fun _ => none⟩ s ∧
    ∀ documentId version, s.repository.getActiveVersion documentId = .ok (some version) →
      ∃ segments, s.repository.segmentsByVersion.get? version.sourceVersionId = some segments ∧
        FullyIndexed DEFAULT_TRANSCRIPT_CHUNKING_CONFIGURATION s.index version segments := by
  have unstarted : Run (step .episodeLanguage 1 DEFAULT_TRANSCRIPT_CHUNKING_CONFIGURATION)
      (BatchSettles .episodeLanguage 1 DEFAULT_TRANSCRIPT_CHUNKING_CONFIGURATION sampleNaming
        fun _ _ => True) ⟨.new, fun _ => none⟩ ⟨.new, fun _ => none⟩ := .start
  have run := unstarted.next sample_settles rfl
  refine ⟨_, run, fun documentId version read => ?_⟩
  exact ((retries_complete .episodeLanguage 1 DEFAULT_TRANSCRIPT_CHUNKING_CONFIGURATION
    sampleNaming (fun _ _ => True) (fun _ => none) _ run).1 documentId version read).2

end Samples

end CorpusRetry

end Cinegraph
