import Cinegraph.Transcripts.Indexing
import Cinegraph.Transcripts.Ingest

/-!
Ingestion of a batch of reviewed episodes: each is persisted, compared with the
ledger and indexed, in a loop over two stores.
-/

namespace Cinegraph

open Library

namespace CorpusIngestionErrorMessages

def INGESTED_SOURCE_HASH_MUST_MATCH_REVIEW_LEDGER : String :=
  "Ingested source content hash must match the verified review ledger."

end CorpusIngestionErrorMessages

open CorpusIngestionErrorMessages

def Language.value : Language → String
  | .english => "en"

def IdentifierGenerator.transcriptSourceDocumentId (episodeId : UUID) (language : Language)
    (origin : String) : UUID :=
  IdentifierTemplates.NAMESPACE.uuid5
    ("cinegraph:source-document:transcript:" ++ episodeId.str ++ ":" ++ language.value ++ ":" ++
      Text.casefold origin)

/-- An entry of the batch; `sourceName` is the last part of `sourcePath`. -/
structure ReviewedSubtitleBatchItem where
  episode : EpisodeRef
  episodeTitle : String
  sourcePath : String
  sourceName : String
  contentSha256 : String
  reviewedBy : String
  reviewedAt : DateTime
  reviewStatus : SourceReviewStatus

namespace ReviewedSubtitleBatchItem

variable (item : ReviewedSubtitleBatchItem)

def origin : String := "reviewed-subtitle:" ++ item.sourceName

def sourceDocumentId : UUID :=
  IdentifierGenerator.transcriptSourceDocumentId item.episode.episodeId .english item.origin

def command (sourceDocument : SourceDocument) : IngestReviewedSubtitleCommand where
  sourceDocument := sourceDocument
  sourceLocator := item.sourcePath
  episode := item.episode
  language := .english
  rightsStatus := .allowed
  acquisitionMethod := .localFilesystem
  reviewedBy := item.reviewedBy
  reviewedAt := item.reviewedAt
  reviewStatus := item.reviewStatus

end ReviewedSubtitleBatchItem

structure IngestReviewedEpisodeOutcome where
  episode : EpisodeRef
  sourceVersionId : UUID
  segmentCount : Nat
  indexedSegmentCount : Nat
  wasAlreadyIngested : Bool

/-- What the world answers while one episode is ingested. -/
structure EpisodeAnswers where
  readText : Except Raised (List Char)
  now : DateTime
  persistence : RequestAnswer
  encodeDocuments : List String → Except Raised (List DocumentVector)
  requests : List RequestAnswer

/-- The two stores. -/
structure Corpus where
  repository : InMemoryTranscriptIngestionRepository
  index : QdrantCollection

namespace Corpus

/-- A computation on the repository. -/
def onRepository {α : Type} (p : Exec InMemoryTranscriptIngestionRepository Raised α) :
    Exec Corpus Raised α := do
  let corpus ← get
  let (outcome, repository) := Exec.run p corpus.repository
  set { corpus with repository }
  Exec.lift outcome

def onIndex (requests : List QdrantRequest) (answers : List RequestAnswer) : Exec Corpus Raised Unit := do
  let corpus ← get
  let (outcome, index) := QdrantCollection.send requests answers corpus.index
  set { corpus with index }
  Exec.lift outcome

theorem post_onRepository {α : Type} (p : Exec InMemoryTranscriptIngestionRepository Raised α)
    {Q : α → Corpus → Prop} {E : Raised → Corpus → Prop} {s : Corpus} :
    Exec.Post (onRepository p) Q E s ↔
      Exec.Post p (fun a r => Q a { s with repository := r })
        (fun e r => E e { s with repository := r }) s.repository := by
  unfold onRepository
  simp only [Exec.post_bind, Exec.post_get]
  unfold Exec.Post
  rcases Exec.run p s.repository with ⟨_ | _, r⟩ <;> rfl

theorem post_onIndex {requests : List QdrantRequest} {answers : List RequestAnswer}
    (acknowledged : ∀ answer ∈ answers, answer = .acknowledged) {Q : Unit → Corpus → Prop}
    {E : Raised → Corpus → Prop} {s : Corpus} :
    Exec.Post (onIndex requests answers) Q E s ↔
      Q () { s with index := requests.foldl QdrantCollection.serve s.index } := by
  unfold onIndex
  simp only [Exec.post_bind, Exec.post_get, QdrantCollection.send_acknowledged acknowledged]
  rfl

end Corpus

/-- Persistence that may fail before or after it has taken effect. -/
def persistAnswered (answer : RequestAnswer) (sourceDocument : SourceDocument)
    (sourceVersion : SourceVersion) (previousActiveVersion : Option SourceVersion)
    (segments : List TranscriptSegment) :
    Exec InMemoryTranscriptIngestionRepository Raised Unit :=
  let persist := InMemoryTranscriptIngestionRepository.persistNewSubtitleIngestion sourceDocument
    sourceVersion previousActiveVersion segments
  match answer with
  | .acknowledged => persist
  | .failedBefore error => throw error
  | .failedAfter error => do
      persist
      throw error

namespace IngestReviewedCorpusService

variable (replacementMode : QdrantTranscriptReplacementMode) (denseVectorSize : Nat)
  (configuration : TranscriptChunkingConfiguration)

/-- One turn of the loop. -/
def ingestEpisode (item : ReviewedSubtitleBatchItem) (answers : EpisodeAnswers) :
    Exec Corpus Raised IngestReviewedEpisodeOutcome := do
  let sourceDocument ← Exec.lift
    (SourceDocument.make item.sourceDocumentId item.episodeTitle .subtitle item.origin)
  let ingestion ← Corpus.onRepository (IngestReviewedSubtitleService.executeWith
    (persistAnswered answers.persistence) (item.command sourceDocument) answers.readText answers.now)
  if ingestion.sourceVersion.contentHash ≠ item.contentSha256 then
    throw ⟨.invalidModel, INGESTED_SOURCE_HASH_MUST_MATCH_REVIEW_LEDGER⟩
  else if ingestion.wasAlreadyIngested then
    return ⟨item.episode, ingestion.sourceVersion.sourceVersionId, ingestion.segments.length, 0, true⟩
  else
    let (requests, indexedCount) ← Exec.lift (IndexTranscriptSegmentsService.execute replacementMode
      denseVectorSize configuration answers.encodeDocuments ingestion.sourceVersion
      ingestion.segments)
    Corpus.onIndex requests answers.requests
    return ⟨item.episode, ingestion.sourceVersion.sourceVersionId, ingestion.segments.length,
      indexedCount, false⟩

def execute (batch : List (ReviewedSubtitleBatchItem × EpisodeAnswers)) :
    Exec Corpus Raised (List IngestReviewedEpisodeOutcome) :=
  batch.mapM fun (item, answers) =>
    ingestEpisode replacementMode denseVectorSize configuration item answers

end IngestReviewedCorpusService

end Cinegraph
