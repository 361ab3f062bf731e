import Cinegraph.SpeakerReview.ReviewedOutput
import Cinegraph.TranscriptSrt.Service
import Cinegraph.Transcripts.Repository

/-! Ingestion of a reviewed subtitle: read, compare with the active version, canonicalize, persist. -/

namespace Cinegraph

open Library SpeakerReview

namespace TranscriptErrorMessages

def SUBTITLE_INGESTION_REQUIRES_APPROVED_REVIEW_STATUS : String :=
  "Reviewed subtitle ingestion requires an approved review status."

end TranscriptErrorMessages

def IdentifierGenerator.sourceVersionId (sourceDocumentId : UUID) (contentHash : String) : UUID :=
  IdentifierTemplates.NAMESPACE.uuid5
    ("cinegraph:source-version:" ++ sourceDocumentId.str ++ ":" ++ contentHash)

structure IngestReviewedSubtitleCommand where
  sourceDocument : SourceDocument
  sourceLocator : String
  episode : EpisodeRef
  language : Language
  rightsStatus : RightsStatus
  acquisitionMethod : SourceAcquisitionMethod
  reviewedBy : String
  reviewedAt : DateTime
  reviewStatus : SourceReviewStatus

structure IngestReviewedSubtitleResult where
  sourceVersion : SourceVersion
  segments : List TranscriptSegment
  report : Option TranscriptIngestionReport
  wasAlreadyIngested : Bool

namespace IngestReviewedSubtitleService

/-- The version that an ingestion of a text creates. -/
def newVersion (command : IngestReviewedSubtitleCommand) (contentHash : String) (now : DateTime)
    (previousActiveVersion : Option SourceVersion) : SourceVersionFields where
  sourceVersionId :=
    IdentifierGenerator.sourceVersionId command.sourceDocument.sourceDocumentId contentHash
  sourceDocumentId := command.sourceDocument.sourceDocumentId
  contentHash := contentHash
  rightsStatus := command.rightsStatus
  acquisitionMethod := command.acquisitionMethod
  reviewStatus := command.reviewStatus
  status := .active
  acquiredAt := now
  parentSourceVersionId := previousActiveVersion.map fun version => version.sourceVersionId
  reviewedBy := some command.reviewedBy
  reviewedAt := some command.reviewedAt

/-- `readText` is what the reader answers for the locator, `now` the clock's time. -/
def executeWith (persistNewSubtitleIngestion : SourceDocument → SourceVersion →
      Option SourceVersion → List TranscriptSegment →
      Exec InMemoryTranscriptIngestionRepository Raised Unit)
    (command : IngestReviewedSubtitleCommand) (readText : Except Raised (List Char))
    (now : DateTime) :
    Exec InMemoryTranscriptIngestionRepository Raised IngestReviewedSubtitleResult := do
  if isSourceVersionApproved command.reviewStatus = false then
    throw (valueError TranscriptErrorMessages.SUBTITLE_INGESTION_REQUIRES_APPROVED_REVIEW_STATUS)
  else
    let sourceText ← Exec.lift readText
    let contentHash := sha256Hex sourceText
    let existingVersion ← Exec.lift ((← get).findActiveVersionByContentHash
      command.sourceDocument.sourceDocumentId contentHash)
    match existingVersion with
    | some existingVersion => return ⟨existingVersion, [], none, true⟩
    | none =>
        let previousActiveVersion ← Exec.lift ((← get).getActiveVersion
          command.sourceDocument.sourceDocumentId)
        let sourceVersion ←
          Exec.lift (newVersion command contentHash now previousActiveVersion).create
        let canonicalResult ← Exec.lift (ingestFinalizedSrtText sourceVersion.sourceVersionId
          command.episode command.language command.rightsStatus sourceText command.sourceLocator)
        persistNewSubtitleIngestion command.sourceDocument sourceVersion previousActiveVersion
          canonicalResult.segments
        return ⟨sourceVersion, canonicalResult.segments, some canonicalResult.report, false⟩

/-- The service over the in-memory store. -/
def execute : IngestReviewedSubtitleCommand → Except Raised (List Char) → DateTime →
    Exec InMemoryTranscriptIngestionRepository Raised IngestReviewedSubtitleResult :=
  executeWith InMemoryTranscriptIngestionRepository.persistNewSubtitleIngestion

end IngestReviewedSubtitleService

end Cinegraph
