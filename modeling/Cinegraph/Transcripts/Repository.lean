import Cinegraph.Common.Records
import Cinegraph.Domain.Source
import Cinegraph.Library.Dict

/-! The in-memory store of source documents, their versions and the segments of each version. -/

namespace Cinegraph

open Library SourceErrorMessages

structure InMemoryTranscriptIngestionRepository where
  documents : Dict UUID SourceDocument
  versions : Dict UUID SourceVersion
  activeVersions : Dict UUID UUID
  segmentsByVersion : Dict UUID (List TranscriptSegment)

namespace InMemoryTranscriptIngestionRepository

def new : InMemoryTranscriptIngestionRepository := ⟨.empty, .empty, .empty, .empty⟩

def getActiveVersion (repository : InMemoryTranscriptIngestionRepository)
    (sourceDocumentId : UUID) : Except Raised (Option SourceVersion) :=
  match repository.activeVersions.get? sourceDocumentId with
  | none => .ok none
  | some sourceVersionId =>
      some <$> orRaise (repository.versions.get? sourceVersionId) ⟨.keyError, sourceVersionId.str⟩

def findActiveVersionByContentHash (repository : InMemoryTranscriptIngestionRepository)
    (sourceDocumentId : UUID) (contentHash : String) : Except Raised (Option SourceVersion) := do
  let activeVersion ← repository.getActiveVersion sourceDocumentId
  return activeVersion.filter fun version => version.contentHash = contentHash

def keepDocument (sourceDocument : SourceDocument) :
    Exec InMemoryTranscriptIngestionRepository Raised Unit := do
  let repository ← get
  match repository.documents.get? sourceDocument.sourceDocumentId with
  | none => modify fun r =>
      { r with documents := r.documents.set sourceDocument.sourceDocumentId sourceDocument }
  | some storedDocument =>
      if storedDocument = sourceDocument then pure ()
      else throw (valueError SOURCE_DOCUMENT_ID_METADATA_CONFLICT)

/-- The versions with the previous one retired and the new one stored. -/
def replaceVersion (versions : Dict UUID SourceVersion) (sourceVersion : SourceVersion) :
    Option SourceVersion → Dict UUID SourceVersion
  | none => versions.set sourceVersion.sourceVersionId sourceVersion
  | some previous =>
      (versions.set previous.sourceVersionId (previous.withStatus .retired)).set
        sourceVersion.sourceVersionId sourceVersion

def persistNewSubtitleIngestion (sourceDocument : SourceDocument) (sourceVersion : SourceVersion)
    (previousActiveVersion : Option SourceVersion) (segments : List TranscriptSegment) :
    Exec InMemoryTranscriptIngestionRepository Raised Unit := do
  keepDocument sourceDocument
  let currentActiveVersion ←
    Exec.lift ((← get).getActiveVersion sourceDocument.sourceDocumentId)
  if currentActiveVersion ≠ previousActiveVersion then
    throw ⟨.runtimeError, ACTIVE_SOURCE_VERSION_CONFLICT⟩
  else if ∃ segment ∈ segments, segment.sourceVersionId ≠ sourceVersion.sourceVersionId then
    throw (valueError TRANSCRIPT_SEGMENT_SOURCE_VERSION_MISMATCH)
  else
    modify fun r =>
      { r with
        versions := replaceVersion r.versions sourceVersion previousActiveVersion
        activeVersions :=
          r.activeVersions.set sourceDocument.sourceDocumentId sourceVersion.sourceVersionId
        segmentsByVersion := r.segmentsByVersion.set sourceVersion.sourceVersionId segments }

end InMemoryTranscriptIngestionRepository

end Cinegraph
