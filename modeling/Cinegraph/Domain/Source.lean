import Cinegraph.Domain.Transcript

/-! Source documents, their versions and the review state of a version. -/

namespace Cinegraph

open Library

namespace SourceErrorMessages

def SOURCE_DOCUMENT_ID_METADATA_CONFLICT : String :=
  "A source document ID cannot be reused with different metadata."
def ACTIVE_SOURCE_VERSION_CONFLICT : String :=
  "The active source version changed before persistence."
def TRANSCRIPT_SEGMENT_SOURCE_VERSION_MISMATCH : String :=
  "Every persisted transcript segment must reference its source version."
def SOURCE_DOCUMENT_TITLE_MUST_BE_TRIMMED : String :=
  "Source document title cannot be empty or have leading/trailing whitespace."
def SOURCE_DOCUMENT_ORIGIN_MUST_BE_TRIMMED : String :=
  "Source document origin cannot be empty or have leading/trailing whitespace."
def SOURCE_VERSION_CONTENT_HASH_MUST_BE_SHA256 : String :=
  "Source version content hash must be a lowercase SHA-256 hexadecimal digest."
def SOURCE_VERSION_ACQUIRED_AT_MUST_BE_TIMEZONE_AWARE : String :=
  "Source version acquired_at must be timezone-aware."
def SOURCE_VERSION_REVIEWED_AT_MUST_BE_TIMEZONE_AWARE : String :=
  "Source version reviewed_at must be timezone-aware when provided."
def SOURCE_VERSION_PARENT_CANNOT_EQUAL_SELF : String :=
  "A source version cannot name itself as its parent version."
def SOURCE_VERSION_REVIEWED_REQUIRES_REVIEW_METADATA : String :=
  "A final source review requires reviewed_by and reviewed_at."
def SOURCE_VERSION_REVIEWER_MUST_BE_TRIMMED : String :=
  "Source version reviewed_by cannot be empty or have leading/trailing whitespace."
def SOURCE_VERSION_NON_REVIEWED_CANNOT_HAVE_REVIEW_METADATA : String :=
  "A non-reviewed source version cannot have review metadata."

end SourceErrorMessages

open SourceErrorMessages

inductive SourceKind where
  | subtitle | episodePlot | metadata
  deriving DecidableEq, Repr

inductive SourceAcquisitionMethod where
  | userUpload | localFilesystem | embeddedSubtitleTrack | mediawikiApi | tvmazeApi
  | syntheticFixture
  deriving DecidableEq, Repr

inductive SourceReviewStatus where
  | pending | automatedReviewed | hybridReviewed | reviewed | rejected
  deriving DecidableEq, Repr

inductive SourceVersionStatus where
  | active | retired
  deriving DecidableEq, Repr

def isFinalSourceReviewStatus (status : SourceReviewStatus) : Bool :=
  status ∈ [.automatedReviewed, .hybridReviewed, .reviewed, .rejected]

def isSourceVersionApproved (status : SourceReviewStatus) : Bool :=
  status ∈ [.automatedReviewed, .hybridReviewed, .reviewed]

structure SourceDocument where
  sourceDocumentId : UUID
  title : String
  kind : SourceKind
  origin : String
  title_trimmed : Trimmed title
  origin_trimmed : Trimmed origin
  deriving DecidableEq

def SourceDocument.make (sourceDocumentId : UUID) (title : String) (kind : SourceKind)
    (origin : String) : Except Raised SourceDocument :=
  if trimmed : Trimmed title then
    if trimmed_origin : Trimmed origin then
      .ok ⟨sourceDocumentId, title, kind, origin, trimmed, trimmed_origin⟩
    else .error ⟨.invalidModel, SOURCE_DOCUMENT_ORIGIN_MUST_BE_TRIMMED⟩
  else .error ⟨.invalidModel, SOURCE_DOCUMENT_TITLE_MUST_BE_TRIMMED⟩

/-- The arguments of `SourceVersion`. -/
structure SourceVersionFields where
  sourceVersionId : UUID
  sourceDocumentId : UUID
  contentHash : String
  rightsStatus : RightsStatus
  acquisitionMethod : SourceAcquisitionMethod
  reviewStatus : SourceReviewStatus
  status : SourceVersionStatus
  acquiredAt : DateTime
  parentSourceVersionId : Option UUID
  reviewedBy : Option String
  reviewedAt : Option DateTime
  deriving DecidableEq

namespace SourceVersionFields

def validateReviewMetadata (v : SourceVersionFields) : Except Raised Unit :=
  if isFinalSourceReviewStatus v.reviewStatus then
    match v.reviewedBy, v.reviewedAt with
    | some reviewer, some _ =>
        reject (¬Trimmed reviewer) SOURCE_VERSION_REVIEWER_MUST_BE_TRIMMED .invalidModel
    | _, _ => .error ⟨.invalidModel, SOURCE_VERSION_REVIEWED_REQUIRES_REVIEW_METADATA⟩
  else
    reject (v.reviewedBy.isSome ∨ v.reviewedAt.isSome)
      SOURCE_VERSION_NON_REVIEWED_CANNOT_HAVE_REVIEW_METADATA .invalidModel

/-- `fullmatch(r"[0-9a-f]{64}", text)` -/
def isSha256 (text : String) : Bool :=
  text.length = 64 && text.toList.all fun c => c ∈ UUID.hexChars

def validate (v : SourceVersionFields) : Except Raised Unit := do
  reject (isSha256 v.contentHash = false) SOURCE_VERSION_CONTENT_HASH_MUST_BE_SHA256 .invalidModel
  reject (v.acquiredAt.zone = .naive) SOURCE_VERSION_ACQUIRED_AT_MUST_BE_TIMEZONE_AWARE
    .invalidModel
  reject (∃ t ∈ v.reviewedAt, t.zone = .naive) SOURCE_VERSION_REVIEWED_AT_MUST_BE_TIMEZONE_AWARE
    .invalidModel
  reject (v.parentSourceVersionId = some v.sourceVersionId) SOURCE_VERSION_PARENT_CANNOT_EQUAL_SELF
    .invalidModel
  v.validateReviewMetadata

end SourceVersionFields

structure SourceVersion extends SourceVersionFields where
  valid : toSourceVersionFields.validate = .ok ()
  deriving DecidableEq

def SourceVersionFields.create (v : SourceVersionFields) : Except Raised SourceVersion :=
  match checked : v.validate with
  | .ok () => .ok ⟨v, checked⟩
  | .error e => .error e

theorem SourceVersionFields.create_ok {v : SourceVersionFields} {version : SourceVersion}
    (created : v.create = .ok version) : version.toSourceVersionFields = v := by
  unfold create at created
  split at created
  · cases created
    rfl
  · cases created

/-- The status of a version may change at any time. -/
def SourceVersion.withStatus (version : SourceVersion) (status : SourceVersionStatus) :
    SourceVersion :=
  ⟨{ version.toSourceVersionFields with status }, version.valid⟩

end Cinegraph
