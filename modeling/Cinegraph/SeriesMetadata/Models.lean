import Cinegraph.Common.Records
import Cinegraph.Domain.Transcript
import Cinegraph.Library.Url

/-!
The metadata of a series: credited people, the cast of its episodes and its poster. Each value
checks itself when it is built.
-/

namespace Cinegraph

open Library

namespace SourceErrorMessages

def METADATA_URL_MUST_BE_HTTP : String := "Metadata URLs must use http or https."
def METADATA_VALUE_MUST_BE_TRIMMED : String :=
  "Metadata text values cannot be empty or untrimmed."
def METADATA_PROVIDER_ID_MUST_BE_POSITIVE : String :=
  "Metadata provider IDs must be positive integers."
def METADATA_DIMENSIONS_MUST_BE_POSITIVE : String :=
  "Artwork dimensions must be positive when provided."
def METADATA_RETRIEVED_AT_MUST_BE_TIMEZONE_AWARE : String :=
  "Metadata retrieved_at must be timezone-aware."

end SourceErrorMessages

open SourceErrorMessages

inductive CreditKind where
  | regular | guest
  deriving DecidableEq, Repr

/-- The arguments of `ArtworkAsset`. -/
structure ArtworkAssetFields where
  sourceUrl : String
  canonicalUrl : String
  mediumUrl : Option String
  originalUrl : Option String
  providerAssetId : Option String
  width : Option Int
  height : Option Int
  attribution : String
  licenseName : String
  licenseUrl : String
  retrievedAt : DateTime
  deriving DecidableEq

/-- The arguments of `CreditedPerson`. -/
structure CreditedPersonFields where
  providerPersonId : Int
  name : String
  canonicalUrl : String
  characterName : String
  characterProviderId : Option Int
  characterCanonicalUrl : Option String
  creditKind : CreditKind
  deriving DecidableEq

variable [UrlText]

/-- `urlparse` -/
def urlparse (value : String) : Except Raised ParsedUrl :=
  orRaise (Url.parse value.toList) (valueError "Invalid URL")

/-- `_url` -/
def validateUrl (value : String) : Except Raised Unit := do
  let parsed ← urlparse value
  reject (¬Trimmed value ∨ parsed.scheme ∉ ["http".toList, "https".toList] ∨ parsed.netloc = [])
    METADATA_URL_MUST_BE_HTTP .invalidModel

omit [UrlText] in
/-- `_text` -/
def validateText (value : String) : Except Raised Unit :=
  reject (¬Trimmed value) METADATA_VALUE_MUST_BE_TRIMMED .invalidModel

def ArtworkAssetFields.validate (asset : ArtworkAssetFields) : Except Raised Unit := do
  [asset.sourceUrl, asset.canonicalUrl, asset.licenseUrl].forM validateUrl
  [asset.mediumUrl, asset.originalUrl].reduceOption.forM validateUrl
  [asset.attribution, asset.licenseName].forM validateText
  asset.providerAssetId.toList.forM validateText
  reject (∃ value ∈ [asset.width, asset.height].reduceOption, value < 1)
    METADATA_DIMENSIONS_MUST_BE_POSITIVE .invalidModel
  reject (asset.retrievedAt.zone = .naive) METADATA_RETRIEVED_AT_MUST_BE_TIMEZONE_AWARE
    .invalidModel

structure ArtworkAsset extends ArtworkAssetFields where
  valid : toArtworkAssetFields.validate = .ok ()
  deriving DecidableEq

def ArtworkAssetFields.create (asset : ArtworkAssetFields) : Except Raised ArtworkAsset :=
  match checked : asset.validate with
  | .ok () => .ok ⟨asset, checked⟩
  | .error error => .error error

def CreditedPersonFields.validate (credit : CreditedPersonFields) : Except Raised Unit := do
  reject (credit.providerPersonId < 1 ∨ ∃ id ∈ credit.characterProviderId, id < 1)
    METADATA_PROVIDER_ID_MUST_BE_POSITIVE .invalidModel
  validateText credit.name
  validateText credit.characterName
  validateUrl credit.canonicalUrl
  credit.characterCanonicalUrl.toList.forM validateUrl

structure CreditedPerson extends CreditedPersonFields where
  valid : toCreditedPersonFields.validate = .ok ()
  deriving DecidableEq

def CreditedPersonFields.create (credit : CreditedPersonFields) : Except Raised CreditedPerson :=
  match checked : credit.validate with
  | .ok () => .ok ⟨credit, checked⟩
  | .error error => .error error

/-- The arguments of `EpisodeCastMetadata`. -/
structure EpisodeCastFields where
  episode : EpisodeRef
  providerEpisodeId : Int
  title : String
  canonicalUrl : String
  guestCast : List CreditedPerson
  deriving DecidableEq

def EpisodeCastFields.validate (cast : EpisodeCastFields) : Except Raised Unit := do
  reject (cast.providerEpisodeId < 1) METADATA_PROVIDER_ID_MUST_BE_POSITIVE .invalidModel
  validateText cast.title
  validateUrl cast.canonicalUrl
  reject (∃ credit ∈ cast.guestCast, credit.creditKind ≠ .guest) METADATA_VALUE_MUST_BE_TRIMMED
    .invalidModel

structure EpisodeCastMetadata extends EpisodeCastFields where
  valid : toEpisodeCastFields.validate = .ok ()
  deriving DecidableEq

def EpisodeCastFields.create (cast : EpisodeCastFields) : Except Raised EpisodeCastMetadata :=
  match checked : cast.validate with
  | .ok () => .ok ⟨cast, checked⟩
  | .error error => .error error

structure FetchedSeriesMetadata where
  providerName : String
  providerShowId : Int
  title : String
  canonicalUrl : String
  poster : Option ArtworkAsset
  regularCast : List CreditedPerson
  episodes : List EpisodeCastMetadata
  retrievedAt : DateTime
  attribution : String
  licenseName : String
  licenseUrl : String
  deriving DecidableEq

end Cinegraph
