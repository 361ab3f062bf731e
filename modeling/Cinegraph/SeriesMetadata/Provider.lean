import Cinegraph.Library.Dict
import Cinegraph.Library.Merging
import Cinegraph.SeriesMetadata.Models

/-!
Fetching the metadata of a series from TVmaze: four kinds of documents are read, checked and joined
to the requested episodes.
-/

namespace Cinegraph

open Library

namespace SourceErrorMessages

def METADATA_SHOW_TITLE_MISMATCH : String :=
  "TVmaze show title does not exactly match the catalogue title."
def TVMAZE_RESPONSE_MALFORMED : String := "TVmaze response is missing required metadata."
def TVMAZE_DUPLICATE_EPISODE : String :=
  "TVmaze returned duplicate episodes for a catalogue position."
def TVMAZE_EPISODE_NOT_FOUND : String := "TVmaze did not return a requested catalogue episode."
def TVMAZE_HTTP_ERROR (detail : String) : String := "TVmaze request failed: " ++ detail
def TVMAZE_SHOW_ID_MUST_BE_POSITIVE : String := "TVmaze show ID must be a positive integer."
def TVMAZE_SHOW_ID_MISMATCH : String :=
  "TVmaze response show ID does not match the requested ID."
def TVMAZE_DUPLICATE_SEASON : String :=
  "TVmaze returned duplicate seasons for a requested season number."
def TVMAZE_SEASON_NOT_FOUND : String := "TVmaze did not return a requested season."
def TVMAZE_EPISODE_SCOPE_MUST_BE_NON_EMPTY : String := "TVmaze episode scope cannot be empty."
def TVMAZE_EPISODE_SERIES_MISMATCH : String :=
  "Every requested episode must belong to the supplied series."
def TVMAZE_DUPLICATE_REQUESTED_EPISODE : String :=
  "The requested episode scope contains duplicate positions."

end SourceErrorMessages

open SourceErrorMessages

def TVMAZE_PROVIDER_NAME : String := "TVmaze"
def TVMAZE_ALLOWED_CONTENT_HOSTS : List String :=
  ["api.tvmaze.com", "static.tvmaze.com", "www.tvmaze.com"]
def TVMAZE_LICENSE_NAME : String :=
  "Creative Commons Attribution-ShareAlike 4.0 International"
def TVMAZE_LICENSE_URL : String := "https://creativecommons.org/licenses/by-sa/4.0/"
def TVMAZE_ATTRIBUTION : String := "TVmaze, licensed under CC BY-SA"

namespace TVMazeSeriesMetadataProvider

/-- The position of an episode in its series. -/
abbrev Place := Int × Int

structure FetchCall where
  providerShowId : Int
  expectedTitle : String
  seriesId : UUID
  episodes : List EpisodeRef

/-- The answers to the requests: a document, or the text of the client's error. The episodes of a
season are asked for by the number that was requested and the identifier that was found for it. -/
structure Answers where
  showAnswer : Except String Json
  castAnswer : Except String Json
  seasonsAnswer : Except String Json
  episodesAnswer : Int → Int → Except String Json

def malformed {α : Type} : Except Raised α :=
  .error ⟨.tvMazeProviderError, TVMAZE_RESPONSE_MALFORMED⟩

/-- `_get` -/
def get : Except String Json → Except Raised Json
  | .ok document => .ok document
  | .error detail => .error ⟨.tvMazeProviderError, TVMAZE_HTTP_ERROR detail⟩

/-- `_mapping` -/
def mapping : Json → Except Raised (List (String × Json))
  | .obj items => .ok items
  | _ => malformed

/-- `if not isinstance(value, list): raise …` -/
def array : Json → Except Raised (List Json)
  | .arr items => .ok items
  | _ => malformed

/-- `value.get(key)` -/
def field (items : List (String × Json)) (key : String) : Json := (items.lookup key).getD .null

/-- `value[key]` -/
def subscript (items : List (String × Json)) (key : String) : Except Raised Json :=
  orRaise (items.lookup key) ⟨.keyError, key⟩

/-- `_positive_id` -/
def positiveId : Json → Except Raised Int
  | .int value => if value < 1 then malformed else .ok value
  | _ => malformed

/-- `_season_number` -/
def seasonNumber : Json → Except Raised (Option Int)
  | .null => .ok none
  | .int value => if value < 0 then malformed else .ok (some value)
  | _ => malformed

/-- `_trimmed` -/
def trimmed : Json → Except Raised String
  | .str value => if Trimmed value then .ok value else malformed
  | _ => malformed

def truthy : Json → Bool
  | .null => false
  | .bool value => value
  | .int value => value ≠ 0
  | .float value => value ≠ .finite 0
  | .str value => value ≠ ""
  | .arr items => !items.isEmpty
  | .obj items => !items.isEmpty

/-- `convert(value) if value is not None else None` -/
def optional {α : Type} (value : Json) (convert : Json → Except Raised α) :
    Except Raised (Option α) :=
  if value = .null then return none else return some (← convert value)

/-- `except kinds as error: raise TVMazeProviderError(…) from error` -/
def translating {α : Type} (kinds : List ErrorKind) (body : Except Raised α) : Except Raised α :=
  match body with
  | .ok value => .ok value
  | .error error => if error.kind ∈ kinds then malformed else .error error

variable [UrlText]

/-- `_require_url` -/
def requireUrl (value : Json) : Except Raised String := do
  let text ← trimmed value
  let parsed ← urlparse text
  reject (parsed.scheme ≠ "https".toList ∨
    (Url.hostname parsed).all (fun host => String.ofList host ∉ TVMAZE_ALLOWED_CONTENT_HOSTS))
    TVMAZE_RESPONSE_MALFORMED .tvMazeProviderError
  return text

/-- `_person` -/
def person (kind : CreditKind) (raw : Json) : Except Raised CreditedPerson :=
  translating [.keyError, .typeError, .valueError, .invalidModel] do
    let item ← mapping raw
    let person ← mapping (← subscript item "person")
    let character ← mapping (← subscript item "character")
    let providerPersonId ← positiveId (← subscript person "id")
    let name ← trimmed (← subscript person "name")
    let canonicalUrl ← requireUrl (← subscript person "url")
    let characterName ← trimmed (← subscript character "name")
    let characterProviderId ← optional (field character "id") positiveId
    let characterCanonicalUrl ← optional (field character "url") requireUrl
    CreditedPersonFields.create ⟨providerPersonId, name, canonicalUrl, characterName,
      characterProviderId, characterCanonicalUrl, kind⟩

/-- The image that a show offers first. -/
def offeredImage (image : List (String × Json)) : Json :=
  if truthy (field image "original") then field image "original" else field image "medium"

/-- `_poster` -/
def posterOf (shown : List (String × Json)) (canonicalUrl : String) (retrievedAt : DateTime) :
    Except Raised (Option ArtworkAsset) := do
  if field shown "image" = .null then return none
  let image ← mapping (field shown "image")
  reject (offeredImage image = .null) TVMAZE_RESPONSE_MALFORMED .tvMazeProviderError
  let imageUrl ← requireUrl (offeredImage image)
  let parsed ← urlparse imageUrl
  let asset ← translating [.invalidModel, .valueError] do
    let mediumUrl ← optional (field image "medium") requireUrl
    let originalUrl ← optional (field image "original") requireUrl
    ArtworkAssetFields.create {
      sourceUrl := imageUrl
      canonicalUrl
      mediumUrl
      originalUrl
      providerAssetId := if parsed.path = [] then none else some (String.ofList parsed.path)
      width := none
      height := none
      attribution := TVMAZE_ATTRIBUTION
      licenseName := TVMAZE_LICENSE_NAME
      licenseUrl := TVMAZE_LICENSE_URL
      retrievedAt }
  return some asset

omit [UrlText] in
def placeOf (episode : EpisodeRef) : Place :=
  (episode.position.seasonNumber, episode.position.episodeNumber)

omit [UrlText] in
/-- The requested episodes by their positions. -/
def requestedOf (episodes : List EpisodeRef) : Except Raised (Dict Place EpisodeRef) :=
  episodes.foldlM (fun requested episode => do
    reject (placeOf episode ∈ requested.keys) TVMAZE_DUPLICATE_REQUESTED_EPISODE
    return requested.set (placeOf episode) episode) .empty

omit [UrlText] in
/-- The loop over the seasons of a show. -/
def addSeason (requestedSeasons : List Int) (seasons : Dict Int Int) (raw : Json) :
    Except Raised (Dict Int Int) := do
  let season ← mapping raw
  match ← seasonNumber (field season "number") with
  | none => return seasons
  | some number =>
      if number ∉ requestedSeasons then return seasons
      else
        let seasonId ← positiveId (field season "id")
        reject (number ∈ seasons.keys) TVMAZE_DUPLICATE_SEASON .tvMazeEpisodeReconciliationError
        return seasons.set number seasonId

omit [UrlText] in
/-- The position of an episode of the provider, if it is numbered. -/
def numbered (episode : List (String × Json)) : Except Raised (Option Place) := do
  match ← seasonNumber (field episode "season") with
  | none => return none
  | some season =>
      if field episode "number" = .null then return none
      else return some (season, ← positiveId (field episode "number"))

omit [UrlText] in
/-- The guests that are embedded in an episode. -/
def embeddedGuests (episode : List (String × Json)) : Except Raised (List Json) :=
  match field episode "_embedded" with
  | .obj embedded => array (field embedded "guestcast")
  | _ => malformed

/-- What the provider says of a requested episode. -/
def episodeOf (ref : EpisodeRef) (episode : List (String × Json)) :
    Except Raised EpisodeCastMetadata := do
  let guestCast ← (← embeddedGuests episode).mapM (person .guest)
  let providerEpisodeId ← positiveId (field episode "id")
  let title ← trimmed (field episode "name")
  let canonicalUrl ← requireUrl (field episode "url")
  EpisodeCastFields.create ⟨ref, providerEpisodeId, title, canonicalUrl, guestCast⟩

/-- The loop over the episodes of a season. -/
def addEpisode (requested : Dict Place EpisodeRef) (mapped : Dict Place EpisodeCastMetadata)
    (raw : Json) : Except Raised (Dict Place EpisodeCastMetadata) := do
  let episode ← mapping raw
  match ← numbered episode with
  | none => return mapped
  | some place =>
      match requested.get? place with
      | none => return mapped
      | some ref =>
          reject (place ∈ mapped.keys) TVMAZE_DUPLICATE_EPISODE .tvMazeEpisodeReconciliationError
          return mapped.set place (← episodeOf ref episode)

/-- The loop over the requested seasons. -/
def addSeasonEpisodes (answers : Answers) (requested : Dict Place EpisodeRef)
    (seasons : Dict Int Int) (mapped : Dict Place EpisodeCastMetadata) (number : Int) :
    Except Raised (Dict Place EpisodeCastMetadata) := do
  let seasonId ← orRaise (seasons.get? number) ⟨.keyError, toString number⟩
  let items ← array (← get (answers.episodesAnswer number seasonId))
  items.foldlM (addEpisode requested) mapped

omit [UrlText] in
/-- The numbers of the requested seasons, ascending. -/
def requestedSeasons (requested : Dict Place EpisodeRef) : List Int :=
  sortedBy id (requested.keys.map Prod.fst).dedup

omit [UrlText] in
/-- What is checked before the first request. -/
def checkCall (call : FetchCall) : Except Raised (Dict Place EpisodeRef) := do
  reject (call.providerShowId < 1) TVMAZE_SHOW_ID_MUST_BE_POSITIVE
  reject (¬Trimmed call.expectedTitle) METADATA_VALUE_MUST_BE_TRIMMED
  reject (call.episodes = []) TVMAZE_EPISODE_SCOPE_MUST_BE_NON_EMPTY
  reject (∃ episode ∈ call.episodes, episode.seriesId ≠ call.seriesId)
    TVMAZE_EPISODE_SERIES_MISMATCH
  requestedOf call.episodes

/-- The show, with its title and its address. -/
def readShow (call : FetchCall) (answers : Answers) :
    Except Raised (List (String × Json) × String × String) := do
  let shown ← mapping (← get answers.showAnswer)
  let showId ← positiveId (field shown "id")
  reject (showId ≠ call.providerShowId) TVMAZE_SHOW_ID_MISMATCH .tvMazeProviderError
  let title ← trimmed (field shown "name")
  let canonicalUrl ← requireUrl (field shown "url")
  reject (Text.casefold title ≠ Text.casefold call.expectedTitle) METADATA_SHOW_TITLE_MISMATCH
    .tvMazeShowMismatchError
  return (shown, title, canonicalUrl)

def readCast (answers : Answers) : Except Raised (List CreditedPerson) := do
  (← array (← get answers.castAnswer)).mapM (person .regular)

omit [UrlText] in
/-- The identifiers of the requested seasons. -/
def readSeasons (answers : Answers) (requested : Dict Place EpisodeRef) :
    Except Raised (Dict Int Int) := do
  let payload ← array (← get answers.seasonsAnswer)
  let seasons ← payload.foldlM (addSeason (requestedSeasons requested)) .empty
  reject (∃ number ∈ requestedSeasons requested, number ∉ seasons.keys) TVMAZE_SEASON_NOT_FOUND
    .tvMazeEpisodeReconciliationError
  return seasons

/-- The requested episodes as the provider knows them. -/
def readEpisodes (answers : Answers) (requested : Dict Place EpisodeRef) (seasons : Dict Int Int) :
    Except Raised (Dict Place EpisodeCastMetadata) := do
  let mapped ← (requestedSeasons requested).foldlM
    (addSeasonEpisodes answers requested seasons) .empty
  reject (∃ place ∈ requested.keys, place ∉ mapped.keys) TVMAZE_EPISODE_NOT_FOUND
    .tvMazeEpisodeReconciliationError
  return mapped

/-- `tuple(mapped[key] for key in sorted(mapped))` -/
def ascending (mapped : Dict Place EpisodeCastMetadata) : List EpisodeCastMetadata :=
  (sortedBy toLex mapped.keys).filterMap mapped.get?

/-- `fetch`, where the clock says `assetAt` for the poster and `fetchedAt` for the whole. -/
def fetch (call : FetchCall) (answers : Answers) (assetAt fetchedAt : DateTime) :
    Except Raised FetchedSeriesMetadata := do
  let requested ← checkCall call
  let (shown, title, canonicalUrl) ← readShow call answers
  let poster ← posterOf shown canonicalUrl assetAt
  let regularCast ← readCast answers
  let seasons ← readSeasons answers requested
  let mapped ← readEpisodes answers requested seasons
  return {
    providerName := TVMAZE_PROVIDER_NAME
    providerShowId := call.providerShowId
    title
    canonicalUrl
    poster
    regularCast
    episodes := ascending mapped
    retrievedAt := fetchedAt
    attribution := TVMAZE_ATTRIBUTION
    licenseName := TVMAZE_LICENSE_NAME
    licenseUrl := TVMAZE_LICENSE_URL }

end TVMazeSeriesMetadataProvider

end Cinegraph
