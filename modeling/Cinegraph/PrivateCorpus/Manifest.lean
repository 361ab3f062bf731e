import Cinegraph.Common.Hashing
import Cinegraph.Library.StrictJson
import Cinegraph.PrivateCorpus.Names
import Mathlib.Data.List.Lex

/-!
The manifest of a private-corpus bundle: how a bundle writes it, from the files that were selected,
and how it is decoded from bytes that nobody vouches for.
-/

namespace Cinegraph.PrivateCorpus

open Library

namespace Policy

def schemaVersion : Int := 1
def purposeReviewedIngestion := "reviewed_ingestion"
def purposeSpeakerReview := "speaker_review"
def allowedPurposes : List String := [purposeReviewedIngestion, purposeSpeakerReview]
def allowedExtensions : List String := [".json", ".pdf", ".srt"]
def reviewLedgerFilename := "review-ledger.json"
def reviewedDirectoryName := "reviewed"
def alignedDirectoryName := "script-aligned"
def reviewedSubtitleSuffix := ".reviewed.srt"
def alignedSubtitleSuffix := ".script-aligned.srt"
def forbiddenContentMarkers : List String :=
  ["OPENAI_API_KEY", "BEGIN PRIVATE KEY", "BEGIN RSA PRIVATE KEY", "BEGIN OPENSSH PRIVATE KEY"]

def decimalText (n : Int) : String := String.ofList (Json.dumpInt n)

/-- `season_directory_suffix.format(season_number=n)` -/
def seasonDirectorySuffix (n : Int) : String := " - season " ++ decimalText n ++ ".en"

/-- `script_pdf_filename_template.format(season=n)` for a positive number. -/
def scriptPdfFilename (n : Int) : String :=
  "Modern Family S" ++ (if n < 10 then "0" else "") ++ decimalText n ++ " Script.pdf"

end Policy

/-- `BundleFile` -/
structure BundleFile where
  path : String
  size : Int
  sha256 : String
  deriving DecidableEq, Repr

/-! ### The layout of a bundle -/

/-- `path.name` -/
def nameOf (path : List String) : String := path.getLastD ""

/-- `path.parent` -/
def parentOf (path : List String) : List String := path.dropLast

/-- The dot that begins the suffix of a name and what follows it, from the right. -/
def suffixOf (name : String) : String :=
  let back := name.toList.reverse
  let extension := back.takeWhile (· ≠ '.')
  match back.drop extension.length with
  | _ :: _ :: _ => if extension = [] then "" else String.ofList ('.' :: extension.reverse)
  | _ => ""

def endsWith (text ending : String) : Bool := ending.toList.isSuffixOf text.toList

/-- `_validate_extension` -/
def validateExtension (path : List String) (purpose : String) : Except Raised Unit := do
  let suffix := Text.casefold (suffixOf (nameOf path))
  let name := Text.casefold (nameOf path)
  reject (suffix ∉ Policy.allowedExtensions) "unexpected source extension" .bundleError
  if purpose = Policy.purposeReviewedIngestion then
    reject (name ≠ Policy.reviewLedgerFilename ∧ endsWith name Policy.reviewedSubtitleSuffix = false)
      "reviewed-ingestion selection contains an unexpected file" .bundleError
  else
    reject (suffix ≠ ".pdf" ∧ endsWith name Policy.alignedSubtitleSuffix = false)
      "speaker-review selection contains an unexpected file" .bundleError

/-- The directory of a season is named by its number. -/
def inSeason (directory : List String) (season : Int) : Bool :=
  endsWith (Text.casefold (nameOf (parentOf directory)))
    (Text.casefold (Policy.seasonDirectorySuffix season))

def reviewedLayout (paths : List (List String)) (season : Int) : Bool :=
  let ledgers := paths.filter fun path => Text.casefold (nameOf path) = Policy.reviewLedgerFilename
  let subtitles := paths.filter fun path =>
    endsWith (Text.casefold (nameOf path)) Policy.reviewedSubtitleSuffix
  match ledgers with
  | [ledger] =>
      !subtitles.isEmpty &&
        Text.casefold (nameOf (parentOf ledger)) = Text.casefold Policy.reviewedDirectoryName &&
        inSeason (parentOf ledger) season && subtitles.all fun path => parentOf path = parentOf ledger
  | _ => false

def speakerLayout (paths : List (List String)) (season : Int) : Bool :=
  let scripts := paths.filter fun path => Text.casefold (suffixOf (nameOf path)) = ".pdf"
  let subtitles := paths.filter fun path =>
    endsWith (Text.casefold (nameOf path)) Policy.alignedSubtitleSuffix
  match scripts, subtitles with
  | [script], subtitle :: others =>
      nameOf script = Policy.scriptPdfFilename season && inSeason (parentOf subtitle) season &&
        others.all (fun path => parentOf path = parentOf subtitle) &&
        Text.casefold (nameOf (parentOf subtitle)) = Text.casefold Policy.alignedDirectoryName &&
        parentOf script = []
  | _, _ => false

/-- `_validate_purpose_shape` -/
def validatePurposeShape (files : List BundleFile) (purpose : String) (season : Int) :
    Except Raised Unit := do
  let paths := files.map fun file => posixPath file.path
  paths.forM fun path => validateExtension path purpose
  if purpose = Policy.purposeReviewedIngestion then
    reject (reviewedLayout paths season = false) "reviewed-ingestion bundle layout is invalid" .bundleError
  else
    reject (speakerLayout paths season = false) "speaker-review bundle layout is invalid" .bundleError

/-! ### The text of a manifest -/

def entryJson (file : BundleFile) : Json :=
  .obj [("path", .str file.path), ("size", .int file.size), ("sha256", .str file.sha256)]

def manifestItems (purpose : String) (seasonNumber : Int) (files : List BundleFile)
    (catalogueSha256 : String) : List (String × Json) := [
  ("schema_version", .int Policy.schemaVersion),
  ("purpose", .str purpose),
  ("season_number", .int seasonNumber),
  ("files", .arr (files.map entryJson)),
  ("file_count", .int files.length),
  ("total_bytes", .int (files.map (·.size)).sum),
  ("source_catalogue_sha256", .str catalogueSha256)]

/-- `_manifest` -/
def manifest (purpose : String) (seasonNumber : Int) (files : List BundleFile)
    (catalogueSha256 : String) : Json :=
  .obj (manifestItems purpose seasonNumber files catalogueSha256)

def requiredKeys : List String :=
  ["schema_version", "purpose", "season_number", "files", "file_count", "total_bytes",
    "source_catalogue_sha256"]

section Encoding

variable [Floats]

/-- `json.dumps` of a decoded value, which `encode("utf-8")` refuses where a surrogate stands alone. -/
def encodable (decoded : Loaded) : Except Raised Json :=
  match decoded.json? with
  | some value => .ok value
  | none => .error ⟨.unicodeEncodeError, "surrogates not allowed"⟩

def canonicalText (value : Json) : String := String.ofList (value.packedDumps ++ ['\n'])

/-- `_canonical_json` -/
def canonicalJson (value : Json) : ByteArray := (canonicalText value).toUTF8

end Encoding

/-- `_validate_catalogue_digest` on a text. -/
def validateCatalogueDigest (value : String) : Except Raised String := do
  reject (isDigest value = false) "catalogue digest is invalid" .bundleError
  return value

/-! ### Decoding -/

def field (items : List (String × Json)) (key : String) : Json := (items.lookup key).getD .null

/-- `set(items) == keys`, for the items of a dictionary. -/
def hasKeys (items : List (String × Json)) (keys : List String) : Prop := (items.map Prod.fst).Perm keys

instance (items : List (String × Json)) (keys : List String) : Decidable (hasKeys items keys) :=
  inferInstanceAs (Decidable (List.Perm _ _))

section Types

variable (message : String)

def asObject : Json → Except Raised (List (String × Json))
  | .obj items => .ok items
  | _ => .error ⟨.bundleError, message⟩

def asList : Json → Except Raised (List Json)
  | .arr items => .ok items
  | _ => .error ⟨.bundleError, message⟩

def asText : Json → Except Raised String
  | .str text => .ok text
  | _ => .error ⟨.bundleError, message⟩

def asInt : Json → Except Raised Int
  | .int n => .ok n
  | _ => .error ⟨.bundleError, message⟩

end Types

/-- The files that were read, the encoded path of the last one, and the folded paths of all. -/
structure Reading where
  files : List BundleFile
  previous : List Nat
  folded : List String

section Decoding

variable [Floats] [Composition]

def readEntry (reading : Reading) (entry : Json) : Except Raised Reading := do
  let items ← asObject "bundle manifest file entry is invalid" entry
  reject (¬hasKeys items ["path", "size", "sha256"]) "bundle manifest file entry is invalid" .bundleError
  let text ← asText "bundle manifest path is invalid" (field items "path")
  let path ← validateRelativeText text "bundle manifest path is invalid"
  reject (Digest.utf8 path ≤ reading.previous ∨ Text.casefold path ∈ reading.folded)
    "bundle manifest paths are not canonical" .bundleError
  let size ← asInt "bundle manifest size is invalid" (field items "size")
  reject (size ≤ 0 ∨ Policy.maxFileBytes < size) "bundle manifest size is invalid" .bundleError
  let digest ← asText "bundle manifest hash is invalid" (field items "sha256")
  reject (isDigest digest = false) "bundle manifest hash is invalid" .bundleError
  return {
    files := reading.files ++ [⟨path, size, digest⟩]
    previous := Digest.utf8 path
    folded := reading.folded ++ [Text.casefold path] }

/-- The schema of a manifest, behind its JSON. -/
def checkManifest (items : List (String × Json)) : Except Raised Unit := do
  reject (¬hasKeys items requiredKeys) "bundle manifest schema is invalid" .bundleError
  let version ← asInt "unsupported bundle schema version" (field items "schema_version")
  reject (version ≠ Policy.schemaVersion) "unsupported bundle schema version" .bundleError
  let purpose ← asText "unsupported bundle purpose" (field items "purpose")
  reject (purpose ∉ Policy.allowedPurposes) "unsupported bundle purpose" .bundleError
  let season ← asInt "bundle season number is invalid" (field items "season_number")
  reject (season < 1) "bundle season number is invalid" .bundleError
  let rawFiles ← asList "bundle file count exceeds the configured limit" (field items "files")
  reject (rawFiles = [] ∨ Policy.maxFileCount < rawFiles.length)
    "bundle file count exceeds the configured limit" .bundleError
  let reading ← rawFiles.foldlM readEntry ⟨[], [], []⟩
  let count ← asInt "bundle manifest aggregate is invalid" (field items "file_count")
  let total ← asInt "bundle manifest aggregate is invalid" (field items "total_bytes")
  reject (count ≠ reading.files.length ∨ total ≠ (reading.files.map (·.size)).sum ∨
    Policy.maxTotalBytes < total) "bundle manifest aggregate is invalid" .bundleError
  let digest ← asText "catalogue digest is invalid" (field items "source_catalogue_sha256")
  let _ ← validateCatalogueDigest digest
  validatePurposeShape reading.files purpose season

def startsWith (raw : ByteArray) (start : List UInt8) : Bool := start.isPrefixOf raw.data.toList

/-- Bytes that are refused unread: none, too many, or a byte order mark first. -/
def refused (raw : ByteArray) : Bool :=
  raw.size = 0 || Policy.maxManifestBytes < raw.size || startsWith raw [0xEF, 0xBB, 0xBF] ||
    startsWith raw [0xFF, 0xFE] || startsWith raw [0xFE, 0xFF]

/-- The JSON value of the raw bytes. -/
def loadManifest (stack : Nat) (raw : ByteArray) : Except Raised Loaded :=
  match String.fromUTF8? raw with
  | none => .error ⟨.bundleError, "bundle manifest is malformed"⟩
  | some text =>
      match Loaded.loadsStrict stack text.toList with
      | .error .malformed => .error ⟨.bundleError, "bundle manifest is malformed"⟩
      | .error .recursion => .error ⟨.recursionError, "maximum recursion depth exceeded"⟩
      | .ok decoded => .ok decoded

/-- Bytes as the core library compares them. -/
@[reducible]
def bytesEq : DecidableEq ByteArray := ByteArray.instDecidableEq

attribute [local instance] bytesEq

/-- `_decode_manifest` where the stack takes so many containers around one another. -/
def decodeManifest (stack : Nat) (raw : ByteArray) : Except Raised Json := do
  reject (refused raw) "bundle manifest is malformed" .bundleError
  let decoded ← loadManifest stack raw
  reject (decoded.isDict = false) "bundle manifest is not canonical" .bundleError
  let value ← encodable decoded
  reject (canonicalJson value ≠ raw) "bundle manifest is not canonical" .bundleError
  let items ← asObject "bundle manifest is not canonical" value
  checkManifest items
  return value

end Decoding

end Cinegraph.PrivateCorpus
