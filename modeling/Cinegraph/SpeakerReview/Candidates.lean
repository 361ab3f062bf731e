import Cinegraph.SpeakerReview.ReviewedOutput
import Cinegraph.SubtitleAlignment.ScriptParser

/-!
The candidates of a review: one for each uncertain label of an aligned subtitle, with the
speakers it may be given and the evidence around it.
-/

namespace Cinegraph.SpeakerReview

open Library

/-- `items[start:stop]` for a start that is not negative. -/
def slice {α : Type} (items : List α) (start stop : Int) : List α :=
  let stop := if stop < 0 then stop + items.length else stop
  (items.take stop.toNat).drop start.toNat

/-- `f"{n:0{width}d}"` -/
def padded (width n : Nat) : List Char :=
  List.replicate (width - (decimal n).length) '0' ++ decimal n

structure LabelledSubtitleLine where
  cueNumber : Nat
  lineNumber : Nat
  speaker : String
  text : List Char

section EpisodeName

variable [CharacterData]

/-- `\b` between a character and the text behind it. -/
def boundaryBefore (before : Bool) (text : List Char) : Bool :=
  before != text.head?.any CharacterData.isWord

/-- `SUBTITLE_EPISODE_PATTERN` at the start of a text. -/
def episodeAt (text : List Char) : Option (List Char × List Char) :=
  match digitRun text with
  | (season, 'x' :: a :: b :: rest) =>
      if season ≠ [] ∧ (Text.digitValue? a).isSome ∧ (Text.digitValue? b).isSome ∧
          boundaryBefore (CharacterData.isWord b) rest then some (season, [a, b])
      else none
  | _ => none

/-- The first match of the pattern in a file name. -/
def searchEpisode : (before : Bool) → List Char → Option (List Char × List Char)
  | _, [] => none
  | before, c :: text =>
      match if boundaryBefore before (c :: text) then episodeAt (c :: text) else none with
      | some found => some found
      | none => searchEpisode (CharacterData.isWord c) text

def episodeKeyFromSubtitlePath (name : String) : Except Raised EpisodeKey := do
  let (season, episode) ← orRaise (searchEpisode false name.toList)
    (valueError ("Cannot determine season and episode from " ++ name))
  let season ← orRaise (Text.readNat season) (valueError "invalid literal for int()")
  let episode ← orRaise (Text.readNat episode) (valueError "invalid literal for int()")
  return ⟨season, episode⟩

end EpisodeName

variable [Host]

/-- The similarity of two texts, by a library for fuzzy matching, and `round(score, 3)`. -/
class Similarity where
  scoreMatch : List Char → List Char → HostFloat
  rounded : HostFloat → HostFloat

/-- One turn of the loop of `_labelled_subtitle_lines`: the labelled lines so far and the number
of the current cue. -/
def labelLine (walk : List LabelledSubtitleLine × Nat) (numbered : List Char × Nat) :
    Except Raised (List LabelledSubtitleLine × Nat) :=
  let stripped := Text.stripChars numbered.1
  if Text.isDigits stripped then do
    let cueNumber ← orRaise (Text.readNat stripped) (valueError "invalid literal for int()")
    return (walk.1, cueNumber)
  else
    match ANY_SPEAKER_LABEL_PATTERN stripped with
    | some (speaker, text) =>
        .ok (walk.1 ++ [⟨walk.2, numbered.2, Host.upper (String.ofList speaker), text⟩], walk.2)
    | none => .ok walk

def labelledSubtitleLines (subtitleText : List Char) : Except Raised (List LabelledSubtitleLine) :=
  (·.1) <$> ((splitLines subtitleText).zipIdx 1).foldlM labelLine ([], 0)

section Build

variable [Similarity] (configuration : SpeakerReviewConfiguration)

/-- Higher scores first, equal ones in the order of the script. -/
def ranksBefore (target : List Char) (a b : ScriptDialogue) : Bool :=
  let first := (Similarity.scoreMatch target a.text).value
  let second := (Similarity.scoreMatch target b.text).value
  second.lt first || (!first.lt second && a.order ≤ b.order)

def subtitleEvidence (item : LabelledSubtitleLine) : SpeakerReviewEvidence where
  evidenceId := "subtitle-line-" ++ toString item.lineNumber
  source := "subtitle"
  speaker := item.speaker
  text := String.ofList item.text
  similarityScore := none

def screenplayEvidence (target : List Char) (item : ScriptDialogue) : SpeakerReviewEvidence where
  evidenceId := "script-order-" ++ toString item.order
  source := "screenplay"
  speaker := item.speaker
  text := String.ofList item.text
  similarityScore := some (Similarity.rounded (Similarity.scoreMatch target item.text))

/-- `range(center - radius, center + radius + 1)` -/
def around (center : Nat) (radius : Int) : List Int :=
  (List.range (2 * radius + 1).toNat).map fun i => center - radius + i

def buildEvidence (target : LabelledSubtitleLine) (targetIndex : Nat)
    (subtitleLines : List LabelledSubtitleLine) (scriptDialogue : List ScriptDialogue) :
    List SpeakerReviewEvidence :=
  let radius := configuration.subtitleContextRadius
  let subtitleStart := max 0 (targetIndex - radius)
  let subtitleEnd := min (subtitleLines.length : Int) (targetIndex + radius + 1)
  let neighbours := (slice subtitleLines subtitleStart subtitleEnd).map subtitleEvidence
  let rankedScript := slice (scriptDialogue.mergeSort (ranksBefore target.text)) 0
    configuration.scriptMatchLimit
  let wanted := rankedScript.flatMap fun item => around item.order configuration.scriptContextRadius
  let selected := (scriptDialogue.filter fun item => wanted.contains (item.order : Int)).mergeSort
    fun a b => a.order ≤ b.order
  let screenplay := selected.map (screenplayEvidence target.text)
  -- a repeated identifier keeps its first place and its last record
  ((neighbours ++ screenplay).foldl (fun (unique : Dict String SpeakerReviewEvidence) item =>
    unique.set item.evidenceId item) .empty).values

/-- The speakers that a candidate may be given: those of the script and the proposed one. -/
def allowedSpeakers (scriptDialogue : List ScriptDialogue) (proposedSpeaker : String) : List String :=
  (proposedSpeaker :: scriptDialogue.map (·.speaker)).eraseDups.mergeSort (· ≤ ·)

/-- `candidate_id` -/
def candidateId (fileName sourceHash : String) (episodeKey : EpisodeKey)
    (line : LabelledSubtitleLine) : String :=
  let identityMaterial := fileName.toList ++ '\x00' :: sourceHash.toList ++ '\x00' ::
    decimal line.lineNumber ++ '\x00' :: line.text
  String.ofList ('S' :: padded 2 episodeKey.season ++ 'E' :: padded 2 episodeKey.episode ++
    '-' :: 'C' :: padded 4 line.cueNumber ++ '-' :: 'L' :: padded 5 line.lineNumber ++
    '-' :: (sha256Hex identityMaterial).toList.take 10)

/-- The candidate of a labelled line, where its label is uncertain. -/
def buildCandidate (fileName : String) (subtitleText : List Char) (episodeKey : EpisodeKey)
    (scriptDialogue : List ScriptDialogue) (labelledLines : List LabelledSubtitleLine)
    (labelled : LabelledSubtitleLine × Nat) : Except Raised (Option SpeakerReviewCandidate) :=
  let line := labelled.1
  let rawLine := (splitLines subtitleText).getD (line.lineNumber - 1) []
  match UNCERTAIN_SPEAKER_LABEL_PATTERN (Text.stripChars rawLine) with
  | none => .ok none
  | some (speaker, text) =>
      let proposedSpeaker := Host.upper (String.ofList speaker)
      let sourceHash := sha256Hex subtitleText
      some <$> CandidateFields.create {
        candidateId := candidateId fileName sourceHash episodeKey line
        sourceFilename := fileName
        sourceSha256 := sourceHash
        seasonNumber := episodeKey.season
        episodeNumber := episodeKey.episode
        cueNumber := line.cueNumber
        lineNumber := line.lineNumber
        proposedSpeaker
        dialogueText := String.ofList text
        allowedSpeakers := allowedSpeakers scriptDialogue proposedSpeaker
        evidence := buildEvidence configuration line labelled.2 labelledLines scriptDialogue }

def buildFileCandidates (fileName : String) (subtitleText : List Char) (episodeKey : EpisodeKey)
    (scriptDialogue : List ScriptDialogue) : Except Raised (List SpeakerReviewCandidate) := do
  let labelledLines ← labelledSubtitleLines subtitleText
  let candidates ← labelledLines.zipIdx.mapM
    (buildCandidate configuration fileName subtitleText episodeKey scriptDialogue labelledLines)
  return candidates.filterMap id

/-- An aligned subtitle: the name of its file and its decoded text. -/
structure AlignedSubtitle where
  name : String
  text : List Char

/-- The text of the script's pages is what the library for its file format extracts. -/
def buildSpeakerReviewCandidates [CharacterData] (sourcePdfName : String) (scriptText : List Char)
    (alignedSubtitles : List AlignedSubtitle) : Except Raised (List SpeakerReviewCandidate) := do
  reject (isFilled scriptText = false)
    ("No text could be extracted from " ++ sourcePdfName ++ ". Use OCR before alignment.")
  let dialogueByEpisode ← parseScriptDialogue scriptText
  let candidates ← alignedSubtitles.mapM fun subtitle => do
    let episodeKey ← episodeKeyFromSubtitlePath subtitle.name
    let scriptDialogue := (dialogueByEpisode.get? episodeKey).getD []
    reject (scriptDialogue = []) ("Script dialogue is required for " ++ toString episodeKey.season ++
      "x" ++ String.ofList (padded 2 episodeKey.episode) ++ ".")
    buildFileCandidates configuration subtitle.name subtitle.text episodeKey scriptDialogue
  return candidates.flatten

end Build

end Cinegraph.SpeakerReview
