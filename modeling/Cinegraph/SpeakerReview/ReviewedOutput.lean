import Cinegraph.Library.Dict
import Cinegraph.SpeakerReview.Configuration
import Cinegraph.SpeakerReview.Models
import Cinegraph.SpeakerReview.Patterns
import Cinegraph.SubtitleAlignment.SubtitleParser

/-! The subtitle that a review promotes: decided labels in place, noise left out. -/

namespace Cinegraph.SpeakerReview

open Library

/-- `_sha256`; proofs never compute it. -/
@[irreducible] def sha256Hex (value : List Char) : String :=
  String.ofList
    ((toDigits 16 64 (Digest.sha256 (Digest.utf8 (String.ofList value)))).map UUID.hexChar)

/-- The position that an index of the host language denotes; a negative one counts from the end. -/
def positionOf (index : Int) (length : Nat) : Option Nat :=
  let position := if index < 0 then index + length else index
  if 0 ≤ position ∧ position < length then some position.toNat else none

/-- `f"{speaker}: {text}"` -/
def labelledLine (speaker text : List Char) : List Char := speaker ++ ':' :: ' ' :: text

/-- `MALFORMED_SRT_CUE_FOR_PROMOTION` -/
def malformedCue : String := "Malformed SRT cue in automated-review."

section Render

variable [Host]

/-- The speaker a candidate is decided to have. -/
def decidedSpeaker (decisions : Dict String SpeakerReviewDecision) (candidate : SpeakerReviewCandidate) :
    Option String :=
  (decisions.get? candidate.candidateId).bind (·.speaker)

/-- One turn of the loop over the candidates of a subtitle. -/
def relabel (sourceHash : String) (decisions : Dict String SpeakerReviewDecision)
    (lines : List (List Char)) (candidate : SpeakerReviewCandidate) :
    Except Raised (List (List Char)) := do
  reject (candidate.sourceSha256 ≠ sourceHash)
    "Candidate source hash does not match subtitle content."
  let speaker ← orRaise (decidedSpeaker decisions candidate)
    (valueError ("No final speaker decision exists for " ++ candidate.candidateId ++ "."))
  let position ← orRaise (positionOf (candidate.lineNumber - 1) lines.length)
    ⟨.indexError, "list index out of range"⟩
  let (_, text) ← orRaise
    (UNCERTAIN_SPEAKER_LABEL_PATTERN (Text.stripChars (lines.getD position [])))
    (valueError "Candidate line changed after review preparation.")
  reject (text ≠ candidate.dialogueText.toList) "Candidate line changed after review preparation."
  return lines.set position (labelledLine speaker.toList text)

variable [CharacterData] (configuration : SpeakerReviewConfiguration)

/-- A line that the promoted subtitle leaves out. -/
def isRemoved (line : List Char) : Bool :=
  configuration.redactionPlaceholders.contains (String.ofList line) || isNonDialogueNoise line ||
    !isDialogueLine line

/-- One turn of the loop over the lines of a cue: what is retained and how many were removed. -/
def retainLine (cueNumber : Int) (retained : List (List Char) × Nat) (line : List Char) :
    Except Raised (List (List Char) × Nat) :=
  if isFilled line = false then .ok retained
  else if isRemoved configuration line then .ok (retained.1, retained.2 + 1)
  else if (SrtPatterns.VERIFIED_SPEAKER_LABEL_PATTERN line).isSome then
    .ok (retained.1 ++ [line], retained.2)
  else .error (valueError ("Unreviewed subtitle line in automated-review, cue " ++
    toString cueNumber ++ ": " ++ String.ofList line))

/-- The blocks, counts and cue numbers that the loop over the cues builds. -/
structure Rendered where
  outputBlocks : List (List (List Char)) := []
  removedLineCount : Nat := 0
  removedCueNumbers : List Int := []
  deriving DecidableEq

/-- One turn of the loop over the cues, on the stripped lines of a block. -/
def renderCue (rendered : Rendered) (block : List (List Char)) : Except Raised Rendered := do
  let number := block.headD []
  let timecode ← orRaise block[1]? (valueError malformedCue)
  reject (Text.isDigits number = false ∨ SrtPatterns.TIMECODE timecode = none) malformedCue
  let cueNumber ← orRaise (Text.readInt number)
    (valueError "invalid literal for int()")
  let (retained, removed) ← (block.drop 2).foldlM (retainLine configuration cueNumber)
    ([], rendered.removedLineCount)
  if retained = [] then
    return { rendered with
      removedLineCount := removed, removedCueNumbers := rendered.removedCueNumbers ++ [cueNumber] }
  else
    return { rendered with
      outputBlocks := rendered.outputBlocks ++ [number :: timecode :: retained],
      removedLineCount := removed }

/-- `"\n\n".join(blocks) + "\n"` -/
def promotedText (blocks : List (List (List Char))) : List Char :=
  ['\n', '\n'].intercalate (blocks.map joinLines) ++ ['\n']

def renderReviewedSubtitle (sourceText : List Char) (candidates : List SpeakerReviewCandidate)
    (decisions : Dict String SpeakerReviewDecision) : Except Raised (List Char × Nat × List Int) := do
  let lines ← candidates.foldlM (relabel (sha256Hex sourceText) decisions) (splitLines sourceText)
  let rendered ← (cueBlocks (joinLines lines)).foldlM (renderCue configuration) {}
  return (promotedText rendered.outputBlocks, rendered.removedLineCount, rendered.removedCueNumbers)

end Render

end Cinegraph.SpeakerReview
