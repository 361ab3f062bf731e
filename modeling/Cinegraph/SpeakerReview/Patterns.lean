import Cinegraph.TranscriptSrt.Patterns

/-! Speaker labels as the review reads them: with a question mark where they are uncertain. -/

namespace Cinegraph.SpeakerReview

open Library

/-- `[A-Za-z .'-]` -/
def isReviewName (c : Char) : Bool := SrtPatterns.isVerifiedName c || c = '.' || c = '\x27'

def UNCERTAIN_SPEAKER_LABEL_PATTERN (line : List Char) : Option (List Char × List Char) :=
  match labelName isReviewName line with
  | some (speaker, '?' :: ':' :: rest) => (labelText rest).map fun text => (speaker, text)
  | _ => none

def ANY_SPEAKER_LABEL_PATTERN (line : List Char) : Option (List Char × List Char) :=
  match labelName isReviewName line with
  | some (speaker, '?' :: ':' :: rest) | some (speaker, ':' :: rest) =>
      (labelText rest).map fun text => (speaker, text)
  | _ => none

end Cinegraph.SpeakerReview
