import Cinegraph.TranscriptSrt.Patterns

/-!
What the lines of a subtitle are: dialogue, credits, title cards or stage directions.
-/

namespace Cinegraph

open Library

/-- The parts of the Unicode character data that are left open here. -/
class CharacterData where
  nfkd : List Char → List Char
  combining : Char → Bool
  isWord : Char → Bool

/-- `needle in text` -/
def hasInfix (needle text : List Char) : Bool := text.tails.any fun rest => needle.isPrefixOf rest

section Patterns

/-- `EXISTING_LABEL_PATTERN.sub("", line)` -/
def withoutExistingLabel (line : List Char) : List Char :=
  let name := line.takeWhile fun c => ('A' ≤ c && c ≤ 'Z') || c = ' '
  if name.head?.any fun c => 'A' ≤ c && c ≤ 'Z' then
    match line.drop name.length with
    | '?' :: ':' :: rest | ':' :: rest => (spacesAt rest).getD line
    | _ => line
  else line

/-- The letters of a pattern that ignores case, with what else folds to them. -/
def foldsTo (letter c : Char) : Bool :=
  c.toLower = letter || (letter = 's' && c = '\u017f') ||
    (letter = 'i' && (c = '\u0130' || c = '\u0131'))

def wordAt (word text : List Char) : Option (List Char) :=
  match word, text with
  | [], rest => some rest
  | letter :: word, c :: text => if foldsTo letter c then wordAt word text else none
  | _ :: _, [] => none

variable [CharacterData]

/-- `NON_DIALOGUE_NOISE_PATTERN.match(text)`: a credit, "by" and the end of a word. -/
def isCredit (text : List Char) : Bool :=
  ["sync", "synced", "corrected", "resync", "resynced", "subtitle", "subtitles"].any fun word =>
    match wordAt word.toList text >>= spacesAt >>= wordAt "by".toList with
    | some (c :: _) => !CharacterData.isWord c
    | some [] => true
    | none => false

end Patterns

/-- How far the search for a stage direction has come: white space in front of a possible one,
the text behind its opening bracket, or white space behind a closing one. -/
inductive DirectionScan where
  | ahead (spaces : List Char)
  | inside (spaces direction : List Char)
  | behind

/-- `BRACKETED_STAGE_DIRECTION_PATTERN.sub(" ", text)`; pending parts are reversed. -/
def withoutDirections : DirectionScan → List Char → List Char
  | .ahead spaces, [] => spaces.reverse
  | .inside spaces direction, [] => spaces.reverse ++ '[' :: direction.reverse
  | .behind, [] => []
  | .ahead spaces, c :: text =>
      if Text.isSpace c then withoutDirections (.ahead (c :: spaces)) text
      else if c = '[' then withoutDirections (.inside spaces []) text
      else spaces.reverse ++ c :: withoutDirections (.ahead []) text
  | .inside spaces direction, c :: text =>
      if c = ']' then
        if direction = [] then
          spaces.reverse ++ '[' :: ']' :: withoutDirections (.ahead []) text
        else ' ' :: withoutDirections .behind text
      else withoutDirections (.inside spaces (c :: direction)) text
  | .behind, c :: text =>
      if Text.isSpace c then withoutDirections .behind text
      else if c = '[' then withoutDirections (.inside [] []) text
      else c :: withoutDirections (.ahead []) text

/-- `_remove_markup` -/
def removeMarkup (text : List Char) : List Char := subTags [] none text

section Classification

variable [CharacterData]

/-- `[^a-z0-9]` -/
def isSeparator (c : Char) : Bool := !(('a' ≤ c && c ≤ 'z') || ('0' ≤ c && c ≤ '9'))

def normalizeText (value : List Char) : List Char :=
  let folded := (CharacterData.nfkd value).flatMap Text.foldChar
  Text.stripChars (subRuns isSeparator false
    (folded.filter fun c => !CharacterData.combining c))

/-- `season \d+ episode \d+` -/
def isEpisodeTitle (normalized : List Char) : Bool :=
  let isNumber (c : Char) : Bool := (Text.digitValue? c).isSome
  if "season ".toList.isPrefixOf normalized then
    let season := normalized.drop 7
    let rest := season.dropWhile isNumber
    let episode := rest.drop 9
    season.head?.any isNumber && " episode ".toList.isPrefixOf rest && episode ≠ [] &&
      episode.all isNumber
  else false

def isNonDialogueNoise (line : List Char) : Bool :=
  let text := Text.stripChars (withoutExistingLabel line)
  if text = [] then true
  else
    let lowered := text.flatMap Text.foldChar
    if hasInfix "www.".toList lowered || hasInfix "http".toList lowered ||
        ["sync by", "synced by", "sync:"].any fun credit => credit.toList.isPrefixOf lowered then
      true
    else if isCredit text then true
    else
      let withoutStageDirections := Text.stripChars (withoutDirections (.ahead []) text)
      if withoutStageDirections = [] then true
      else
        let normalized := normalizeText (removeMarkup withoutStageDirections)
        "modern family".toList.isPrefixOf normalized || isEpisodeTitle normalized

def isDialogueLine (line : List Char) : Bool :=
  let text := Text.stripChars (withoutExistingLabel line)
  if text = [] || isNonDialogueNoise text then false
  else
    let normalized := normalizeText (removeMarkup text)
    if normalized = [] then false
    else if "modern family".toList.isPrefixOf normalized then false
    else !isEpisodeTitle normalized

end Classification

end Cinegraph
