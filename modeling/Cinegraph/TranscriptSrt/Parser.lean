import Cinegraph.Common.Records
import Cinegraph.TranscriptSrt.Patterns

/-! Canonical subtitle text as a list of validated cues. -/

namespace Cinegraph

open Library

structure ParsedSrtCue where
  cueNumber : Int
  startMs : Int
  endMs : Int
  lines : List (List Char)
  deriving DecidableEq, Repr

/-- A message about the cue of a number. -/
def cueError (cueNumber : Int) (message : String) : Raised :=
  valueError ("SRT cue " ++ toString cueNumber ++ message)

def parseCueNumber (value : List Char) : Except Raised Int := do
  let cueNumber ← orRaise (Text.readInt value)
    (valueError "SRT cue numbers must be positive integers.")
  reject (cueNumber < 1) "SRT cue numbers must be positive integers."
  return cueNumber

def MINS_UPPER_LIMIT : Nat := 59
def SECS_UPPER_LIMIT : Nat := 59
def MS_UPPER_LIMIT : Nat := 999

def MS_PER_HOUR : Nat := 3600000
def MS_PER_MINUTE : Nat := 60000
def MS_PER_SECOND : Nat := 1000

namespace Timestamp

/-- The parts of a timestamp are within their limits. -/
def InRange (t : Timestamp) : Prop :=
  t.minutes ≤ MINS_UPPER_LIMIT ∧ t.seconds ≤ SECS_UPPER_LIMIT ∧ t.milliseconds ≤ MS_UPPER_LIMIT

instance (t : Timestamp) : Decidable t.InRange := inferInstanceAs (Decidable (_ ∧ _ ∧ _))

def ms (t : Timestamp) : Nat :=
  t.hours * MS_PER_HOUR + t.minutes * MS_PER_MINUTE + t.seconds * MS_PER_SECOND + t.milliseconds

end Timestamp

def timestampMs (value : Timestamp) (cueNumber : Int) : Except Raised Int :=
  if value.InRange then .ok value.ms
  else .error (cueError cueNumber " has an invalid timecode.")

theorem timestampMs_eq_ok {value : Timestamp} {cueNumber ms : Int} :
    timestampMs value cueNumber = .ok ms ↔ value.InRange ∧ (value.ms : Int) = ms := by
  unfold timestampMs
  split
  · rename_i inside
    simp [inside]
  · rename_i outside
    simp [outside]

/-- `_parse_cue`, on the stripped lines of a block. A block has a first line. -/
def parseCue (lines : List (List Char)) : Except Raised ParsedSrtCue := do
  let cueNumber ← parseCueNumber (lines.headD [])
  let timecode ← orRaise lines[1]? (cueError cueNumber " must have a timecode.")
  let (start, finish) ← orRaise (SrtPatterns.TIMECODE timecode)
    (cueError cueNumber " has an invalid timecode.")
  let startMs ← timestampMs start cueNumber
  let endMs ← timestampMs finish cueNumber
  if endMs ≤ startMs then
    throw (cueError cueNumber " must end after it starts.")
  let dialogueLines := (lines.drop 2).filter isFilled
  if dialogueLines = [] then
    throw (cueError cueNumber " must contain dialogue.")
  return ⟨cueNumber, startMs, endMs, dialogueLines⟩

def parseSrt (text : List Char) : Except Raised (List ParsedSrtCue) :=
  (cueBlocks text).mapM parseCue

end Cinegraph
