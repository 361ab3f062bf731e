import Cinegraph.Library.Blocks
import Cinegraph.Library.Numerals

/-!
The patterns of the transcript parser. A pattern is the function from a text to what
its groups capture; blocks of cues are cut out by `cueBlocks`.
-/

namespace Cinegraph

open Library

/-- `[A-Za-z]` -/
def isLetter (c : Char) : Bool := ('A' ≤ c && c ≤ 'Z') || ('a' ≤ c && c ≤ 'z')

/-- What `\s*(?P<text>.+)$` captures: where only white space is left, the pattern gives its
last character back. -/
def labelText (rest : List Char) : Option (List Char) :=
  let text := match rest.dropWhile Text.isSpace with
    | [] => rest.getLast?.toList
    | text => text
  if text = [] ∨ '\n' ∈ text then none else some text

/-- A name of a letter and at most 48 further characters at the start of a line. -/
def labelName (isName : Char → Bool) (line : List Char) : Option (List Char × List Char) :=
  let name := line.takeWhile isName
  if name.head?.any isLetter ∧ name.length ≤ 49 then some (name, line.dropWhile isName) else none

/-- A label is the longest beginning of the line that its characters allow. -/
theorem labelName_eq_some {isName : Char → Bool} {line name rest : List Char} :
    labelName isName line = some (name, rest) ↔
      (line = name ++ rest ∧ (∀ c ∈ name, isName c = true) ∧ ∀ c ∈ rest.head?, isName c = false) ∧
        (∃ c ∈ name.head?, isLetter c = true) ∧ name.length ≤ 49 := by
  have cut : (line.takeWhile isName = name ∧ line.dropWhile isName = rest) ↔
      line = name ++ rest ∧ (∀ c ∈ name, isName c = true) ∧ ∀ c ∈ rest.head?, isName c = false := by
    constructor
    · rintro ⟨rfl, rfl⟩
      have stops : ∀ c ∈ (line.dropWhile isName).head?, isName c = false := by
        have := List.head?_dropWhile_not isName line
        rintro c first
        rw [first] at this
        simpa using this
      exact ⟨List.takeWhile_append_dropWhile.symm, fun c member => List.mem_takeWhile_imp member, stops⟩
    · rintro ⟨rfl, own, stops⟩
      have none_left : rest.takeWhile isName = [] ∧ rest.dropWhile isName = rest := by
        cases rest with
        | nil => exact ⟨rfl, rfl⟩
        | cons c rest => simp [stops c rfl]
      rw [List.takeWhile_append_of_pos own, List.dropWhile_append_of_pos own, none_left.1,
        none_left.2, List.append_nil]
      exact ⟨rfl, rfl⟩
  rw [← cut]
  simp only [labelName]
  split
  · rename_i good
    rw [Option.any_eq_true] at good
    rw [Option.some.injEq, Prod.mk.injEq]
    constructor
    · rintro ⟨rfl, rfl⟩
      exact ⟨⟨rfl, rfl⟩, good.1, good.2⟩
    · exact And.left
  · rename_i bad
    constructor
    · nofun
    · rintro ⟨⟨rfl, rfl⟩, letter, short⟩
      rw [Option.any_eq_true] at bad
      exact absurd ⟨letter, short⟩ bad

/-- Replace each run of the given characters by one space. -/
def subRuns (replaced : Char → Bool) : (inside : Bool) → List Char → List Char
  | _, [] => []
  | inside, c :: text =>
      if replaced c then
        if inside then subRuns replaced true text else ' ' :: subRuns replaced true text
      else c :: subRuns replaced false text

/-- `re.sub(r"<[^>]+>", replacement, text)`; behind a `<`, the reversed text since then. -/
def subTags (replacement : List Char) : (tag : Option (List Char)) → List Char → List Char
  | none, [] => []
  | some tag, [] => '<' :: tag.reverse
  | none, c :: text =>
      if c = '<' then subTags replacement (some []) text else c :: subTags replacement none text
  | some [], c :: text =>
      if c = '>' then '<' :: '>' :: subTags replacement none text
      else subTags replacement (some [c]) text
  | some (d :: tag), c :: text =>
      if c = '>' then replacement ++ subTags replacement none text
      else subTags replacement (some (c :: d :: tag)) text

/-- The parts of a timestamp `\d{2}:\d{2}:\d{2},\d{3}`. -/
structure Timestamp where
  hours : Nat
  minutes : Nat
  seconds : Nat
  milliseconds : Nat
  deriving DecidableEq, Repr

/-- The number that a fixed number of decimal digits stands for. -/
def digitsAt (count : Nat) (text : List Char) : Option (Nat × List Char) :=
  match count, text with
  | 0, text => some (0, text)
  | count + 1, c :: text => do
      let digit ← Text.digitValue? c
      let (value, rest) ← digitsAt count text
      some (digit * 10 ^ count + value, rest)
  | _ + 1, [] => none

def charAt (expected : Char) : List Char → Option (List Char)
  | c :: rest => if c = expected then some rest else none
  | [] => none

def timestampAt (text : List Char) : Option (Timestamp × List Char) := do
  let (hours, text) ← digitsAt 2 text
  let text ← charAt ':' text
  let (minutes, text) ← digitsAt 2 text
  let text ← charAt ':' text
  let (seconds, text) ← digitsAt 2 text
  let text ← charAt ',' text
  let (milliseconds, text) ← digitsAt 3 text
  some (⟨hours, minutes, seconds, milliseconds⟩, text)

/-- `\s+` -/
def spacesAt : List Char → Option (List Char)
  | c :: rest => if Text.isSpace c then some (rest.dropWhile Text.isSpace) else none
  | [] => none

namespace SrtPatterns

def TIMECODE (line : List Char) : Option (Timestamp × Timestamp) := do
  let (start, text) ← timestampAt line
  let text ← spacesAt text
  let text ← charAt '-' text
  let text ← charAt '-' text
  let text ← charAt '>' text
  let text ← spacesAt text
  let (finish, text) ← timestampAt text
  if text = [] then some (start, finish)
  else
    -- a tail that is set off by white space and holds no further line
    let tail ← spacesAt text
    if '\n' ∈ tail then none else some (start, finish)

/-- `[A-Za-z -]` -/
def isVerifiedName (c : Char) : Bool := isLetter c || c = ' ' || c = '-'

def VERIFIED_SPEAKER_LABEL_PATTERN (line : List Char) : Option (List Char × List Char) :=
  match labelName isVerifiedName line with
  | some (speaker, ':' :: rest) => (labelText rest).map fun text => (speaker, text)
  | _ => none

end SrtPatterns

end Cinegraph
