import Cinegraph.Library.Alignment
import Cinegraph.SubtitleAlignment.ScriptParser
import Cinegraph.SubtitleAlignment.SubtitleParser

/-!
The alignment of subtitle lines with the dialogue of a script: a table of the best values over both
sequences, and the way back through the moves it stores.
-/

namespace Cinegraph

open Library

structure AlignmentMatch where
  dialogue : ScriptDialogue
  score : ℚ
  margin : ℚ

structure SubtitleDialogueLine where
  cueNumber : Nat
  lineNumber : Nat
  text : List Char
  matchText : List Char
  hasSourceLabel : Bool

namespace SubtitleAlignment

def SUBTITLE_ALIGNMENT_BACKTRACE_FAILED : String := "Subtitle alignment backtrace failed."

def DEFAULT_SKIP_PENALTY : ℚ := 40
def MINIMUM_MATCH_FLOOR : ℚ := 65

section Score

variable [CharacterData]

/-- The ratios of a library for fuzzy matching, as exact numbers. -/
class Fuzz where
  ratio : List Char → List Char → ℚ
  partialRatio : List Char → List Char → ℚ

variable [Fuzz]

def matchScores (subtitleText scriptText : List Char) : ℚ × ℚ :=
  let normalizedSubtitle := normalizeText subtitleText
  let normalizedScript := normalizeText scriptText
  if normalizedSubtitle.length < 3 ∨ normalizedScript = [] then (0, 0)
  else if hasInfix normalizedSubtitle normalizedScript then
    (100, Fuzz.ratio normalizedSubtitle normalizedScript)
  else
    let partialScore := Fuzz.partialRatio normalizedSubtitle normalizedScript
    let fullScore := Fuzz.ratio normalizedSubtitle normalizedScript
    (max partialScore fullScore, fullScore)

def scoreMatch (subtitleText scriptText : List Char) : ℚ := (matchScores subtitleText scriptText).1

/-- Every score is from 0 through 100. -/
def InRange (score : List Char → List Char → ℚ) : Prop := ∀ a b, 0 ≤ score a b ∧ score a b ≤ 100

theorem scoreMatch_inRange (ratio : InRange Fuzz.ratio) (partial_ : InRange Fuzz.partialRatio) :
    InRange scoreMatch := by
  intro subtitleText scriptText
  simp only [scoreMatch, matchScores]
  split
  · norm_num
  · split
    · norm_num
    · exact ⟨le_max_of_le_left (partial_ _ _).1, max_le (partial_ _ _).2 (ratio _ _).2⟩

end Score

inductive Step where
  | skipScript
  | skipSubtitle
  | matchNext
  | matchRepeat
  deriving DecidableEq, Repr

/-- An entry of `values` with the entry of `steps` at the same place. -/
structure Cell where
  value : ℚ
  step : Option Step

section Table

/-- `max(candidates, key=lambda candidate: candidate[0])`: the first of the largest. -/
def firstMax (best : Cell) : List Cell → Cell
  | [] => best
  | candidate :: later => firstMax (if best.value < candidate.value then candidate else best) later

variable (matchFloor skipPenalty : ℚ)

/-- The candidates that match, when the score reaches the floor. -/
def matchCandidates (above diagonal score : ℚ) : List Cell :=
  if matchFloor ≤ score then
    [⟨diagonal + score, some .matchNext⟩, ⟨above + score, some .matchRepeat⟩]
  else []

/-- The cell behind a left, an upper and a diagonal neighbour. -/
def innerCell (left above diagonal score : ℚ) : Cell :=
  firstMax ⟨left - skipPenalty, some .skipScript⟩
    (⟨above - skipPenalty, some .skipSubtitle⟩ :: matchCandidates matchFloor above diagonal score)

/-- The row above all subtitle lines, from a cell on. -/
def seedRow (cell : Cell) : (scriptCount : Nat) → List Cell
  | 0 => [cell]
  | scriptCount + 1 => cell :: seedRow ⟨cell.value - skipPenalty, some .skipScript⟩ scriptCount

/-- The row of one subtitle line, from a cell on, below the cells of the row above. -/
def fillRow (left : Cell) : (above : List Cell) → (scores : List ℚ) → List Cell
  | diagonal :: above :: later, score :: scores =>
      left :: fillRow (innerCell matchFloor skipPenalty left.value above.value diagonal.value score)
        (above :: later) scores
  | _, _ => [left]

/-- The cell in front of the row below. -/
def firstCell (row : List Cell) : Cell :=
  ⟨(row.head?.map Cell.value).getD 0 - skipPenalty, some .skipSubtitle⟩

def fillRows (row : List Cell) : List (List ℚ) → List (List Cell)
  | [] => [row]
  | scores :: later =>
      row :: fillRows (fillRow matchFloor skipPenalty (firstCell skipPenalty row) row scores) later

def cellAt (table : List (List Cell)) (subtitleIndex scriptIndex : Nat) : Option Cell :=
  table[subtitleIndex]?.bind fun row => row[scriptIndex]?

end Table

section Align

variable (score : List Char → List Char → ℚ) (subtitleLines : List SubtitleDialogueLine)
  (scriptDialogue : List ScriptDialogue)

/-- What a match of the line in front of one index with the dialogue in front of the other is. -/
def matchAt (subtitleIndex scriptIndex : Nat) : Except Raised (Nat × AlignmentMatch) := do
  let line ← orRaise subtitleLines[subtitleIndex - 1]? ⟨.indexError, "tuple index out of range"⟩
  let dialogue ← orRaise scriptDialogue[scriptIndex - 1]? ⟨.indexError, "tuple index out of range"⟩
  return (line.lineNumber, ⟨dialogue, score line.text dialogue.text, 0⟩)

/-- The loop back through the table; each turn lowers an index, so their sum is enough fuel. -/
def backtrace (table : List (List Cell)) : (fuel subtitleIndex scriptIndex : Nat) →
    Dict Nat AlignmentMatch → Except Raised (Dict Nat AlignmentMatch)
  | 0, _, _, matched => .ok matched
  | fuel + 1, subtitleIndex, scriptIndex, matched =>
      if subtitleIndex = 0 ∧ scriptIndex = 0 then .ok matched
      else
        match (cellAt table subtitleIndex scriptIndex).bind Cell.step with
        | some .matchNext => do
            let found ← matchAt score subtitleLines scriptDialogue subtitleIndex scriptIndex
            backtrace table fuel (subtitleIndex - 1) (scriptIndex - 1) (matched.set found.1 found.2)
        | some .matchRepeat => do
            let found ← matchAt score subtitleLines scriptDialogue subtitleIndex scriptIndex
            backtrace table fuel (subtitleIndex - 1) scriptIndex (matched.set found.1 found.2)
        | some .skipScript => backtrace table fuel subtitleIndex (scriptIndex - 1) matched
        | some .skipSubtitle => backtrace table fuel (subtitleIndex - 1) scriptIndex matched
        | none => .error ⟨.runtimeError, SUBTITLE_ALIGNMENT_BACKTRACE_FAILED⟩

/-- The floor of the match moves: the given one, or one below the minimum score. -/
def floorOf (minimumScore : ℚ) (matchFloor : Option ℚ) : ℚ :=
  matchFloor.getD (max MINIMUM_MATCH_FLOOR (minimumScore - 25))

def scoresOf : List (List ℚ) :=
  subtitleLines.map fun subtitle => scriptDialogue.map fun script => score subtitle.text script.text

def tableOf (matchFloor skipPenalty : ℚ) : List (List Cell) :=
  fillRows matchFloor skipPenalty (seedRow skipPenalty ⟨0, none⟩ scriptDialogue.length)
    (scoresOf score subtitleLines scriptDialogue)

def alignDialogueLines (minimumScore : ℚ) (matchFloor : Option ℚ) (skipPenalty : ℚ) :
    Except Raised (Dict Nat AlignmentMatch) :=
  let table := tableOf score subtitleLines scriptDialogue (floorOf minimumScore matchFloor) skipPenalty
  backtrace score subtitleLines scriptDialogue table (subtitleLines.length + scriptDialogue.length)
    subtitleLines.length scriptDialogue.length .empty

end Align

/-! ### The table is filled with the best moves -/

def Step.move : Step → Alignment.Move
  | .skipScript => .skipColumn
  | .skipSubtitle => .skipRow
  | .matchNext => .matchNext
  | .matchRepeat => .matchRepeat

section Cells

variable {matchFloor skipPenalty : ℚ}

theorem firstMax_mem (best : Cell) (candidates : List Cell) :
    firstMax best candidates ∈ best :: candidates := by
  induction candidates generalizing best with
  | nil => exact List.mem_singleton_self _
  | cons candidate later ih =>
      rw [firstMax]
      split
      · exact List.mem_cons_of_mem _ (ih candidate)
      · rcases List.mem_cons.mp (ih best) with same | member
        · rw [same]
          exact List.mem_cons_self
        · exact List.mem_cons_of_mem _ (List.mem_cons_of_mem _ member)

theorem le_firstMax (best : Cell) (candidates : List Cell) :
    ∀ cell ∈ best :: candidates, cell.value ≤ (firstMax best candidates).value := by
  induction candidates generalizing best with
  | nil =>
      intro cell member
      rw [List.mem_singleton.mp member]
      exact le_rfl
  | cons candidate later ih =>
      rw [firstMax, List.forall_mem_cons, List.forall_mem_cons]
      split
      · rename_i better
        obtain ⟨here, others⟩ := List.forall_mem_cons.mp (ih candidate)
        exact ⟨better.le.trans here, here, others⟩
      · rename_i worse
        obtain ⟨here, others⟩ := List.forall_mem_cons.mp (ih best)
        exact ⟨here, (not_lt.mp worse).trans here, others⟩

theorem firstMax_spec {cell best : Cell} {candidates : List Cell}
    (chosen : cell = firstMax best candidates) :
    cell ∈ best :: candidates ∧ ∀ other ∈ best :: candidates, other.value ≤ cell.value := by
  rw [chosen]
  exact ⟨firstMax_mem best candidates, le_firstMax best candidates⟩

theorem seedRow_length (cell : Cell) (scriptCount : Nat) :
    (seedRow skipPenalty cell scriptCount).length = scriptCount + 1 := by
  induction scriptCount generalizing cell with
  | zero => rfl
  | succ scriptCount ih => rw [seedRow, List.length_cons, ih]

theorem seedRow_head (cell : Cell) (scriptCount : Nat) :
    (seedRow skipPenalty cell scriptCount)[0]? = some cell := by
  cases scriptCount <;> rfl

theorem seedRow_next (skipPenalty : ℚ) (cell : Cell) {scriptCount scriptIndex : Nat}
    (inside : scriptIndex < scriptCount) :
    ∃ left, (seedRow skipPenalty cell scriptCount)[scriptIndex]? = some left ∧
      (seedRow skipPenalty cell scriptCount)[scriptIndex + 1]? =
        some ⟨left.value - skipPenalty, some .skipScript⟩ := by
  induction scriptCount generalizing cell scriptIndex with
  | zero => exact absurd inside (Nat.not_lt_zero _)
  | succ scriptCount ih =>
      cases scriptIndex with
      | zero => exact ⟨cell, rfl, seedRow_head _ _⟩
      | succ scriptIndex => exact ih _ (Nat.lt_of_succ_lt_succ inside)

theorem fillRow_length {above : List Cell} {scores : List ℚ} (left : Cell)
    (lengths : above.length = scores.length + 1) :
    (fillRow matchFloor skipPenalty left above scores).length = scores.length + 1 := by
  induction scores generalizing left above with
  | nil =>
      obtain ⟨diagonal, rfl⟩ := List.length_eq_one_iff.mp lengths
      rfl
  | cons score scores ih =>
      match above with
      | diagonal :: upper :: later =>
          rw [fillRow, List.length_cons, ih _ (Nat.succ.inj lengths), List.length_cons]

theorem fillRow_head {above : List Cell} {scores : List ℚ} (left : Cell) :
    (fillRow matchFloor skipPenalty left above scores)[0]? = some left := by
  unfold fillRow
  split <;> rfl

/-- Behind its first cell a row holds the best of the moves from its neighbours. -/
theorem fillRow_next (matchFloor skipPenalty : ℚ) {above : List Cell} {scores : List ℚ}
    (left : Cell) (lengths : above.length = scores.length + 1) {scriptIndex : Nat} {score : ℚ}
    (scored : scores[scriptIndex]? = some score) :
    ∃ before upper diagonal,
      (fillRow matchFloor skipPenalty left above scores)[scriptIndex]? = some before ∧
      above[scriptIndex + 1]? = some upper ∧ above[scriptIndex]? = some diagonal ∧
      (fillRow matchFloor skipPenalty left above scores)[scriptIndex + 1]? =
        some (innerCell matchFloor skipPenalty before.value upper.value diagonal.value score) := by
  induction scores generalizing left above scriptIndex with
  | nil => cases scored
  | cons first scores ih =>
      match above with
      | diagonal :: upper :: later =>
          rw [fillRow]
          cases scriptIndex with
          | zero =>
              cases scored
              exact ⟨left, upper, diagonal, rfl, rfl, rfl, fillRow_head _⟩
          | succ scriptIndex => exact ih _ (Nat.succ.inj lengths) scored

theorem fillRows_head (row : List Cell) (scores : List (List ℚ)) :
    (fillRows matchFloor skipPenalty row scores)[0]? = some row := by
  cases scores <;> rfl

/-- Each row below the first one is filled from the row above and the scores of its line. -/
theorem fillRows_next {scriptCount : Nat} {row : List Cell} {scores : List (List ℚ)}
    (lengths : row.length = scriptCount + 1) (widths : ∀ line ∈ scores, line.length = scriptCount)
    {subtitleIndex : Nat} {line : List ℚ} (scored : scores[subtitleIndex]? = some line) :
    ∃ above, (fillRows matchFloor skipPenalty row scores)[subtitleIndex]? = some above ∧
      above.length = line.length + 1 ∧
      (fillRows matchFloor skipPenalty row scores)[subtitleIndex + 1]? =
        some (fillRow matchFloor skipPenalty (firstCell skipPenalty above) above line) := by
  induction scores generalizing row subtitleIndex with
  | nil => cases scored
  | cons first scores ih =>
      obtain ⟨width, widths⟩ := List.forall_mem_cons.mp widths
      have fits : row.length = first.length + 1 := by rw [lengths, width]
      rw [fillRows]
      cases subtitleIndex with
      | zero =>
          cases scored
          exact ⟨row, rfl, fits, fillRows_head _ _⟩
      | succ subtitleIndex =>
          refine ih ?_ widths scored
          rw [fillRow_length _ fits, width]

end Cells

section Filled

variable (score : List Char → List Char → ℚ) (subtitleLines : List SubtitleDialogueLine)
  (scriptDialogue : List ScriptDialogue) (matchFloor skipPenalty : ℚ)

/-- What the moves of an alignment earn. -/
def scoringOf : Alignment.Scoring ℚ where
  score row column :=
    match subtitleLines[row]?, scriptDialogue[column]? with
    | some line, some dialogue => score line.text dialogue.text
    | _, _ => 0
  floor := matchFloor
  penalty := skipPenalty

def valueAt (table : List (List Cell)) (row column : Nat) : ℚ :=
  ((cellAt table row column).map Cell.value).getD 0

def moveAt (table : List (List Cell)) (row column : Nat) : Option Alignment.Move :=
  ((cellAt table row column).bind Cell.step).map Step.move

variable {score subtitleLines scriptDialogue matchFloor skipPenalty}

theorem mem_matchCandidates {cell : Cell} {above diagonal earned : ℚ} :
    cell ∈ matchCandidates matchFloor above diagonal earned ↔ matchFloor ≤ earned ∧
      (cell = ⟨diagonal + earned, some .matchNext⟩ ∨ cell = ⟨above + earned, some .matchRepeat⟩) := by
  rw [matchCandidates]
  split
  · rename_i enough
    rw [List.mem_cons, List.mem_singleton]
    exact (and_iff_right enough).symm
  · rename_i low
    exact iff_of_false List.not_mem_nil fun both => low both.1

/-- An inner cell is the best of the moves into it. -/
theorem innerCell_into (matchFloor skipPenalty : ℚ) {values : Nat → Nat → ℚ} {row column : Nat} {line : SubtitleDialogueLine}
    {dialogue : ScriptDialogue} (at_line : subtitleLines[row]? = some line)
    (at_dialogue : scriptDialogue[column]? = some dialogue) {cell : Cell}
    (filled : cell = innerCell matchFloor skipPenalty (values (row + 1) column)
      (values row (column + 1)) (values row column) (score line.text dialogue.text)) :
    ∃ step, cell.step = some step ∧
      Alignment.Into (scoringOf score subtitleLines scriptDialogue matchFloor skipPenalty) values
        row column step.move cell.value ∧
      ∀ other value, Alignment.Into
          (scoringOf score subtitleLines scriptDialogue matchFloor skipPenalty) values row column
          other value → value ≤ cell.value := by
  have scored : score line.text dialogue.text =
      (scoringOf score subtitleLines scriptDialogue matchFloor skipPenalty).score row column := by
    simp only [scoringOf, at_line, at_dialogue]
  rw [scored, innerCell] at filled
  obtain ⟨member, best⟩ := firstMax_spec filled
  have bounded : ∀ other value, Alignment.Into
      (scoringOf score subtitleLines scriptDialogue matchFloor skipPenalty) values row column
      other value → value ≤ cell.value := by
    intro other value into
    cases into with
    | skipColumn => exact best _ List.mem_cons_self
    | skipRow => exact best _ (List.mem_cons_of_mem _ List.mem_cons_self)
    | matchNext enough =>
        exact best _ (List.mem_cons_of_mem _ (List.mem_cons_of_mem _
          (mem_matchCandidates.mpr ⟨enough, Or.inl rfl⟩)))
    | matchRepeat enough =>
        exact best _ (List.mem_cons_of_mem _ (List.mem_cons_of_mem _
          (mem_matchCandidates.mpr ⟨enough, Or.inr rfl⟩)))
  rw [List.mem_cons, List.mem_cons, mem_matchCandidates] at member
  rcases member with same | same | ⟨enough, same | same⟩
  · exact ⟨.skipScript, by rw [same], by rw [same]; exact .skipColumn, bounded⟩
  · exact ⟨.skipSubtitle, by rw [same], by rw [same]; exact .skipRow, bounded⟩
  · exact ⟨.matchNext, by rw [same], by rw [same]; exact .matchNext enough, bounded⟩
  · exact ⟨.matchRepeat, by rw [same], by rw [same]; exact .matchRepeat enough, bounded⟩

theorem cellAt_of_row {table : List (List Cell)} {row column : Nat} {cells : List Cell}
    (found : table[row]? = some cells) : cellAt table row column = cells[column]? := by
  rw [cellAt, found]
  rfl

theorem valueAt_of_cell {table : List (List Cell)} {row column : Nat} {cell : Cell}
    (found : cellAt table row column = some cell) : valueAt table row column = cell.value := by
  rw [valueAt, found]
  rfl

theorem moveAt_of_cell {table : List (List Cell)} {row column : Nat} {cell : Cell} {step : Step}
    (found : cellAt table row column = some cell) (stored : cell.step = some step) :
    moveAt table row column = some step.move := by
  rw [moveAt, found, Option.bind_some, stored]
  rfl

/-- The table of the code is filled as an alignment table has to be. -/
theorem tableOf_filled (score : List Char → List Char → ℚ)
    (subtitleLines : List SubtitleDialogueLine) (scriptDialogue : List ScriptDialogue)
    (matchFloor skipPenalty : ℚ) : Alignment.Filled
    (scoringOf score subtitleLines scriptDialogue matchFloor skipPenalty)
    subtitleLines.length scriptDialogue.length
    (valueAt (tableOf score subtitleLines scriptDialogue matchFloor skipPenalty))
    (moveAt (tableOf score subtitleLines scriptDialogue matchFloor skipPenalty)) := by
  have seeded : (seedRow skipPenalty ⟨0, none⟩ scriptDialogue.length).length =
      scriptDialogue.length + 1 := seedRow_length _ _
  have widths : ∀ line ∈ scoresOf score subtitleLines scriptDialogue,
      line.length = scriptDialogue.length := by
    rw [scoresOf, List.forall_mem_map]
    exact fun _ _ => List.length_map _
  have first_row (column : Nat) :
      cellAt (tableOf score subtitleLines scriptDialogue matchFloor skipPenalty) 0 column =
        (seedRow skipPenalty ⟨0, none⟩ scriptDialogue.length)[column]? :=
    cellAt_of_row (fillRows_head _ _)
  have next_row (row : Nat) {line : SubtitleDialogueLine} (at_line : subtitleLines[row]? = some line) :
      ∃ above : List Cell,
        (tableOf score subtitleLines scriptDialogue matchFloor skipPenalty)[row]? = some above ∧
        above.length = (scriptDialogue.map fun script => score line.text script.text).length + 1 ∧
        (tableOf score subtitleLines scriptDialogue matchFloor skipPenalty)[row + 1]? =
          some (fillRow matchFloor skipPenalty (firstCell skipPenalty above) above
            (scriptDialogue.map fun script => score line.text script.text)) := by
    refine fillRows_next seeded widths ?_
    rw [scoresOf, List.getElem?_map, at_line]
    rfl
  refine ⟨?_, ?_, ?_, ?_⟩
  · exact valueAt_of_cell ((first_row 0).trans (seedRow_head _ _))
  · intro column inside
    obtain ⟨left, here, next⟩ := seedRow_next skipPenalty ⟨0, none⟩ inside
    rw [← first_row] at here next
    rw [valueAt_of_cell here, valueAt_of_cell next, moveAt_of_cell next rfl]
    exact ⟨rfl, rfl⟩
  · intro row inside
    obtain ⟨above, here, lengths, next⟩ := next_row row (List.getElem?_eq_getElem inside)
    have first : cellAt (tableOf score subtitleLines scriptDialogue matchFloor skipPenalty)
        (row + 1) 0 = some (firstCell skipPenalty above) :=
      (cellAt_of_row next).trans (fillRow_head _)
    have before : valueAt (tableOf score subtitleLines scriptDialogue matchFloor skipPenalty) row 0 =
        (above.head?.map Cell.value).getD 0 := by
      rw [valueAt, cellAt_of_row here, List.head?_eq_getElem?]
    rw [valueAt_of_cell first, moveAt_of_cell first rfl, before]
    exact ⟨rfl, rfl⟩
  · intro row in_rows column in_columns
    have at_line := List.getElem?_eq_getElem in_rows
    have at_dialogue := List.getElem?_eq_getElem in_columns
    obtain ⟨above, here, lengths, next⟩ := next_row row at_line
    have at_score : (scriptDialogue.map fun script => score subtitleLines[row].text
        script.text)[column]? = some (score subtitleLines[row].text scriptDialogue[column].text) := by
      rw [List.getElem?_map, at_dialogue]
      rfl
    obtain ⟨left, upper, diagonal, at_left, at_upper, at_diagonal, at_cell⟩ :=
      fillRow_next matchFloor skipPenalty (firstCell skipPenalty above) lengths at_score
    rw [← cellAt_of_row next] at at_left at_cell
    rw [← cellAt_of_row here] at at_upper at_diagonal
    rw [← valueAt_of_cell at_left, ← valueAt_of_cell at_upper,
      ← valueAt_of_cell at_diagonal] at at_cell
    obtain ⟨step, stored, into, best⟩ :=
      innerCell_into matchFloor skipPenalty at_line at_dialogue rfl
    rw [valueAt_of_cell at_cell]
    exact ⟨step.move, moveAt_of_cell at_cell stored, into, best⟩

end Filled

/-! ### The way back -/

section Backtrace

variable {score : List Char → List Char → ℚ} {subtitleLines : List SubtitleDialogueLine}
  {scriptDialogue : List ScriptDialogue}

/-- The item of the result for a matched cell. -/
def itemAt (score : List Char → List Char → ℚ) (subtitleLines : List SubtitleDialogueLine)
    (scriptDialogue : List ScriptDialogue) (cell : Nat × Nat) : Option (Nat × AlignmentMatch) := do
  let line ← subtitleLines[cell.1]?
  let dialogue ← scriptDialogue[cell.2]?
  return (line.lineNumber, ⟨dialogue, score line.text dialogue.text, 0⟩)

theorem itemAt_score (matchFloor skipPenalty : ℚ) {cell : Nat × Nat} {item : Nat × AlignmentMatch}
    (found : itemAt score subtitleLines scriptDialogue cell = some item) :
    item.2.score = (scoringOf score subtitleLines scriptDialogue matchFloor skipPenalty).score
      cell.1 cell.2 := by
  obtain ⟨line, at_line, found⟩ := Option.bind_eq_some_iff.mp found
  obtain ⟨dialogue, at_dialogue, found⟩ := Option.bind_eq_some_iff.mp found
  cases found
  simp only [scoringOf, at_line, at_dialogue]

theorem same_row (distinct : (subtitleLines.map fun line => line.lineNumber).Nodup)
    {row other : Nat} {line otherLine : SubtitleDialogueLine}
    (at_row : subtitleLines[row]? = some line) (at_other : subtitleLines[other]? = some otherLine)
    (same : line.lineNumber = otherLine.lineNumber) : row = other := by
  have inside : row < (subtitleLines.map fun line => line.lineNumber).length := by
    rw [List.length_map]
    exact (List.getElem?_eq_some_iff.mp at_row).1
  refine (List.getElem?_inj inside distinct).mp ?_
  rw [List.getElem?_map, List.getElem?_map, at_row, at_other, Option.map_some, Option.map_some, same]

/-- The lines in front of an index have no match yet. -/
def Unmatched (subtitleLines : List SubtitleDialogueLine) (matched : Dict Nat AlignmentMatch)
    (subtitleIndex : Nat) : Prop :=
  ∀ row < subtitleIndex, ∀ line, subtitleLines[row]? = some line →
    matched.get? line.lineNumber = none

/-- One turn that matches puts the item of its cell behind the others. -/
theorem matchAt_item (score : List Char → List Char → ℚ)
    (distinct : (subtitleLines.map fun line => line.lineNumber).Nodup)
    {row column : Nat} (in_rows : row < subtitleLines.length)
    (in_columns : column < scriptDialogue.length) {matched : Dict Nat AlignmentMatch}
    (open_ : Unmatched subtitleLines matched (row + 1)) :
    ∃ item, matchAt score subtitleLines scriptDialogue (row + 1) (column + 1) = .ok item ∧
      (matched.set item.1 item.2).entries.map some =
        matched.entries.map some ++ [itemAt score subtitleLines scriptDialogue (row, column)] ∧
      Unmatched subtitleLines (matched.set item.1 item.2) row := by
  have at_line := List.getElem?_eq_getElem in_rows
  have at_dialogue := List.getElem?_eq_getElem in_columns
  have fresh := open_ row (Nat.lt_succ_self row) _ at_line
  refine ⟨(subtitleLines[row].lineNumber, ⟨scriptDialogue[column], score subtitleLines[row].text
    scriptDialogue[column].text, 0⟩), ?_, ?_, ?_⟩
  · rw [matchAt, Nat.add_sub_cancel, Nat.add_sub_cancel, at_line, at_dialogue]
    rfl
  · rw [Dict.entries_set_of_get?_none _ fresh, List.map_append, itemAt, at_line, at_dialogue]
    rfl
  · intro other before line at_other
    rw [Dict.get?_set_of_ne]
    · exact open_ other (Nat.lt_succ_of_lt before) line at_other
    · intro same
      exact absurd (same_row distinct at_other at_line same) (Nat.ne_of_lt before)

/-- The loop follows the stored moves and collects the items of the cells they match. -/
theorem backtrace_trace (score : List Char → List Char → ℚ) {table : List (List Cell)}
    (distinct : (subtitleLines.map fun line => line.lineNumber).Nodup) {row column : Nat}
    {cells : List (Nat × Nat)} (trace : Alignment.Trace (moveAt table) row column cells)
    (in_rows : row ≤ subtitleLines.length) (in_columns : column ≤ scriptDialogue.length)
    (fuel : Nat) (enough : row + column ≤ fuel) (matched : Dict Nat AlignmentMatch)
    (open_ : Unmatched subtitleLines matched row) :
    ∃ result, backtrace score subtitleLines scriptDialogue table fuel row column matched =
        .ok result ∧
      result.entries.map some = matched.entries.map some ++
        cells.reverse.map (itemAt score subtitleLines scriptDialogue) := by
  have stored {row column : Nat} {move : Alignment.Move}
      (step : moveAt table row column = some move) :
      ∃ kept : Step, (cellAt table row column).bind Cell.step = some kept ∧ kept.move = move := by
    rw [moveAt, Option.map_eq_some_iff] at step
    exact step
  induction trace generalizing fuel matched with
  | origin =>
      refine ⟨matched, ?_, by rw [List.reverse_nil, List.map_nil, List.append_nil]⟩
      cases fuel <;> rfl
  | @skipColumn row column cells step trace ih =>
      obtain ⟨kept, found, same⟩ := stored step
      cases fuel with
      | zero => exact absurd enough (by omega)
      | succ fuel =>
          obtain ⟨result, back, items⟩ := ih in_rows (Nat.le_of_succ_le in_columns)
            fuel (by omega) matched open_
          refine ⟨result, ?_, items⟩
          rw [backtrace, if_neg (by omega), found]
          cases kept <;> cases same
          exact back
  | @skipRow row column cells step trace ih =>
      obtain ⟨kept, found, same⟩ := stored step
      cases fuel with
      | zero => exact absurd enough (by omega)
      | succ fuel =>
          obtain ⟨result, back, items⟩ := ih (Nat.le_of_succ_le in_rows) in_columns
            fuel (by omega) matched fun other before => open_ other (Nat.lt_succ_of_lt before)
          refine ⟨result, ?_, items⟩
          rw [backtrace, if_neg (by omega), found]
          cases kept <;> cases same
          exact back
  | @matchNext row column cells step trace ih =>
      obtain ⟨kept, found, same⟩ := stored step
      obtain ⟨item, matching, added, unmatched⟩ :=
        matchAt_item score distinct in_rows in_columns open_
      cases fuel with
      | zero => exact absurd enough (by omega)
      | succ fuel =>
          obtain ⟨result, back, items⟩ := ih (Nat.le_of_succ_le in_rows)
            (Nat.le_of_succ_le in_columns) fuel (by omega) _ unmatched
          refine ⟨result, ?_, ?_⟩
          · rw [backtrace, if_neg (by omega), found]
            cases kept <;> cases same
            exact (bind_eq_ok _).mpr ⟨item, matching, back⟩
          · rw [items, added, List.reverse_concat, List.map_cons, List.append_assoc,
              List.singleton_append]
  | @matchRepeat row column cells step trace ih =>
      obtain ⟨kept, found, same⟩ := stored step
      obtain ⟨item, matching, added, unmatched⟩ :=
        matchAt_item score distinct in_rows in_columns open_
      cases fuel with
      | zero => exact absurd enough (by omega)
      | succ fuel =>
          obtain ⟨result, back, items⟩ := ih (Nat.le_of_succ_le in_rows) in_columns
            fuel (by omega) _ unmatched
          refine ⟨result, ?_, ?_⟩
          · rw [backtrace, if_neg (by omega), found]
            cases kept <;> cases same
            exact (bind_eq_ok _).mpr ⟨item, matching, back⟩
          · rw [items, added, List.reverse_concat, List.map_cons, List.append_assoc,
              List.singleton_append]

/-- The alignment succeeds and collects the items of the cells that the stored moves match. -/
theorem alignDialogueLines_traced (score : List Char → List Char → ℚ)
    (scriptDialogue : List ScriptDialogue) (minimumScore : ℚ) (matchFloor : Option ℚ)
    (skipPenalty : ℚ) (distinct : (subtitleLines.map fun line => line.lineNumber).Nodup)
    {cells : List (Nat × Nat)}
    (trace : Alignment.Trace (moveAt (tableOf score subtitleLines scriptDialogue
      (floorOf minimumScore matchFloor) skipPenalty)) subtitleLines.length scriptDialogue.length
      cells) :
    ∃ matched, alignDialogueLines score subtitleLines scriptDialogue minimumScore matchFloor
        skipPenalty = .ok matched ∧
      matched.entries.map some = cells.reverse.map (itemAt score subtitleLines scriptDialogue) := by
  obtain ⟨matched, back, items⟩ := backtrace_trace score distinct trace (Nat.le_refl _)
    (Nat.le_refl _) _ (Nat.le_refl _) .empty fun _ _ _ _ => rfl
  exact ⟨matched, back, items⟩

/-- The matches of an alignment are the match moves of a path that no path is worth more than. -/
theorem alignDialogueLines_optimal (score : List Char → List Char → ℚ)
    (subtitleLines : List SubtitleDialogueLine) (scriptDialogue : List ScriptDialogue)
    (minimumScore : ℚ) (matchFloor : Option ℚ) (skipPenalty : ℚ)
    (distinct : (subtitleLines.map fun line => line.lineNumber).Nodup) :
    ∃ matched value cells, alignDialogueLines score subtitleLines scriptDialogue minimumScore
        matchFloor skipPenalty = .ok matched ∧
      matched.entries.map some =
        cells.reverse.map (itemAt score subtitleLines scriptDialogue) ∧
      Alignment.Path (scoringOf score subtitleLines scriptDialogue
        (floorOf minimumScore matchFloor) skipPenalty)
        subtitleLines.length scriptDialogue.length value cells ∧
      (∀ otherValue otherCells, Alignment.Path (scoringOf score subtitleLines scriptDialogue
        (floorOf minimumScore matchFloor) skipPenalty)
        subtitleLines.length scriptDialogue.length otherValue otherCells → otherValue ≤ value) ∧
      (cells.Pairwise fun earlier later => earlier.1 < later.1 ∧ earlier.2 ≤ later.2) ∧
      ∀ item ∈ matched.entries, floorOf minimumScore matchFloor ≤ item.2.score := by
  have filled := tableOf_filled score subtitleLines scriptDialogue
    (floorOf minimumScore matchFloor) skipPenalty
  obtain ⟨cells, trace, path⟩ := filled.traced (Nat.le_refl _) (Nat.le_refl _)
  obtain ⟨matched, back, items⟩ :=
    alignDialogueLines_traced score scriptDialogue minimumScore matchFloor skipPenalty distinct trace
  refine ⟨matched, _, cells, back, items, path, fun _ _ other =>
    filled.bounds other (Nat.le_refl _) (Nat.le_refl _), path.monotone, ?_⟩
  intro item member
  have collected : some item ∈ matched.entries.map some := List.mem_map_of_mem member
  rw [items] at collected
  obtain ⟨cell, inside, found⟩ := List.mem_map.mp collected
  have enough := path.enough cell (List.mem_reverse.mp inside)
  rwa [← itemAt_score _ skipPenalty found] at enough

namespace Samples

def lines : List SubtitleDialogueLine := [
  ⟨1, 3, "Where is she?".toList, "Where is she?".toList, false⟩,
  ⟨2, 7, "On the roof.".toList, "On the roof.".toList, false⟩]

def dialogues : List ScriptDialogue := [
  ⟨⟨1, 1⟩, "JAY", "Where is she?".toList, 0⟩,
  ⟨⟨1, 1⟩, "GLORIA", "On the roof.".toList, 1⟩]

/-- A score that knows equal texts only. -/
def sameText (text spoken : List Char) : ℚ := if text = spoken then 100 else 0

theorem alignDialogueLines_optimal_lines :
    ∃ matched value cells, alignDialogueLines sameText lines dialogues 92 none
        DEFAULT_SKIP_PENALTY = .ok matched ∧
      matched.entries.map some = cells.reverse.map (itemAt sameText lines dialogues) ∧
      Alignment.Path (scoringOf sameText lines dialogues (floorOf 92 none) DEFAULT_SKIP_PENALTY)
        2 2 value cells ∧
      (∀ otherValue otherCells, Alignment.Path (scoringOf sameText lines dialogues
        (floorOf 92 none) DEFAULT_SKIP_PENALTY) 2 2 otherValue otherCells → otherValue ≤ value) ∧
      (cells.Pairwise fun earlier later => earlier.1 < later.1 ∧ earlier.2 ≤ later.2) ∧
      ∀ item ∈ matched.entries, floorOf 92 none ≤ item.2.score :=
  alignDialogueLines_optimal sameText lines dialogues 92 none DEFAULT_SKIP_PENALTY (by decide)

end Samples

end Backtrace

end SubtitleAlignment

end Cinegraph
