import Cinegraph.SubtitleAlignment.Matching

/-!
The labels of a subtitle: each dialogue line takes the speaker of its match, or of the ordered
fallback where the match is too weak.
-/

namespace Cinegraph.SubtitleAlignment

open Library

def DEFAULT_MINIMUM_SCORE : ℚ := 92
def FALLBACK_MINIMUM_SCORE : ℚ := 0
def FALLBACK_MATCH_FLOOR : ℚ := 0
def FALLBACK_SKIP_PENALTY : ℚ := 125
def FALLBACK_REASON : String := "Assigned by ordered fallback below the confidence threshold."

/-- `{episode:02d}` -/
def twoDigits (n : Nat) : String := (if n < 10 then "0" else "") ++ toString n

def SCRIPT_DIALOGUE_NOT_FOUND (episodeKey : EpisodeKey) : String :=
  "No script dialogue found for " ++ toString episodeKey.season ++ "x" ++
    twoDigits episodeKey.episode ++ "."

def ORDERED_SCRIPT_FALLBACK_NOT_FOUND (subtitlePath : String) (lineNumber : Nat) : String :=
  "No ordered script fallback found for " ++ subtitlePath ++ ":" ++ toString lineNumber

structure UnresolvedLine where
  cueNumber : Nat
  lineNumber : Nat
  text : List Char
  bestSpeaker : Option String
  bestScore : Option ℚ
  reason : String

structure AlignmentReport where
  sourcePdf : String
  sourceSubtitle : String
  outputSubtitle : String
  episodeKey : EpisodeKey
  labelledLines : Nat
  fallbackLabelledLines : Nat
  unresolvedLines : List UnresolvedLine

section Lines

/-- `str.splitlines(keepends=True)`, behind the reversed beginning of a line. -/
def keptLinesFrom : (line : List Char) → List Char → List (List Char)
  | [], [] => []
  | c :: line, [] => [(c :: line).reverse]
  | line, '\r' :: '\n' :: rest => ('\n' :: '\r' :: line).reverse :: keptLinesFrom [] rest
  | line, c :: rest =>
      if isLineBreak c then (c :: line).reverse :: keptLinesFrom [] rest
      else keptLinesFrom (c :: line) rest

def isReturn (c : Char) : Bool := c = '\r' || c = '\n'

/-- `line.rstrip("\r\n")` -/
def withoutEnding (line : List Char) : List Char := line.rdropWhile isReturn

def lineEnding (line : List Char) : List Char := line.drop (withoutEnding line).length

end Lines

section Extraction

variable [CharacterData]

/-- One turn of the loop of `_extract_dialogue_lines`: the lines so far and the current cue. -/
def extractLine (walk : List SubtitleDialogueLine × Nat) (numbered : List Char × Nat) :
    Except Raised (List SubtitleDialogueLine × Nat) :=
  let sourceText := withoutEnding numbered.1
  let stripped := Text.stripChars sourceText
  if Text.isDigits stripped then do
    let cueNumber ← orRaise (Text.readNat stripped) (valueError "invalid literal for int()")
    return (walk.1, cueNumber)
  else if (SrtPatterns.TIMECODE stripped).isSome || !isDialogueLine sourceText then .ok walk
  else
    .ok (walk.1 ++ [⟨walk.2, numbered.2, sourceText, withoutExistingLabel sourceText,
      withoutExistingLabel sourceText ≠ sourceText⟩], walk.2)

def extractDialogueLines (sourceLines : List (List Char)) :
    Except Raised (List SubtitleDialogueLine) :=
  (·.1) <$> (sourceLines.zipIdx 1).foldlM extractLine ([], 0)

end Extraction

section Noise

variable [CharacterData]

/-- `_clean_generated_dialogue_line`, or nothing for noise. -/
def cleanGeneratedDialogueLine (line : List Char) : Option (List Char) :=
  let text := withoutEnding line
  let unlabelled := withoutExistingLabel text
  let label := text.take (text.length - unlabelled.length)
  let dialogue := Text.stripChars (withoutDirections (.ahead []) unlabelled)
  if isNonDialogueNoise dialogue then none else some (label ++ dialogue ++ lineEnding line)

/-- `append_cue`: a cue stays when something of it is dialogue. -/
def appendCue (filteredLines cue : List (List Char)) : List (List Char) :=
  let retained := ((cue.drop 2).filter isFilled).filterMap cleanGeneratedDialogueLine
  if retained = [] then filteredLines else filteredLines ++ (cue.take 2 ++ retained)

/-- One turn of the loop of `remove_noise_cues`: the lines that stay and the current cue. -/
def filterLine (walk : List (List Char) × List (List Char)) (line : List Char) :
    List (List Char) × List (List Char) :=
  if isFilled line then (walk.1, walk.2 ++ [line])
  else
    let filteredLines := appendCue walk.1 walk.2
    if filteredLines.getLast?.any isFilled then (filteredLines ++ [line], [])
    else (filteredLines, [])

def removeNoiseCues (lines : List (List Char)) : List (List Char) :=
  let walk := lines.foldl filterLine ([], [])
  appendCue walk.1 walk.2

end Noise

section Annotate

/-- What the loop over the dialogue lines has written and counted. -/
structure Labels where
  outputLines : List (List Char)
  labelledLines : Nat := 0
  fallbackLabelledLines : Nat := 0
  unresolvedLines : List UnresolvedLine := []

def Labels.write (labels : Labels) (line : SubtitleDialogueLine) (label ending : List Char) :
    Labels :=
  let written := label ++ ": ".toList ++ line.text ++ ending
  { labels with outputLines := labels.outputLines.set (line.lineNumber - 1) written }

variable (sourceSubtitle : String) (minimumScore : ℚ) (sourceLines : List (List Char))
  (found fallback : Dict Nat AlignmentMatch)

/-- One turn of the labelling loop. -/
def labelLine (labels : Labels) (line : SubtitleDialogueLine) : Except Raised Labels := do
  let sourceLine ← orRaise sourceLines[line.lineNumber - 1]?
    ⟨.indexError, "list index out of range"⟩
  if line.hasSourceLabel then
    return { labels with labelledLines := labels.labelledLines + 1 }
  else
    match (found.get? line.lineNumber).filter fun matched => minimumScore ≤ matched.score with
    | none => do
        let fallbackMatch ← orRaise (fallback.get? line.lineNumber)
          ⟨.runtimeError, ORDERED_SCRIPT_FALLBACK_NOT_FOUND sourceSubtitle line.lineNumber⟩
        let unresolved : UnresolvedLine := ⟨line.cueNumber, line.lineNumber, line.matchText,
          some fallbackMatch.dialogue.speaker, some fallbackMatch.score, FALLBACK_REASON⟩
        let written := labels.write line (fallbackMatch.dialogue.speaker.toList ++ ['?'])
          (lineEnding sourceLine)
        return { written with
          unresolvedLines := labels.unresolvedLines ++ [unresolved]
          fallbackLabelledLines := labels.fallbackLabelledLines + 1 }
    | some matched =>
        let written := labels.write line matched.dialogue.speaker.toList (lineEnding sourceLine)
        return { written with labelledLines := labels.labelledLines + 1 }

variable [CharacterData] [Fuzz]

/-- `annotate_subtitle_file` between what it reads and what it writes: the text of the subtitle and
the dialogue of its episode come in, the text of the output and the report go out. -/
def annotateSubtitleFile (sourcePdf sourceSubtitle outputSubtitle : String)
    (episodeKey : EpisodeKey) (scriptDialogue : Option (List ScriptDialogue))
    (subtitleText : List Char) (minimumScore : ℚ) : Except Raised (List Char × AlignmentReport) := do
  let scriptDialogue := scriptDialogue.getD []
  reject (scriptDialogue.isEmpty) (SCRIPT_DIALOGUE_NOT_FOUND episodeKey)
  let sourceLines := keptLinesFrom [] subtitleText
  let subtitleLines ← extractDialogueLines sourceLines
  let matchInputs := subtitleLines.map fun line => { line with text := line.matchText }
  let found ← alignDialogueLines scoreMatch matchInputs scriptDialogue minimumScore none
    DEFAULT_SKIP_PENALTY
  let fallback ← alignDialogueLines scoreMatch matchInputs scriptDialogue FALLBACK_MINIMUM_SCORE
    (some FALLBACK_MATCH_FLOOR) FALLBACK_SKIP_PENALTY
  let labels ← subtitleLines.foldlM
    (labelLine sourceSubtitle minimumScore sourceLines found fallback) { outputLines := sourceLines }
  return ((removeNoiseCues labels.outputLines).flatten, ⟨sourcePdf, sourceSubtitle, outputSubtitle,
    episodeKey, labels.labelledLines, labels.fallbackLabelledLines, labels.unresolvedLines⟩)

end Annotate

section Extracted

variable [CharacterData]

/-- The lines that were found before a line of the source stand in front of it, each at another. -/
structure Numbered (lines : List SubtitleDialogueLine) (next : Nat) : Prop where
  distinct : (lines.map fun line => line.lineNumber).Nodup
  before : ∀ line ∈ lines, 1 ≤ line.lineNumber ∧ line.lineNumber < next

theorem extractLine_numbered {walk after : List SubtitleDialogueLine × Nat} {line : List Char}
    {next : Nat} (numbered : Numbered walk.1 next) (some_line : 1 ≤ next)
    (extracted : extractLine walk (line, next) = .ok after) : Numbered after.1 (next + 1) := by
  have kept : Numbered walk.1 (next + 1) :=
    ⟨numbered.distinct, fun line member =>
      ⟨(numbered.before line member).1, Nat.lt_succ_of_lt (numbered.before line member).2⟩⟩
  unfold extractLine at extracted
  dsimp only at extracted
  split at extracted
  · obtain ⟨cueNumber, -, extracted⟩ := (bind_eq_ok _).mp extracted
    cases extracted
    exact kept
  · split at extracted
    · cases extracted
      exact kept
    · cases extracted
      constructor
      · rw [List.map_append, List.nodup_append]
        refine ⟨numbered.distinct, List.nodup_singleton _, ?_⟩
        intro first member second last
        obtain ⟨line, inside, rfl⟩ := List.mem_map.mp member
        rw [List.map_singleton, List.mem_singleton] at last
        rw [last]
        exact Nat.ne_of_lt (numbered.before line inside).2
      · rw [List.forall_mem_append, List.forall_mem_singleton]
        exact ⟨kept.before, some_line, Nat.lt_succ_self next⟩

theorem foldlM_extractLine {lines : List (List Char)} {walk after : List SubtitleDialogueLine × Nat}
    {next : Nat} (numbered : Numbered walk.1 next) (some_line : 1 ≤ next)
    (extracted : (lines.zipIdx next).foldlM extractLine walk = .ok after) :
    Numbered after.1 (next + lines.length) := by
  induction lines generalizing walk next with
  | nil =>
      cases extracted
      exact numbered
  | cons line lines ih =>
      rw [List.zipIdx_cons, List.foldlM_cons] at extracted
      obtain ⟨middle, here, extracted⟩ := (bind_eq_ok _).mp extracted
      have later := ih (extractLine_numbered numbered some_line here) (Nat.le_succ_of_le some_line)
        extracted
      rwa [Nat.add_assoc, Nat.add_comm 1] at later

theorem extractDialogueLines_numbered {sourceLines : List (List Char)}
    {lines : List SubtitleDialogueLine} (extracted : extractDialogueLines sourceLines = .ok lines) :
    Numbered lines (1 + sourceLines.length) := by
  unfold extractDialogueLines at extracted
  cases walked : (sourceLines.zipIdx 1).foldlM extractLine ([], 0) with
  | error e =>
      rw [walked] at extracted
      cases extracted
  | ok walk =>
      rw [walked] at extracted
      cases extracted
      have start : Numbered (([], 0) : List SubtitleDialogueLine × Nat).1 1 :=
        ⟨List.nodup_nil, fun _ member => absurd member List.not_mem_nil⟩
      exact foldlM_extractLine start (Nat.le_refl 1) walked

theorem foldlM_extractLine_error {numbered : List (List Char × Nat)}
    {walk : List SubtitleDialogueLine × Nat} {error : Raised}
    (failed : numbered.foldlM extractLine walk = .error error) : error.kind = .valueError := by
  induction numbered generalizing walk with
  | nil => cases failed
  | cons line numbered ih =>
      rw [List.foldlM_cons] at failed
      cases here : extractLine walk line with
      | ok middle =>
          rw [here] at failed
          exact ih failed
      | error e =>
          rw [here] at failed
          cases failed
          unfold extractLine at here
          dsimp only at here
          split at here
          · cases read : Text.readNat (Text.stripChars (withoutEnding line.1)) with
            | none =>
                rw [read] at here
                cases here
                rfl
            | some n =>
                rw [read] at here
                cases here
          · split at here <;> cases here

end Extracted

section Fallback

variable {score : List Char → List Char → ℚ} {subtitleLines : List SubtitleDialogueLine}
  {scriptDialogue : List ScriptDialogue}

/-- The strict pass and the fallback pass of the alignment both succeed. -/
theorem alignDialogueLines_total (score : List Char → List Char → ℚ)
    (scriptDialogue : List ScriptDialogue) (minimumScore : ℚ) (matchFloor : Option ℚ)
    (skipPenalty : ℚ) (distinct : (subtitleLines.map fun line => line.lineNumber).Nodup) :
    ∃ matched, alignDialogueLines score subtitleLines scriptDialogue minimumScore matchFloor
      skipPenalty = .ok matched := by
  obtain ⟨cells, trace, -⟩ := (tableOf_filled score subtitleLines scriptDialogue
    (floorOf minimumScore matchFloor) skipPenalty).traced (Nat.le_refl _) (Nat.le_refl _)
  obtain ⟨matched, aligned, -⟩ :=
    alignDialogueLines_traced score scriptDialogue minimumScore matchFloor skipPenalty distinct trace
  exact ⟨matched, aligned⟩

/-- With the floor and the price of the fallback every line has a match. -/
theorem fallback_labels (in_range : InRange score) (some_dialogue : scriptDialogue ≠ [])
    (minimumScore : ℚ) (distinct : (subtitleLines.map fun line => line.lineNumber).Nodup)
    {matched : Dict Nat AlignmentMatch}
    (aligned : alignDialogueLines score subtitleLines scriptDialogue minimumScore
      (some FALLBACK_MATCH_FLOOR) FALLBACK_SKIP_PENALTY = .ok matched) :
    ∀ line ∈ subtitleLines, ∃ found, matched.get? line.lineNumber = some found := by
  have filled := tableOf_filled score subtitleLines scriptDialogue
    (floorOf minimumScore (some FALLBACK_MATCH_FLOOR)) FALLBACK_SKIP_PENALTY
  obtain ⟨cells, trace, -⟩ := filled.traced (Nat.le_refl _) (Nat.le_refl _)
  have some_column : 0 < scriptDialogue.length := List.length_pos_iff.mpr some_dialogue
  have enough : ∀ row < subtitleLines.length, ∀ column < scriptDialogue.length,
      FALLBACK_MATCH_FLOOR ≤ (scoringOf score subtitleLines scriptDialogue
        (floorOf minimumScore (some FALLBACK_MATCH_FLOOR)) FALLBACK_SKIP_PENALTY).score row column ∧
      0 ≤ (scoringOf score subtitleLines scriptDialogue
        (floorOf minimumScore (some FALLBACK_MATCH_FLOOR)) FALLBACK_SKIP_PENALTY).score row column := by
    intro row in_rows column in_columns
    simp only [scoringOf, List.getElem?_eq_getElem in_rows, List.getElem?_eq_getElem in_columns,
      FALLBACK_MATCH_FLOOR]
    exact ⟨(in_range _ _).1, (in_range _ _).1⟩
  have rows := filled.trace_rows enough (by norm_num [scoringOf, FALLBACK_SKIP_PENALTY]) trace
    (Nat.le_refl _) (Nat.le_refl _) (Or.inr some_column)
  obtain ⟨collected, again, items⟩ := alignDialogueLines_traced score scriptDialogue minimumScore
    (some FALLBACK_MATCH_FLOOR) FALLBACK_SKIP_PENALTY distinct trace
  rw [aligned] at again
  cases again
  intro line member
  obtain ⟨row, in_rows, rfl⟩ := List.getElem_of_mem member
  have matched_row : row ∈ cells.map Prod.fst := by
    rw [rows]
    exact List.mem_range.mpr in_rows
  obtain ⟨cell, inside, rfl⟩ := List.mem_map.mp matched_row
  have collected : itemAt score subtitleLines scriptDialogue cell ∈ matched.entries.map some := by
    rw [items]
    exact List.mem_map_of_mem (List.mem_reverse.mpr inside)
  obtain ⟨item, member, found⟩ := List.mem_map.mp collected
  obtain ⟨same_line, at_line, found⟩ := Option.bind_eq_some_iff.mp found.symm
  obtain ⟨dialogue, at_dialogue, found⟩ := Option.bind_eq_some_iff.mp found
  rw [List.getElem?_eq_getElem in_rows] at at_line
  cases at_line
  cases found
  exact ⟨_, (Dict.mem_entries_iff _ _ _).mp member⟩

theorem labelLine_total (sourceSubtitle : String) (minimumScore : ℚ)
    {sourceLines : List (List Char)} (found : Dict Nat AlignmentMatch)
    {fallback : Dict Nat AlignmentMatch} {line : SubtitleDialogueLine} (labels : Labels)
    (inside : line.lineNumber - 1 < sourceLines.length)
    (labelled : ∃ matched, fallback.get? line.lineNumber = some matched) :
    ∃ after, labelLine sourceSubtitle minimumScore sourceLines found fallback labels line =
      .ok after := by
  obtain ⟨matched, labelled⟩ := labelled
  rw [labelLine, List.getElem?_eq_getElem inside, labelled]
  simp only [orRaise, ok_bind]
  split
  · exact ⟨_, rfl⟩
  · split <;> exact ⟨_, rfl⟩

theorem foldlM_labelLine_total (sourceSubtitle : String) (minimumScore : ℚ)
    {sourceLines : List (List Char)} (found : Dict Nat AlignmentMatch)
    {fallback : Dict Nat AlignmentMatch} (labels : Labels)
    (inside : ∀ line ∈ subtitleLines, line.lineNumber - 1 < sourceLines.length)
    (labelled : ∀ line ∈ subtitleLines, ∃ matched, fallback.get? line.lineNumber = some matched) :
    ∃ after, subtitleLines.foldlM
      (labelLine sourceSubtitle minimumScore sourceLines found fallback) labels = .ok after := by
  induction subtitleLines generalizing labels with
  | nil => exact ⟨labels, rfl⟩
  | cons line lines ih =>
      obtain ⟨here, later⟩ := List.forall_mem_cons.mp inside
      obtain ⟨some_match, matches_⟩ := List.forall_mem_cons.mp labelled
      obtain ⟨middle, first⟩ := labelLine_total sourceSubtitle minimumScore found labels here some_match
      obtain ⟨after, rest⟩ := ih middle later matches_
      refine ⟨after, ?_⟩
      rw [List.foldlM_cons, first]
      exact rest

variable [CharacterData] [Fuzz]

/-- The only errors of the annotation are those of a script without the episode and of a cue number
that cannot be read. -/
theorem annotateSubtitleFile_error (in_range : InRange scoreMatch)
    {sourcePdf sourceSubtitle outputSubtitle : String} {episodeKey : EpisodeKey}
    {scriptDialogue : Option (List ScriptDialogue)} {subtitleText : List Char} {minimumScore : ℚ}
    {error : Raised} (failed : annotateSubtitleFile sourcePdf sourceSubtitle outputSubtitle episodeKey
      scriptDialogue subtitleText minimumScore = .error error) : error.kind = .valueError := by
  rw [annotateSubtitleFile] at failed
  by_cases empty : (scriptDialogue.getD []).isEmpty
  · rw [reject, if_pos empty] at failed
    cases failed
    rfl
  rw [reject_of_not empty, ok_bind] at failed
  dsimp only at failed
  cases extracted : extractDialogueLines (keptLinesFrom [] subtitleText) with
  | error e =>
      rw [extracted] at failed
      cases failed
      unfold extractDialogueLines at extracted
      cases walked : ((keptLinesFrom [] subtitleText).zipIdx 1).foldlM extractLine ([], 0) with
      | ok walk =>
          rw [walked] at extracted
          cases extracted
      | error e =>
          rw [walked] at extracted
          cases extracted
          exact foldlM_extractLine_error walked
  | ok lines =>
      have numbered := extractDialogueLines_numbered extracted
      have some_dialogue : scriptDialogue.getD [] ≠ [] := fun none_left =>
        empty (List.isEmpty_iff.mpr none_left)
      have numbers : ((lines.map fun line => { line with text := line.matchText }).map
          fun line => line.lineNumber) = lines.map fun line => line.lineNumber := by
        rw [List.map_map]
        rfl
      have distinct := numbers ▸ numbered.distinct
      obtain ⟨found, strict⟩ := alignDialogueLines_total scoreMatch (scriptDialogue.getD [])
        minimumScore none DEFAULT_SKIP_PENALTY distinct
      obtain ⟨fallback, ordered⟩ := alignDialogueLines_total scoreMatch (scriptDialogue.getD [])
        FALLBACK_MINIMUM_SCORE (some FALLBACK_MATCH_FLOOR) FALLBACK_SKIP_PENALTY distinct
      have every := fallback_labels in_range some_dialogue _ distinct ordered
      have labelled : ∀ line ∈ lines, ∃ matched, fallback.get? line.lineNumber = some matched := by
        rw [List.forall_mem_map] at every
        exact every
      have inside : ∀ line ∈ lines,
          line.lineNumber - 1 < (keptLinesFrom [] subtitleText).length := by
        intro line member
        have := numbered.before line member
        omega
      obtain ⟨labels, written⟩ := foldlM_labelLine_total sourceSubtitle minimumScore found
        { outputLines := keptLinesFrom [] subtitleText } inside labelled
      rw [extracted, ok_bind, strict, ok_bind, ordered, ok_bind, written] at failed
      cases failed

/-- The ordered fallback has a match for every line, and neither of its errors is ever raised. -/
theorem ordered_fallback_labels (ratio : InRange Fuzz.ratio) (partial_ : InRange Fuzz.partialRatio) :
    (∀ score, InRange score → ∀ (subtitleLines : List SubtitleDialogueLine)
      (scriptDialogue : List ScriptDialogue) (minimumScore : ℚ),
      (subtitleLines.map fun line => line.lineNumber).Nodup → scriptDialogue ≠ [] →
      ∃ matched, alignDialogueLines score subtitleLines scriptDialogue minimumScore
          (some FALLBACK_MATCH_FLOOR) FALLBACK_SKIP_PENALTY = .ok matched ∧
        ∀ line ∈ subtitleLines, ∃ found, matched.get? line.lineNumber = some found) ∧
    ∀ (sourcePdf sourceSubtitle outputSubtitle : String) (episodeKey : EpisodeKey)
      (scriptDialogue : Option (List ScriptDialogue)) (subtitleText : List Char)
      (minimumScore : ℚ) (error : Raised),
      annotateSubtitleFile sourcePdf sourceSubtitle outputSubtitle episodeKey scriptDialogue
        subtitleText minimumScore = .error error →
      error ≠ ⟨.runtimeError, SUBTITLE_ALIGNMENT_BACKTRACE_FAILED⟩ ∧
        ∀ lineNumber, error ≠
          ⟨.runtimeError, ORDERED_SCRIPT_FALLBACK_NOT_FOUND sourceSubtitle lineNumber⟩ := by
  constructor
  · intro score in_range lines dialogue minimumScore distinct some_dialogue
    obtain ⟨matched, aligned⟩ := alignDialogueLines_total score dialogue minimumScore
      (some FALLBACK_MATCH_FLOOR) FALLBACK_SKIP_PENALTY distinct
    exact ⟨matched, aligned, fallback_labels in_range some_dialogue minimumScore distinct aligned⟩
  · intro sourcePdf sourceSubtitle outputSubtitle episodeKey dialogue text minimumScore error failed
    have kind := annotateSubtitleFile_error (scoreMatch_inRange ratio partial_) failed
    constructor
    · rintro rfl
      cases kind
    · rintro lineNumber rfl
      cases kind

end Fallback

namespace Samples

/-- The characters of ASCII. -/
@[reducible] def asciiCharacters : CharacterData :=
  ⟨id, fun _ => false, fun c => c.isAlphanum || c = '_'⟩

/-- Ratios that know equal texts only. -/
@[reducible] def equalTexts : Fuzz := ⟨sameText, sameText⟩

attribute [local instance] asciiCharacters equalTexts

theorem sameText_inRange : InRange sameText := by
  intro a b
  unfold sameText
  split <;> norm_num

def subtitle : List Char :=
  ("1\n00:00:01,000 --> 00:00:02,000\nWhere is she?\n\n" ++
    "2\n00:00:03,000 --> 00:00:04,000\nOn the roof.\n").toList

theorem ordered_fallback_labels_lines :
    (∃ matched, alignDialogueLines scoreMatch lines dialogues FALLBACK_MINIMUM_SCORE
        (some FALLBACK_MATCH_FLOOR) FALLBACK_SKIP_PENALTY = .ok matched ∧
      ∀ line ∈ lines, ∃ found, matched.get? line.lineNumber = some found) ∧
    ∀ error, annotateSubtitleFile "show.pdf" "Show 1x01.srt" "out.srt" ⟨1, 1⟩ (some dialogues)
        subtitle DEFAULT_MINIMUM_SCORE = .error error →
      error ≠ ⟨.runtimeError, SUBTITLE_ALIGNMENT_BACKTRACE_FAILED⟩ ∧
        ∀ lineNumber, error ≠
          ⟨.runtimeError, ORDERED_SCRIPT_FALLBACK_NOT_FOUND "Show 1x01.srt" lineNumber⟩ := by
  obtain ⟨labels, annotates⟩ := ordered_fallback_labels sameText_inRange sameText_inRange
  have in_range := scoreMatch_inRange sameText_inRange sameText_inRange
  exact ⟨labels _ in_range lines dialogues _ (by decide) (List.cons_ne_nil _ _),
    annotates _ _ _ _ _ _ _⟩

end Samples

end Cinegraph.SubtitleAlignment
