import Cinegraph.SpeakerReview.ReviewedOutput
import Cinegraph.TranscriptSrt.Service

/-!
When the transcript parser accepts what a review promotes: the promoted text holds the
cues of the decided subtitle that keep a line, and the parser asks more of their headers
than the renderer does.
-/

namespace Cinegraph.SpeakerReview

open Library

section Parsing

/-- A cue header that the transcript parser accepts. -/
def ValidHeader (block : List (List Char)) : Prop :=
  ∃ number start finish, Text.readInt (block.headD []) = some number ∧
    block[1]?.bind SrtPatterns.TIMECODE = some (start, finish) ∧
    1 ≤ number ∧ start.InRange ∧ finish.InRange ∧ start.ms < finish.ms

/-- The cue that a block stands for. -/
def cueOf (block : List (List Char)) : ParsedSrtCue :=
  let stamps := (block[1]?.bind SrtPatterns.TIMECODE).getD (⟨0, 0, 0, 0⟩, ⟨0, 0, 0, 0⟩)
  ⟨(Text.readInt (block.headD [])).getD 0, stamps.1.ms, stamps.2.ms, block.drop 2⟩

theorem parseCueNumber_eq_ok {value : List Char} {number : Int} :
    parseCueNumber value = .ok number ↔ Text.readInt value = some number ∧ 1 ≤ number := by
  rw [parseCueNumber, bind_eq_ok]
  simp only [orRaise_eq_ok, reject_bind_eq_ok, pure, Except.pure, Except.ok.injEq]
  constructor
  · rintro ⟨n, read, positive, rfl⟩
    exact ⟨read, by omega⟩
  · rintro ⟨read, positive⟩
    exact ⟨number, read, by omega, rfl⟩

/-- On a block with dialogue the parser depends on the header alone. -/
theorem parseCue_eq_cueOf {block : List (List Char)} (dialogue : block.drop 2 ≠ [])
    (filled : ∀ line ∈ block.drop 2, isFilled line = true) :
    parseCue block = .ok (cueOf block) ↔ ValidHeader block := by
  have all : (block.drop 2).filter isFilled = block.drop 2 := List.filter_eq_self.mpr filled
  rw [parseCue]
  simp only [bind_eq_ok, orRaise_eq_ok, parseCueNumber_eq_ok, timestampMs_eq_ok, all, dialogue,
    if_false]
  constructor
  · rintro ⟨number, ⟨read, positive⟩, timecode, second, ⟨start, finish⟩, stamps, startMs,
      ⟨startIn, rfl⟩, endMs, ⟨finishIn, rfl⟩, last⟩
    split at last
    · simp [throw, throwThe, MonadExceptOf.throw, bind, Except.bind] at last
    · rename_i order
      dsimp only at order
      exact ⟨number, start, finish, read, by rw [second]; exact stamps, positive, startIn, finishIn,
        by omega⟩
  · rintro ⟨number, start, finish, read, stamps, positive, startIn, finishIn, order⟩
    obtain ⟨timecode, second, stamped⟩ := Option.bind_eq_some_iff.mp stamps
    refine ⟨number, ⟨read, positive⟩, timecode, second, (start, finish), stamped, start.ms,
      ⟨startIn, rfl⟩, finish.ms, ⟨finishIn, rfl⟩, ?_⟩
    rw [if_neg (by omega), cueOf, read, stamps]
    rfl

/-- `parse_srt` gives the cues of its blocks when each of their headers is valid. -/
theorem parseSrt_eq_cues {text : List Char} (dialogue : ∀ block ∈ cueBlocks text,
      block.drop 2 ≠ [] ∧ ∀ line ∈ block.drop 2, isFilled line = true) :
    parseSrt text = .ok ((cueBlocks text).map cueOf) ↔ ∀ block ∈ cueBlocks text, ValidHeader block := by
  rw [parseSrt]
  generalize cueBlocks text = blocks at dialogue ⊢
  induction blocks with
  | nil => exact iff_of_true rfl (fun _ member => absurd member List.not_mem_nil)
  | cons block blocks ih =>
      have rest := ih fun b member => dialogue b (List.mem_cons_of_mem _ member)
      obtain ⟨more, filled⟩ := dialogue block List.mem_cons_self
      rw [List.forall_mem_cons, ← parseCue_eq_cueOf more filled, ← rest, List.mapM_cons, bind_eq_ok]
      constructor
      · rintro ⟨cue, first, later⟩
        rw [bind_eq_ok] at later
        obtain ⟨cues, others, same⟩ := later
        obtain ⟨rfl, rfl⟩ := List.cons.inj (Except.ok.inj same)
        exact ⟨first, others⟩
      · rintro ⟨first, others⟩
        exact ⟨cueOf block, first, by rw [others]; rfl⟩

end Parsing

section Decided

variable [Host]

/-- A line with the decided speaker put in: the last candidate of a line decides. -/
def decidedLine (candidates : List SpeakerReviewCandidate)
    (decisions : Dict String SpeakerReviewDecision) (length index : Nat) (line : List Char) :
    List Char :=
  match candidates.reverse.find? fun c => positionOf (c.lineNumber - 1) length = some index with
  | some candidate =>
      match decidedSpeaker decisions candidate with
      | some speaker => labelledLine speaker.toList candidate.dialogueText.toList
      | none => line
  | none => line

def decidedLines (sourceText : List Char) (candidates : List SpeakerReviewCandidate)
    (decisions : Dict String SpeakerReviewDecision) : List (List Char) :=
  let lines := splitLines sourceText
  lines.mapIdx (decidedLine candidates decisions lines.length)

/-- The cues of a subtitle with the decided speakers put in. -/
def decidedCues (sourceText : List Char) (candidates : List SpeakerReviewCandidate)
    (decisions : Dict String SpeakerReviewDecision) : List (List (List Char)) :=
  cueBlocks (joinLines (decidedLines sourceText candidates decisions))

theorem relabel_eq_ok {sourceHash : String} {decisions : Dict String SpeakerReviewDecision}
    {lines next : List (List Char)} {candidate : SpeakerReviewCandidate}
    (step : relabel sourceHash decisions lines candidate = .ok next) :
    ∃ speaker position, decidedSpeaker decisions candidate = some speaker ∧
      positionOf (candidate.lineNumber - 1) lines.length = some position ∧
      next = lines.set position (labelledLine speaker.toList candidate.dialogueText.toList) := by
  simp only [relabel, bind_eq_ok, reject_eq_ok, orRaise_eq_ok] at step
  obtain ⟨_, -, speaker, decided, position, located, ⟨name, text⟩, -, _, same, last⟩ := step
  rw [not_not] at same
  cases last
  exact ⟨speaker, position, decided, located, by rw [← same]⟩

/-- The loop over the candidates leaves the decided lines. -/
theorem foldlM_relabel {sourceHash : String} {decisions : Dict String SpeakerReviewDecision}
    {lines last : List (List Char)} {candidates : List SpeakerReviewCandidate}
    (run : candidates.foldlM (relabel sourceHash decisions) lines = .ok last) :
    last = lines.mapIdx (decidedLine candidates decisions lines.length) := by
  induction candidates using List.reverseRecOn generalizing last with
  | nil =>
      cases run
      apply List.ext_getElem <;> simp [decidedLine]
  | append_singleton candidates candidate ih =>
      rw [List.foldlM_append, bind_eq_ok] at run
      obtain ⟨between, before, run⟩ := run
      have step : relabel sourceHash decisions between candidate = .ok last := by
        simpa [List.foldlM_cons] using run
      have shape := ih before
      have length : between.length = lines.length := by rw [shape, List.length_mapIdx]
      obtain ⟨speaker, position, decided, located, rfl⟩ := relabel_eq_ok step
      rw [length] at located
      apply List.ext_getElem
      · rw [List.length_set, length, List.length_mapIdx]
      · intro index inside _
        rw [List.getElem_set, List.getElem_mapIdx, decidedLine, List.reverse_append]
        simp only [List.reverse_singleton, List.singleton_append, List.find?_cons, located,
          Option.some.injEq]
        split
        · rename_i here
          simp only [here, decide_true, decided]
        · rename_i elsewhere
          rw [decide_eq_false elsewhere]
          simp only [shape, List.getElem_mapIdx, decidedLine]

end Decided

section Rendered

variable [CharacterData] (configuration : SpeakerReviewConfiguration)

/-- The lines of a cue that the promoted subtitle keeps. -/
def keptLines (block : List (List Char)) : List (List Char) :=
  (block.drop 2).filter fun line => isFilled line && !isRemoved configuration line

/-- The block of a cue in the promoted subtitle, where one is left. -/
def keptBlock (block : List (List Char)) : Option (List (List Char)) :=
  if keptLines configuration block = [] then none
  else some (block.take 2 ++ keptLines configuration block)

def isVerified (line : List Char) : Prop :=
  (SrtPatterns.VERIFIED_SPEAKER_LABEL_PATTERN line).isSome = true

variable {configuration}

theorem foldlM_retainLine {cueNumber : Int} {lines : List (List Char)}
    {before after : List (List Char) × Nat}
    (run : lines.foldlM (retainLine configuration cueNumber) before = .ok after) :
    after.1 = before.1 ++ (lines.filter fun line => isFilled line && !isRemoved configuration line) ∧
      ∀ line ∈ lines, isFilled line = true → isRemoved configuration line = false →
        isVerified line := by
  induction lines generalizing before with
  | nil =>
      cases run
      exact ⟨by simp, fun _ member => absurd member List.not_mem_nil⟩
  | cons line lines ih =>
      rw [List.foldlM_cons, bind_eq_ok] at run
      obtain ⟨between, step, run⟩ := run
      obtain ⟨shape, verified⟩ := ih run
      rw [List.filter_cons, List.forall_mem_cons, shape]
      unfold retainLine at step
      split at step
      · rename_i blank
        cases step
        exact ⟨by simp [blank], fun filled => absurd filled (by simp [blank]), verified⟩
      · split at step
        · rename_i removed
          cases step
          exact ⟨by simp [removed], fun _ kept => absurd removed (by simp [kept]), verified⟩
        · split at step
          · rename_i filled kept label
            cases step
            rw [Bool.not_eq_false] at filled
            rw [Bool.not_eq_true] at kept
            exact ⟨by simp [filled, kept], fun _ _ => label, verified⟩
          · cases step

/-- What the renderer has checked of a cue. -/
structure Renderable (configuration : SpeakerReviewConfiguration) (block : List (List Char)) : Prop where
  header : 2 ≤ block.length
  digits : Text.isDigits (block.headD []) = true
  timecode : (block[1]?.bind SrtPatterns.TIMECODE).isSome = true
  verified : ∀ line ∈ keptLines configuration block, isVerified line

/-- One turn of the loop over the cues: a block that keeps a line goes to the output. -/
theorem renderCue_eq_ok {rendered next : Rendered} {block : List (List Char)}
    (step : renderCue configuration rendered block = .ok next) :
    next.outputBlocks = rendered.outputBlocks ++ (keptBlock configuration block).toList ∧
      Renderable configuration block := by
  simp only [renderCue, bind_eq_ok, orRaise_eq_ok, reject_eq_ok] at step
  obtain ⟨timecode, second, _, header, cueNumber, -, ⟨retained, removed⟩, loop, step⟩ := step
  rw [not_or, Bool.not_eq_false] at header
  obtain ⟨shape, verified⟩ := foldlM_retainLine loop
  rw [List.nil_append] at shape
  have kept : retained = keptLines configuration block := shape
  have headers : block.take 2 = [block.headD [], timecode] := by
    rcases block with _ | ⟨number, _ | ⟨line, rest⟩⟩
    · cases second
    · cases second
    · cases second
      rfl
  have renderable : Renderable configuration block := by
    constructor
    · obtain ⟨long, -⟩ := List.getElem?_eq_some_iff.mp second
      exact long
    · exact header.1
    · rw [second, Option.bind_some]
      exact Option.isSome_iff_ne_none.mpr header.2
    · intro line member
      obtain ⟨inside, good⟩ := List.mem_filter.mp member
      rw [Bool.and_eq_true, Bool.not_eq_true'] at good
      exact verified line inside good.1 good.2
  refine ⟨?_, renderable⟩
  dsimp only at step
  rw [kept] at step
  rw [keptBlock]
  split at step
  · rename_i none_left
    cases step
    rw [if_pos none_left, Option.toList_none, List.append_nil]
  · rename_i some_left
    cases step
    rw [if_neg some_left, headers]
    rfl

theorem foldlM_renderCue {blocks : List (List (List Char))} {before after : Rendered}
    (run : blocks.foldlM (renderCue configuration) before = .ok after) :
    after.outputBlocks = before.outputBlocks ++ blocks.filterMap (keptBlock configuration) ∧
      ∀ block ∈ blocks, Renderable configuration block := by
  induction blocks generalizing before with
  | nil =>
      cases run
      exact ⟨by simp, fun _ member => absurd member List.not_mem_nil⟩
  | cons block blocks ih =>
      rw [List.foldlM_cons, bind_eq_ok] at run
      obtain ⟨between, step, run⟩ := run
      obtain ⟨first, here⟩ := renderCue_eq_ok step
      obtain ⟨rest, later⟩ := ih run
      rw [List.forall_mem_cons]
      refine ⟨?_, here, later⟩
      rw [rest, first, List.append_assoc, List.filterMap_cons]
      cases keptBlock configuration block <;> rfl

/-- The lines of a kept block, which the output text gives back. -/
theorem keptBlock_lines {text : List Char} {block kept : List (List Char)}
    (inside : block ∈ cueBlocks text) (renderable : Renderable configuration block)
    (left : keptBlock configuration block = some kept) :
    (kept ≠ [] ∧ ∀ line ∈ kept, isFilled line = true ∧ Text.stripChars line = line ∧ Unbreaking line) ∧
      kept.drop 2 = keptLines configuration block ∧ keptLines configuration block ≠ [] ∧
      (ValidHeader kept ↔ ValidHeader block) := by
  rw [keptBlock] at left
  split at left
  · cases left
  · rename_i some_left
    cases left
    obtain ⟨number, timecode, rest, rfl⟩ : ∃ number timecode rest,
        block = number :: timecode :: rest := by
      have long := renderable.header
      rcases block with _ | ⟨number, _ | ⟨timecode, rest⟩⟩
      · simp at long
      · simp at long
      · exact ⟨number, timecode, rest, rfl⟩
    have written : number ≠ [] ∧ timecode ≠ [] := by
      constructor
      · rintro rfl
        exact absurd renderable.digits (by simp [Text.isDigits])
      · rintro rfl
        cases renderable.timecode
    refine ⟨⟨by simp, fun line member => ?_⟩, rfl, some_left, Iff.rfl⟩
    have own : line ∈ number :: timecode :: rest := by
      rcases List.mem_append.mp member with head | body
      · exact List.mem_of_mem_take head
      · exact List.mem_of_mem_drop (List.mem_filter.mp body).1
    obtain ⟨stripped, clean⟩ := cueBlocks_line inside own
    refine ⟨isFilled_of_stripped stripped ?_, stripped, clean⟩
    rcases List.mem_append.mp member with head | body
    · rcases List.mem_cons.mp head with rfl | head
      · exact written.1
      · rw [List.mem_singleton.mp head]
        exact written.2
    · rintro rfl
      have filled := (List.mem_filter.mp body).2
      cases filled

/-- The promoted text holds the kept blocks and nothing else. -/
theorem cueBlocks_promotedText {text : List Char}
    (renderable : ∀ block ∈ cueBlocks text, Renderable configuration block) :
    cueBlocks (promotedText ((cueBlocks text).filterMap (keptBlock configuration))) =
      (cueBlocks text).filterMap (keptBlock configuration) := by
  rw [promotedText]
  apply cueBlocks_intercalate (by decide)
  intro kept member
  obtain ⟨block, inside, left⟩ := List.mem_filterMap.mp member
  exact (keptBlock_lines inside (renderable block inside) left).1

end Rendered

section Promotion

variable [Host] [CharacterData] {configuration : SpeakerReviewConfiguration}

/-- The cues of the decided subtitle that keep a line, as the promoted text should read. -/
def retainedCues (configuration : SpeakerReviewConfiguration) (sourceText : List Char)
    (candidates : List SpeakerReviewCandidate) (decisions : Dict String SpeakerReviewDecision) :
    List ParsedSrtCue :=
  ((decidedCues sourceText candidates decisions).filterMap (keptBlock configuration)).map cueOf

theorem renderReviewedSubtitle_eq_ok {sourceText text : List Char}
    {candidates : List SpeakerReviewCandidate} {decisions : Dict String SpeakerReviewDecision}
    {removed : Nat} {cues : List Int}
    (run : renderReviewedSubtitle configuration sourceText candidates decisions =
      .ok (text, removed, cues)) :
    (∀ block ∈ decidedCues sourceText candidates decisions, Renderable configuration block) ∧
      text = promotedText
        ((decidedCues sourceText candidates decisions).filterMap (keptBlock configuration)) := by
  simp only [renderReviewedSubtitle, bind_eq_ok] at run
  obtain ⟨lines, relabelled, rendered, loop, last⟩ := run
  have shape : lines = decidedLines sourceText candidates decisions := foldlM_relabel relabelled
  rw [shape] at loop
  obtain ⟨blocks, renderable⟩ := foldlM_renderCue loop
  cases last
  exact ⟨renderable, by rw [blocks]; rfl⟩

/-- What a review promotes is parsed back and ingested exactly when every cue that keeps a line
has a positive number, timestamps in range and an end after its start. -/
theorem promoted_ingested_iff {sourceText text : List Char}
    {candidates : List SpeakerReviewCandidate} {decisions : Dict String SpeakerReviewDecision}
    {removed : Nat} {cues : List Int}
    (run : renderReviewedSubtitle configuration sourceText candidates decisions =
      .ok (text, removed, cues))
    (sourceVersionId : UUID) (episode : EpisodeRef) (language : Language)
    (rightsStatus : RightsStatus) (sourcePath : String) :
    (parseSrt text = .ok (retainedCues configuration sourceText candidates decisions) ∧
      ∃ result, ingestFinalizedSrtText sourceVersionId episode language rightsStatus text
        sourcePath = .ok result) ↔
      ∀ block ∈ decidedCues sourceText candidates decisions,
        keptLines configuration block ≠ [] → ValidHeader block := by
  obtain ⟨renderable, rfl⟩ := renderReviewedSubtitle_eq_ok run
  have blocks : cueBlocks (promotedText ((decidedCues sourceText candidates decisions).filterMap
      (keptBlock configuration))) = (decidedCues sourceText candidates decisions).filterMap
        (keptBlock configuration) := cueBlocks_promotedText renderable
  rw [retainedCues]
  have source : ∀ kept ∈ (decidedCues sourceText candidates decisions).filterMap
      (keptBlock configuration), ∃ block ∈ decidedCues sourceText candidates decisions,
        keptBlock configuration block = some kept := fun kept member => List.mem_filterMap.mp member
  generalize decided : (decidedCues sourceText candidates decisions).filterMap
    (keptBlock configuration) = keptBlocks at blocks source ⊢
  have dialogue : ∀ kept ∈ cueBlocks (promotedText keptBlocks),
      kept.drop 2 ≠ [] ∧ ∀ line ∈ kept.drop 2, isFilled line = true := by
    rw [blocks]
    intro kept member
    obtain ⟨block, inside, left⟩ := source kept member
    obtain ⟨⟨-, lines⟩, same, some_left, -⟩ := keptBlock_lines inside (renderable block inside) left
    rw [same]
    exact ⟨some_left, fun line own => (lines line (List.mem_of_mem_drop (same ▸ own))).1⟩
  have parsed := parseSrt_eq_cues dialogue
  rw [blocks] at parsed
  have headers : (∀ kept ∈ keptBlocks, ValidHeader kept) ↔
      ∀ block ∈ decidedCues sourceText candidates decisions,
        keptLines configuration block ≠ [] → ValidHeader block := by
    constructor
    · intro all block inside some_left
      have left : keptBlock configuration block =
          some (block.take 2 ++ keptLines configuration block) := if_neg some_left
      have member : block.take 2 ++ keptLines configuration block ∈ keptBlocks := by
        rw [← decided]
        exact List.mem_filterMap.mpr ⟨block, inside, left⟩
      exact (keptBlock_lines inside (renderable block inside) left).2.2.2.mp (all _ member)
    · intro all kept member
      obtain ⟨block, inside, left⟩ := source kept member
      obtain ⟨-, -, some_left, same⟩ := keptBlock_lines inside (renderable block inside) left
      exact same.mpr (all block inside some_left)
  rw [parsed, headers]
  constructor
  · exact And.left
  · intro valid
    refine ⟨valid, ingestFinalizedSrtText_total _ _ _ _ _ (parsed.mpr (headers.mpr valid)) ?_ ?_⟩
    · intro cue member
      obtain ⟨kept, inside, rfl⟩ := List.mem_map.mp member
      obtain ⟨number, start, finish, read, stamps, -, -, -, order⟩ := headers.mpr valid kept inside
      rw [cueOf, stamps]
      dsimp only [Option.getD_some]
      omega
    · intro cue member line own
      obtain ⟨kept, inside, rfl⟩ := List.mem_map.mp member
      obtain ⟨block, here, left⟩ := source kept inside
      have same := (keptBlock_lines here (renderable block here) left).2.1
      exact (renderable block here).verified line (same ▸ own)

end Promotion

namespace Sample

/-- Character data that knows the ASCII range only. -/
scoped instance sampleCharacters : CharacterData := ⟨id, fun _ => false, fun c => c.isAlphanum || c = '_'⟩

def sampleTimecode : List Char := "00:00:01,000 --> 00:00:02,000".toList

/-- A subtitle of one cue with an uncertain label. -/
def sampleSubtitle (number : String) : List Char :=
  number.toList ++ '\n' :: sampleTimecode ++ '\n' :: "ALICE?: Hello.\n".toList

/-- The candidate of its third line. -/
def subtitleCandidate (sourceText : List Char) : SpeakerReviewCandidate :=
  { sampleCandidate "S01E01-C0001-L00003" with sourceSha256 := sha256Hex sourceText }

def sampleDecisions : Dict String SpeakerReviewDecision :=
  Dict.empty.set "S01E01-C0001-L00003"
    ⟨"S01E01-C0001-L00003", .consensusAccepted, some "ALICE", "", [], none, none, none⟩

theorem relabel_sample {sourceText : List Char} (lines : List (List Char))
    (third : lines[2]? = some "ALICE?: Hello.".toList) :
    relabel (sha256Hex sourceText) sampleDecisions lines (subtitleCandidate sourceText) =
      .ok (lines.set 2 "ALICE: Hello.".toList) := by
  have located : positionOf ((subtitleCandidate sourceText).lineNumber - 1) lines.length = some 2 := by
    obtain ⟨long, -⟩ := List.getElem?_eq_some_iff.mp third
    have two : (subtitleCandidate sourceText).lineNumber - 1 = 2 := rfl
    rw [two, positionOf]
    simp only [show ¬((2 : Int) < 0) by decide, if_false]
    rw [if_pos (by omega)]
    rfl
  have decided : decidedSpeaker sampleDecisions (subtitleCandidate sourceText) = some "ALICE" := by
    rw [decidedSpeaker, show (subtitleCandidate sourceText).candidateId = "S01E01-C0001-L00003" from rfl]
    decide
  have line : lines.getD 2 [] = "ALICE?: Hello.".toList := by
    rw [List.getD_eq_getElem?_getD, third, Option.getD_some]
  have label : UNCERTAIN_SPEAKER_LABEL_PATTERN (Text.stripChars "ALICE?: Hello.".toList) =
      some ("ALICE".toList, "Hello.".toList) := by decide
  have same : ¬"Hello.".toList ≠ (subtitleCandidate sourceText).dialogueText.toList := not_not.mpr rfl
  have hashed : ¬(subtitleCandidate sourceText).sourceSha256 ≠ sha256Hex sourceText := not_not.mpr rfl
  rw [relabel, reject_of_not hashed, ok_bind, decided, located]
  simp only [orRaise, ok_bind, line, label, reject_of_not same]
  rfl

/-- The sample renders to one cue, whatever its number says. -/
theorem renderReviewedSubtitle_sample {number : String} {rendered : Rendered}
    (lines : splitLines (sampleSubtitle number) =
      [number.toList, sampleTimecode, "ALICE?: Hello.".toList])
    (cues : (cueBlocks (joinLines [number.toList, sampleTimecode, "ALICE: Hello.".toList])).foldlM
      (renderCue DEFAULT_SPEAKER_REVIEW_CONFIGURATION) {} = .ok rendered) :
    renderReviewedSubtitle DEFAULT_SPEAKER_REVIEW_CONFIGURATION (sampleSubtitle number)
        [subtitleCandidate (sampleSubtitle number)] sampleDecisions =
      .ok (promotedText rendered.outputBlocks, rendered.removedLineCount,
        rendered.removedCueNumbers) := by
  have relabelled : [subtitleCandidate (sampleSubtitle number)].foldlM
      (relabel (sha256Hex (sampleSubtitle number)) sampleDecisions)
      (splitLines (sampleSubtitle number)) =
        .ok [number.toList, sampleTimecode, "ALICE: Hello.".toList] := by
    rw [lines, List.foldlM_cons, relabel_sample _ rfl]
    rfl
  rw [renderReviewedSubtitle, relabelled, ok_bind, cues]
  rfl

def sampleEpisode : EpisodeRef :=
  ⟨⟨1⟩, ⟨2⟩, ⟨3⟩, ⟨1, 1, EpisodePosition.first_pos, EpisodePosition.first_pos⟩⟩

/-- The sample cue as the renderer writes it. -/
def renderedSample (number : String) : Rendered where
  outputBlocks := [[number.toList, sampleTimecode, "ALICE: Hello.".toList]]

theorem sampleSubtitle_one : renderReviewedSubtitle DEFAULT_SPEAKER_REVIEW_CONFIGURATION
    (sampleSubtitle "1") [subtitleCandidate (sampleSubtitle "1")] sampleDecisions =
      .ok (promotedText (renderedSample "1").outputBlocks, 0, []) :=
  renderReviewedSubtitle_sample (by decide +kernel) (by decide +kernel)

theorem sampleSubtitle_zero : renderReviewedSubtitle DEFAULT_SPEAKER_REVIEW_CONFIGURATION
    (sampleSubtitle "0") [subtitleCandidate (sampleSubtitle "0")] sampleDecisions =
      .ok (promotedText (renderedSample "0").outputBlocks, 0, []) :=
  renderReviewedSubtitle_sample (by decide +kernel) (by decide +kernel)

end Sample

open Sample

/-- The promoted sample with a positive number is parsed and ingested. -/
theorem promoted_ingested_iff_sample :
    (parseSrt (promotedText (renderedSample "1").outputBlocks) =
        .ok (retainedCues DEFAULT_SPEAKER_REVIEW_CONFIGURATION (sampleSubtitle "1")
          [subtitleCandidate (sampleSubtitle "1")] sampleDecisions) ∧
      ∃ result, ingestFinalizedSrtText ⟨4⟩ Sample.sampleEpisode .english .allowed
        (promotedText (renderedSample "1").outputBlocks) "S01E01.srt" = .ok result) ↔
      ∀ block ∈ decidedCues (sampleSubtitle "1") [subtitleCandidate (sampleSubtitle "1")]
        sampleDecisions, keptLines DEFAULT_SPEAKER_REVIEW_CONFIGURATION block ≠ [] →
          ValidHeader block :=
  promoted_ingested_iff sampleSubtitle_one ⟨4⟩ Sample.sampleEpisode .english .allowed "S01E01.srt"

/-- A cue numbered zero is promoted, and then neither parsed nor ingested. -/
theorem zero_cue_promoted :
    renderReviewedSubtitle DEFAULT_SPEAKER_REVIEW_CONFIGURATION (sampleSubtitle "0")
        [subtitleCandidate (sampleSubtitle "0")] sampleDecisions =
      .ok (promotedText (renderedSample "0").outputBlocks, 0, []) ∧
    parseSrt (promotedText (renderedSample "0").outputBlocks) =
      .error (valueError "SRT cue numbers must be positive integers.") ∧
    ¬∃ result, ingestFinalizedSrtText ⟨4⟩ Sample.sampleEpisode .english .allowed
      (promotedText (renderedSample "0").outputBlocks) "S01E01.srt" = .ok result := by
  have refused : parseSrt (promotedText (renderedSample "0").outputBlocks) =
      .error (valueError "SRT cue numbers must be positive integers.") := by decide +kernel
  refine ⟨sampleSubtitle_zero, refused, ?_⟩
  rintro ⟨result, ingested⟩
  rw [ingestFinalizedSrtText, refused] at ingested
  cases ingested

end Cinegraph.SpeakerReview
