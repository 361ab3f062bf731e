import Cinegraph.SpeakerReview.CandidateLines

/-!
Whether a run that could be prepared can be promoted: every allowed speaker of every
candidate may come out of the review, so each of them has to make a verified label.
-/

namespace Cinegraph.SpeakerReview

open Library

section Identity

theorem ofDecimal_padded (width n : Nat) : ofDecimal (padded width n) = n := by
  have zeros : ∀ count, (List.replicate count '0').foldl
      (fun n c => 10 * n + digitValue c) 0 = 0 := by
    intro count
    induction count with
    | zero => rfl
    | succ count ih =>
        rw [List.replicate_succ, List.foldl_cons]
        exact ih
  have whole := Json.ofDecimal_decimal n
  rw [ofDecimal] at whole
  rw [padded, ofDecimal, List.foldl_append, zeros, whole]

theorem padded_digits (width n : Nat) : ∀ c ∈ padded width n, Library.isDigit c = true := by
  intro c member
  rcases List.mem_append.mp member with fill | own
  · rw [List.eq_of_mem_replicate fill]
    decide
  · exact List.all_eq_true.mp (Json.wholeDigits_decimal n).1 c own

theorem length_sha256Hex (value : List Char) : (sha256Hex value).toList.length = 64 := by
  rw [sha256Hex, String.toList_ofList, List.length_map, length_toDigits]

/-- The identity of a candidate tells its line. -/
theorem candidateId_lineNumber {fileName sourceHash : String} {episodeKey : EpisodeKey}
    {a b : LabelledSubtitleLine}
    (same : candidateId fileName sourceHash episodeKey a = candidateId fileName sourceHash episodeKey b) :
    a.lineNumber = b.lineNumber := by
  obtain ⟨front, suffix, length, shape⟩ : ∃ front suffix : LabelledSubtitleLine → List Char,
      (∀ line, (suffix line).length = 11) ∧ ∀ line,
        candidateId fileName sourceHash episodeKey line =
          String.ofList (front line ++ 'L' :: padded 5 line.lineNumber ++ suffix line) := by
    refine ⟨fun line => 'S' :: padded 2 episodeKey.season ++ 'E' :: padded 2 episodeKey.episode ++
      '-' :: 'C' :: padded 4 line.cueNumber ++ ['-'], fun line => '-' ::
        (sha256Hex (fileName.toList ++ '\x00' :: sourceHash.toList ++ '\x00' ::
          decimal line.lineNumber ++ '\x00' :: line.text)).toList.take 10, ?_, ?_⟩
    · intro line
      rw [List.length_cons, List.length_take, length_sha256Hex]
      rfl
    · intro line
      simp [candidateId]
  rw [shape, shape, String.ofList_inj] at same
  have cut := (List.append_inj' same (by rw [length, length])).1
  have digits : ∀ line : LabelledSubtitleLine,
      (front line ++ 'L' :: padded 5 line.lineNumber).reverse.takeWhile Library.isDigit =
        (padded 5 line.lineNumber).reverse := by
    intro line
    rw [List.reverse_append, List.reverse_cons, List.append_assoc, List.takeWhile_append_of_pos]
    · rw [List.singleton_append, List.takeWhile_cons_of_neg (by decide), List.append_nil]
    · intro c member
      exact padded_digits 5 line.lineNumber c (List.mem_reverse.mp member)
  have numbers := digits a
  rw [cut, digits b, List.reverse_inj] at numbers
  rw [← ofDecimal_padded 5 a.lineNumber, ← numbers, ofDecimal_padded]

variable [Host] {fileName : String} {text : List Char} {episodeKey : EpisodeKey}
  {scriptDialogue : List ScriptDialogue} {candidates : List SpeakerReviewCandidate}

theorem nodup_candidateIds {positions : List Nat}
    (own : List.Forall₂ (CandidateOf fileName text episodeKey scriptDialogue) candidates positions)
    (distinct : positions.Nodup) : (candidates.map (·.candidateId)).Nodup := by
  induction own with
  | nil => exact List.nodup_nil
  | @cons candidate position candidates positions here later ih =>
      obtain ⟨fresh, distinct⟩ := List.nodup_cons.mp distinct
      rw [List.map_cons, List.nodup_cons, List.mem_map]
      refine ⟨?_, ih distinct⟩
      rintro ⟨other, member, same⟩
      obtain ⟨p, listed, there⟩ := forall₂_left later other member
      obtain ⟨a, first, identity⟩ := here.identity
      obtain ⟨b, second, otherIdentity⟩ := there.identity
      rw [identity, otherIdentity] at same
      have numbers := candidateId_lineNumber same
      have apart : p = position := by omega
      exact fresh (apart ▸ listed)

/-- The decision that accepts the proposed speaker. -/
def acceptProposed (candidate : SpeakerReviewCandidate) : SpeakerReviewDecision :=
  ⟨candidate.candidateId, .consensusAccepted, some candidate.proposedSpeaker, "", [], none, none,
    none⟩

theorem exists_proposed {positions : List Nat}
    (own : List.Forall₂ (CandidateOf fileName text episodeKey scriptDialogue) candidates positions)
    (distinct : positions.Nodup) :
    ∃ decisions : Dict String SpeakerReviewDecision, Assigned candidates decisions ∧
      ∀ candidate ∈ candidates, decidedSpeaker decisions candidate = some candidate.proposedSpeaker := by
  obtain ⟨decisions, each⟩ := Dict.exists_get? acceptProposed (nodup_candidateIds own distinct)
  have proposed : ∀ candidate ∈ candidates,
      decidedSpeaker decisions candidate = some candidate.proposedSpeaker := by
    intro candidate member
    rw [decidedSpeaker, each candidate member]
    rfl
  exact ⟨decisions, fun candidate member =>
    ⟨_, candidate.proposed_allowed, proposed candidate member⟩, proposed⟩

end Identity

section Render

variable [CharacterData] {configuration : SpeakerReviewConfiguration}

/-- A line that is verified unless it is left out is no obstacle. -/
theorem retainLine_total {cueNumber : Int} {line : List Char}
    (verified : isFilled line = true → isRemoved configuration line = false → isVerified line)
    (before : List (List Char) × Nat) :
    ∃ after, retainLine configuration cueNumber before line = .ok after := by
  rw [retainLine]
  split
  · exact ⟨_, rfl⟩
  · rename_i filled
    split
    · exact ⟨_, rfl⟩
    · rename_i kept
      rw [Bool.not_eq_false] at filled
      rw [Bool.not_eq_true] at kept
      have label : (SrtPatterns.VERIFIED_SPEAKER_LABEL_PATTERN line).isSome = true :=
        verified filled kept
      rw [if_pos label]
      exact ⟨_, rfl⟩

/-- A cue that the renderer has nothing against is rendered. -/
theorem renderCue_total {block : List (List Char)} (renderable : Renderable configuration block)
    (number : (Text.readInt (block.headD [])).isSome = true) (rendered : Rendered) :
    ∃ next, renderCue configuration rendered block = .ok next := by
  obtain ⟨cueNumber, read⟩ := Option.isSome_iff_exists.mp number
  obtain ⟨timecode, second⟩ : ∃ timecode, block[1]? = some timecode := by
    have long := renderable.header
    exact ⟨block[1], List.getElem?_eq_getElem _⟩
  have stamped := renderable.timecode
  rw [second, Option.bind_some, Option.isSome_iff_ne_none] at stamped
  have header : ¬(Text.isDigits (block.headD []) = false ∨ SrtPatterns.TIMECODE timecode = none) := by
    rw [not_or, Bool.not_eq_false]
    exact ⟨renderable.digits, stamped⟩
  have verified : ∀ line ∈ block.drop 2, isFilled line = true →
      isRemoved configuration line = false → isVerified line := by
    intro line member filled kept
    apply renderable.verified line
    rw [keptLines, List.mem_filter, filled, kept]
    exact ⟨member, rfl⟩
  obtain ⟨after, loop⟩ : ∃ after, (block.drop 2).foldlM (retainLine configuration cueNumber)
      ([], rendered.removedLineCount) = .ok after :=
    foldlM_total (fun before line member => retainLine_total (verified line member) before) _
  rw [renderCue]
  simp only [second, read, orRaise, ok_bind, reject_of_not header, loop]
  split <;> exact ⟨_, rfl⟩

/-- An aligned subtitle: its cues are well formed, and what it keeps is labelled. -/
structure Aligned (configuration : SpeakerReviewConfiguration) (text : List Char) : Prop where
  headers : ∀ block ∈ fileCues text, 2 ≤ block.length ∧ Text.isDigits (block.headD []) = true ∧
    (Text.readInt (block.headD [])).isSome = true ∧
    (block[1]?.bind SrtPatterns.TIMECODE).isSome = true
  labels : ∀ block ∈ fileCues text, ∀ line ∈ keptLines configuration block,
    isVerified line ∨ (UNCERTAIN_SPEAKER_LABEL_PATTERN line).isSome = true

/-- Two cues with the same verified lines in the same places. -/
def KeepsVerified (block decided : List (List Char)) : Prop :=
  decided.length = block.length ∧
    ∀ (i : Nat) (line : List Char), block[i]? = some line → isVerified line → decided[i]? = some line

variable [Host]

/-- The promoted subtitle: every line of it is verified, and it consists of the cues of the file
without the lines that are left out, where every line that was verified stands as it stood. -/
def Promoted (configuration : SpeakerReviewConfiguration) (text : List Char)
    (candidates : List SpeakerReviewCandidate) (decisions : Dict String SpeakerReviewDecision) :
    Prop :=
  ∃ reviewed removed cues decided,
    renderReviewedSubtitle configuration text candidates decisions = .ok (reviewed, removed, cues) ∧
    (∀ block ∈ cueBlocks reviewed, ∀ line ∈ block.drop 2, isVerified line) ∧
    List.Forall₂ KeepsVerified (fileCues text) decided ∧
    cueBlocks reviewed = decided.filterMap (keptBlock configuration)

/-- An uncertain label of a subtitle makes a verified one, or its line is left out then. -/
def LabelsPromotable (configuration : SpeakerReviewConfiguration) (text : List Char) : Prop :=
  ∀ line ∈ splitLines text, ∀ name dialogue,
    UNCERTAIN_SPEAKER_LABEL_PATTERN (Text.stripChars line) = some (name, dialogue) →
      (∀ c ∈ name, SrtPatterns.isVerifiedName c = true) ∨
        isRemoved configuration
          (labelledLine (Host.upper (String.ofList name)).toList dialogue) = true

end Render

section Headers

/-- What stands before the colon of an uncertain label is no verified name. -/
theorem isUncertain_of_verified {line : List Char} (verified : isVerified (Text.stripChars line)) :
    isUncertain line = false := by
  rw [isUncertain, Option.isSome_eq_false_iff, Option.isNone_iff_eq_none,
    Option.eq_none_iff_forall_ne_some]
  rintro ⟨name, text⟩ found
  obtain ⟨rest, shape, -, own⟩ := UNCERTAIN_SPEAKER_LABEL_PATTERN_eq_some.mp found
  rw [isVerified, SrtPatterns.VERIFIED_SPEAKER_LABEL_PATTERN] at verified
  split at verified
  · rename_i speaker behind named
    obtain ⟨⟨other, each, -⟩, -⟩ := labelName_eq_some.mp named
    have plain : ∀ c ∈ speaker, isReviewName c = true :=
      fun c member => isReviewName_of_verified (each c member)
    -- both cuts are made behind the longest run of name characters
    have cut := congrArg (List.dropWhile isReviewName) (shape.symm.trans other)
    rw [List.dropWhile_append_of_pos own.2.1, List.dropWhile_append_of_pos plain,
      List.dropWhile_cons_of_neg (by decide), List.dropWhile_cons_of_neg (by decide)] at cut
    exact absurd (List.cons.inj cut).1 (by decide)
  · cases verified

theorem isUncertain_of_digits {line : List Char}
    (digits : Text.isDigits (Text.stripChars line) = true) : isUncertain line = false := by
  rw [isUncertain, Option.isSome_eq_false_iff, Option.isNone_iff_eq_none,
    Option.eq_none_iff_forall_ne_some]
  intro label found
  rw [isDigits_uncertain found] at digits
  cases digits

theorem isUncertain_of_timecode {line : List Char}
    (stamped : (SrtPatterns.TIMECODE (Text.stripChars line)).isSome = true) :
    isUncertain line = false := by
  rw [isUncertain, Option.isSome_eq_false_iff, Option.isNone_iff_eq_none,
    Option.eq_none_iff_forall_ne_some]
  rintro ⟨name, text⟩ found
  obtain ⟨rest, shape, -, ⟨c, first, letter⟩, -⟩ := UNCERTAIN_SPEAKER_LABEL_PATTERN_eq_some.mp found
  have all : ∀ n : Fin 128, isLetter (Char.ofNat n) = true →
      Text.digitValue? (Char.ofNat n) = none := by decide
  have here := all ⟨c.toNat, isVerifiedName_small (by simp [SrtPatterns.isVerifiedName, letter])⟩
  rw [Char.ofNat_toNat] at here
  cases name with
  | nil => cases first
  | cons d name =>
      obtain rfl : d = c := Option.some.inj first
      rw [shape, SrtPatterns.TIMECODE, timestampAt, List.cons_append, digitsAt, here letter] at stamped
      cases stamped

end Headers

section Promotable

variable [Host] {fileName : String} {text : List Char} {episodeKey : EpisodeKey}
  {scriptDialogue : List ScriptDialogue} {candidates : List SpeakerReviewCandidate}
  {decisions : Dict String SpeakerReviewDecision}

/-- The lines of a cue once they are decided. -/
def decidedCue (text : List Char) (candidates : List SpeakerReviewCandidate)
    (decisions : Dict String SpeakerReviewDecision) (run : List Nat) : List (List Char) :=
  run.map fun i => Text.stripChars (decidedLine candidates decisions (splitLines text).length i
    ((splitLines text).getD i []))

/-- A line that was verified stands as it stood. -/
theorem decidedCue_keepsVerified
    (own : List.Forall₂ (CandidateOf fileName text episodeKey scriptDialogue) candidates
      (uncertainPositions (splitLines text))) (run : List Nat) :
    KeepsVerified (run.map fun i => Text.stripChars ((splitLines text).getD i []))
      (decidedCue text candidates decisions run) := by
  refine ⟨by simp [decidedCue], fun i line there verified => ?_⟩
  rw [List.getElem?_map, Option.map_eq_some_iff] at there
  obtain ⟨position, here, rfl⟩ := there
  rw [decidedCue, List.getElem?_map, here, Option.map_some,
    decidedLine_certain own (isUncertain_of_verified verified)]

variable [CharacterData] {configuration : SpeakerReviewConfiguration}

omit [Host] in
/-- The two header lines of a cue are no candidates. -/
theorem Aligned.header (aligned : Aligned configuration text) {run : List Nat}
    (member : run ∈ cuePositions text) :
    ∃ first second rest, run = first :: second :: rest ∧
      isUncertain ((splitLines text).getD first []) = false ∧
      isUncertain ((splitLines text).getD second []) = false := by
  obtain ⟨long, digits, -, stamped⟩ := aligned.headers _ (fileCue_mem member)
  rcases run with _ | ⟨first, _ | ⟨second, rest⟩⟩
  · simp at long
  · simp at long
  · exact ⟨first, second, rest, rfl, isUncertain_of_digits digits, isUncertain_of_timecode stamped⟩

/-- A decided line that is left over is verified. -/
theorem decidedLine_verified
    (own : List.Forall₂ (CandidateOf fileName text episodeKey scriptDialogue) candidates
      (uncertainPositions (splitLines text)))
    (script : ∀ dialogue ∈ scriptDialogue, IsScriptName dialogue.speaker)
    (assigned : Assigned candidates decisions) (promotable : LabelsPromotable configuration text)
    {i : Nat} (inside : i < (splitLines text).length)
    (uncertain : isUncertain ((splitLines text).getD i []) = true)
    (kept : isRemoved configuration (Text.stripChars (decidedLine candidates decisions
      (splitLines text).length i ((splitLines text).getD i []))) = false) :
    isVerified (Text.stripChars (decidedLine candidates decisions (splitLines text).length i
      ((splitLines text).getD i []))) := by
  rcases decidedLine_shape own script assigned inside with ⟨certain, -⟩ |
    ⟨-, candidate, -, speaker, allowed, here, review, good, -, shape⟩
  · rw [certain] at uncertain
    cases uncertain
  · rw [shape, (labelledLine_stripped review good).1] at kept ⊢
    rw [isVerified_labelledLine review good]
    obtain ⟨-, name, named, label, proposed⟩ := here.captured
    rcases (here.allowed speaker).mp allowed with rfl | ⟨dialogue, member, rfl⟩
    · have listed : (splitLines text).getD i [] ∈ splitLines text := by
        rw [List.getD_eq_getElem?_getD, List.getElem?_eq_getElem inside]
        exact List.getElem_mem inside
      rw [proposed] at kept ⊢
      rw [(upper_reviewName named).2]
      rcases promotable _ listed name _ label with verified | removed
      · exact verified
      · rw [removed] at kept
        cases kept
    · exact (scriptName_verified (script dialogue member)).2

/-- A cue of the file stays renderable with its decided speakers. -/
theorem decidedCue_renderable
    (own : List.Forall₂ (CandidateOf fileName text episodeKey scriptDialogue) candidates
      (uncertainPositions (splitLines text)))
    (script : ∀ dialogue ∈ scriptDialogue, IsScriptName dialogue.speaker)
    (assigned : Assigned candidates decisions) (aligned : Aligned configuration text)
    (promotable : LabelsPromotable configuration text) {run : List Nat}
    (member : run ∈ cuePositions text) :
    Renderable configuration (decidedCue text candidates decisions run) ∧
      (Text.readInt ((decidedCue text candidates decisions run).headD [])).isSome = true := by
  obtain ⟨first, second, rest, rfl, plain, stamp⟩ := aligned.header member
  obtain ⟨-, each⟩ := mem_cuePositions member
  obtain ⟨-, digits, number, stamped⟩ := aligned.headers _ (fileCue_mem member)
  have stays : ∀ i, isUncertain ((splitLines text).getD i []) = false →
      decidedLine candidates decisions (splitLines text).length i ((splitLines text).getD i []) =
        (splitLines text).getD i [] := fun i certain => decidedLine_certain own certain _
  simp only [decidedCue, List.map_cons, List.headD_cons, stays first plain, stays second stamp]
  refine ⟨⟨by simp, digits, stamped, ?_⟩, number⟩
  intro line kept
  obtain ⟨listed, good⟩ := List.mem_filter.mp kept
  obtain ⟨i, inside, rfl⟩ := List.mem_map.mp listed
  have body : i ∈ first :: second :: rest := by simp [inside]
  rw [Bool.and_eq_true, Bool.not_eq_true'] at good
  cases uncertain : isUncertain ((splitLines text).getD i []) with
  | true =>
      exact decidedLine_verified own script assigned promotable (each i body).1 uncertain good.2
  | false =>
      rw [stays i uncertain] at good ⊢
      have left : Text.stripChars ((splitLines text).getD i []) ∈ keptLines configuration
          ((first :: second :: rest).map fun i => Text.stripChars ((splitLines text).getD i [])) := by
        rw [keptLines, List.mem_filter, Bool.and_eq_true, Bool.not_eq_true']
        exact ⟨List.mem_map_of_mem inside, good⟩
      rcases aligned.labels _ (fileCue_mem member) _ left with verified | label
      · exact verified
      · rw [isUncertain, label] at uncertain
        cases uncertain

/-- Where the labels are promotable, whatever is decided of the candidates is promoted. -/
theorem promoted_of_labelsPromotable
    (own : List.Forall₂ (CandidateOf fileName text episodeKey scriptDialogue) candidates
      (uncertainPositions (splitLines text)))
    (script : ∀ dialogue ∈ scriptDialogue, IsScriptName dialogue.speaker)
    (assigned : Assigned candidates decisions) (aligned : Aligned configuration text)
    (promotable : LabelsPromotable configuration text) :
    Promoted configuration text candidates decisions := by
  have cues : decidedCues text candidates decisions =
      (cuePositions text).map (decidedCue text candidates decisions) :=
    decidedCues_eq own script assigned
  have renderable : ∀ block ∈ decidedCues text candidates decisions,
      Renderable configuration block ∧ (Text.readInt (block.headD [])).isSome = true := by
    rw [cues]
    intro block member
    obtain ⟨run, listed, rfl⟩ := List.mem_map.mp member
    exact decidedCue_renderable own script assigned aligned promotable listed
  obtain ⟨lines, relabelled⟩ := foldlM_relabel_total own (List.nodup_range.filter _)
    (fun p member => (mem_uncertainPositions.mp member).1) (fun _ _ => rfl) assigned
  have decided : lines = decidedLines text candidates decisions := foldlM_relabel relabelled
  obtain ⟨rendered, loop⟩ : ∃ rendered, (cueBlocks (joinLines lines)).foldlM
      (renderCue configuration) {} = .ok rendered := by
    apply foldlM_total
    intro before block member
    rw [decided] at member
    obtain ⟨good, number⟩ := renderable block member
    exact renderCue_total good number before
  have run : renderReviewedSubtitle configuration text candidates decisions =
      .ok (promotedText rendered.outputBlocks, rendered.removedLineCount,
        rendered.removedCueNumbers) := by
    rw [renderReviewedSubtitle, relabelled, ok_bind, loop]
    rfl
  obtain ⟨all, written⟩ := renderReviewedSubtitle_eq_ok run
  have blocks : cueBlocks (promotedText rendered.outputBlocks) =
      (decidedCues text candidates decisions).filterMap (keptBlock configuration) := by
    rw [written]
    exact cueBlocks_promotedText all
  refine ⟨_, _, _, decidedCues text candidates decisions, run, ?_, ?_, blocks⟩
  · rw [blocks]
    intro kept member line inside
    obtain ⟨block, listed, left⟩ := List.mem_filterMap.mp member
    have body := (keptBlock_lines listed (all block listed) left).2.1
    rw [body] at inside
    exact (all block listed).verified line inside
  · rw [fileCues_eq, cues, List.forall₂_map_left_iff, List.forall₂_map_right_iff]
    exact List.forall₂_same.mpr fun run _ => decidedCue_keepsVerified own run

omit [Host] in
/-- An uncertain line stands behind the header of a cue. -/
theorem Aligned.uncertain_inside (aligned : Aligned configuration text) {i : Nat}
    (inside : i < (splitLines text).length)
    (uncertain : isUncertain ((splitLines text).getD i []) = true)
    (filled : isFilled ((splitLines text).getD i []) = true) :
    ∃ run ∈ cuePositions text, i ∈ run.drop 2 := by
  have listed : i ∈ (cuePositions text).flatten := by
    rw [cuePositions, groups, flatten_groupsFrom, List.nil_append, List.mem_filter, List.mem_range]
    exact ⟨inside, filled⟩
  obtain ⟨run, member, here⟩ := List.mem_flatten.mp listed
  obtain ⟨first, second, rest, rfl, plain, stamp⟩ := aligned.header member
  rcases List.mem_cons.mp here with rfl | here
  · rw [plain] at uncertain
    cases uncertain
  · rcases List.mem_cons.mp here with rfl | here
    · rw [stamp] at uncertain
      cases uncertain
    · exact ⟨_, member, here⟩

/-- A proposed speaker that is promoted was promotable. -/
theorem labelsPromotable_of_promoted
    (own : List.Forall₂ (CandidateOf fileName text episodeKey scriptDialogue) candidates
      (uncertainPositions (splitLines text)))
    (script : ∀ dialogue ∈ scriptDialogue, IsScriptName dialogue.speaker)
    (aligned : Aligned configuration text)
    (promoted : ∀ decisions, Assigned candidates decisions →
      Promoted configuration text candidates decisions) :
    LabelsPromotable configuration text := by
  intro line listed name dialogue label
  obtain ⟨decisions, assigned, proposed⟩ := exists_proposed own (List.nodup_range.filter _)
  obtain ⟨reviewed, removed, cues, -, run, -⟩ := promoted decisions assigned
  obtain ⟨all, -⟩ := renderReviewedSubtitle_eq_ok run
  obtain ⟨i, inside, rfl⟩ := List.mem_iff_getElem.mp listed
  have here : (splitLines text)[i] = (splitLines text).getD i [] := by
    rw [List.getD_eq_getElem?_getD, List.getElem?_eq_getElem inside, Option.getD_some]
  rw [here] at label
  have uncertain : isUncertain ((splitLines text).getD i []) = true := by
    rw [isUncertain, label]
    rfl
  rcases decidedLine_shape own script assigned inside with ⟨certain, -⟩ |
    ⟨-, candidate, member, speaker, -, related, review, good, chosen, shape⟩
  · rw [certain] at uncertain
    cases uncertain
  · obtain ⟨-, captured, named, again, upper⟩ := related.captured
    rw [label, Option.some.injEq, Prod.mk.injEq] at again
    obtain ⟨rfl, rfl⟩ := again
    rw [proposed candidate member, Option.some.injEq] at chosen
    rw [← chosen, upper] at shape review
    obtain ⟨run, listed, body⟩ := aligned.uncertain_inside inside uncertain
      (isFilled_of_uncertain uncertain)
    have decided : decidedCue text candidates decisions run ∈ decidedCues text candidates decisions := by
      rw [decidedCues_eq own script assigned]
      exact List.mem_map_of_mem listed
    have stripped := labelledLine_stripped review good
    have written : labelledLine (Host.upper (String.ofList name)).toList candidate.dialogueText.toList ∈
        (decidedCue text candidates decisions run).drop 2 := by
      rw [decidedCue, ← List.map_drop, List.mem_map]
      exact ⟨i, body, by rw [shape, stripped.1]⟩
    cases removed : isRemoved configuration
        (labelledLine (Host.upper (String.ofList name)).toList candidate.dialogueText.toList) with
    | true => exact Or.inr rfl
    | false =>
        have kept := (all _ decided).verified _
          (List.mem_filter.mpr ⟨written, by rw [stripped.2.2, removed]; rfl⟩)
        rw [isVerified_labelledLine review good, (upper_reviewName named).2] at kept
        exact Or.inl kept

/-- A run can be promoted whatever is decided of its candidates exactly when every uncertain label
of its files has the characters of verified ones, or its line is left out anyway. -/
theorem candidates_promotable_iff [Similarity] {sourcePdfName : String} {scriptText : List Char}
    {alignedSubtitles : List AlignedSubtitle}
    (built : buildSpeakerReviewCandidates configuration sourcePdfName scriptText alignedSubtitles =
      .ok candidates)
    (distinct : (alignedSubtitles.map (·.name)).Nodup) {subtitle : AlignedSubtitle}
    (member : subtitle ∈ alignedSubtitles) (aligned : Aligned configuration subtitle.text) :
    (∀ decisions, Assigned (candidatesOf subtitle.name candidates) decisions →
      Promoted configuration subtitle.text (candidatesOf subtitle.name candidates) decisions) ↔
      LabelsPromotable configuration subtitle.text := by
  obtain ⟨episodeKey, scriptDialogue, own, script⟩ :=
    buildSpeakerReviewCandidates_eq_ok built distinct member
  constructor
  · exact labelsPromotable_of_promoted own script aligned
  · intro promotable decisions assigned
    exact promoted_of_labelsPromotable own script assigned aligned promotable

end Promotable

namespace Sample

/-- Texts that are never alike. -/
scoped instance sampleSimilarity : Similarity := ⟨fun _ _ => ⟨.finite 0, by decide⟩, id⟩

def sampleScript : List Char := "1x01 Pilot\nALICE: Hello there.\n".toList

/-- An aligned subtitle of one cue, with an uncertain label of the given name. -/
def sampleAligned (label : String) : AlignedSubtitle where
  name := "Show - 1x01.script-aligned.srt"
  text := '1' :: '\n' :: sampleTimecode ++ '\n' :: label.toList ++ "?: Hello.\n".toList

theorem buildSpeakerReviewCandidates_sample (label : String)
    (labelled : (labelledSubtitleLines (sampleAligned label).text).toOption.isSome = true) :
    ∃ candidates, buildSpeakerReviewCandidates DEFAULT_SPEAKER_REVIEW_CONFIGURATION "Script.pdf"
      sampleScript [sampleAligned label] = .ok candidates := by
  have script : ((parseScriptDialogue sampleScript).toOption.bind (·.get? ⟨1, 1⟩)).any
      (fun dialogue => !dialogue.isEmpty) = true := by decide
  have filled : ¬isFilled sampleScript = false := by decide
  have key : episodeKeyFromSubtitlePath "Show - 1x01.script-aligned.srt" = .ok ⟨1, 1⟩ := by
    rw [episodeKeyFromSubtitlePath, show searchEpisode false
      "Show - 1x01.script-aligned.srt".toList = some (['1'], ['0', '1']) by decide]
    rfl
  cases parsed : parseScriptDialogue sampleScript with
  | error e =>
      rw [parsed] at script
      cases script
  | ok dialogueByEpisode =>
      rw [parsed] at script
      obtain ⟨dialogue, found, more⟩ := (Option.any_eq_true _ _).mp script
      have found : dialogueByEpisode.get? ⟨1, 1⟩ = some dialogue := found
      have some_dialogue : ¬dialogue = [] := by
        rintro rfl
        cases more
      cases lines : labelledSubtitleLines (sampleAligned label).text with
      | error e =>
          rw [lines] at labelled
          cases labelled
      | ok labelledLines =>
          obtain ⟨candidates, built⟩ : ∃ candidates, buildFileCandidates
              DEFAULT_SPEAKER_REVIEW_CONFIGURATION (sampleAligned label).name
              (sampleAligned label).text ⟨1, 1⟩ dialogue = .ok candidates :=
            buildFileCandidates_total (by decide) lines ⟨1, 1⟩ dialogue
          have name : (sampleAligned label).name = "Show - 1x01.script-aligned.srt" := rfl
          refine ⟨[candidates].flatten, ?_⟩
          simp only [buildSpeakerReviewCandidates, reject_of_not filled, parsed, ok_bind,
            List.mapM_cons, List.mapM_nil, name, key, found, Option.getD_some,
            reject_of_not some_dialogue]
          rw [← name, built]
          rfl

theorem sampleAligned_aligned (label : String)
    (cues : fileCues (sampleAligned label).text =
      [["1".toList, sampleTimecode, label.toList ++ "?: Hello.".toList]])
    (uncertain : (UNCERTAIN_SPEAKER_LABEL_PATTERN (label.toList ++ "?: Hello.".toList)).isSome = true) :
    Aligned DEFAULT_SPEAKER_REVIEW_CONFIGURATION (sampleAligned label).text := by
  constructor
  · rw [cues, List.forall_mem_singleton]
    exact ⟨by simp, show Text.isDigits "1".toList = true by decide,
      show (Text.readInt "1".toList).isSome = true by decide,
      show (SrtPatterns.TIMECODE sampleTimecode).isSome = true by decide⟩
  · rw [cues, List.forall_mem_singleton]
    intro line kept
    have body := (List.mem_filter.mp kept).1
    rw [List.drop_succ_cons, List.drop_succ_cons, List.drop_zero, List.mem_singleton] at body
    rw [body]
    exact Or.inr uncertain

end Sample

open Sample

/-- A sample whose label can be verified is promoted whatever is decided. -/
theorem candidates_promotable_iff_sample :
    ∃ candidates, buildSpeakerReviewCandidates DEFAULT_SPEAKER_REVIEW_CONFIGURATION "Script.pdf"
        sampleScript [sampleAligned "ALICE"] = .ok candidates ∧
      ((∀ decisions, Assigned (candidatesOf (sampleAligned "ALICE").name candidates) decisions →
        Promoted DEFAULT_SPEAKER_REVIEW_CONFIGURATION (sampleAligned "ALICE").text
          (candidatesOf (sampleAligned "ALICE").name candidates) decisions) ↔
        LabelsPromotable DEFAULT_SPEAKER_REVIEW_CONFIGURATION (sampleAligned "ALICE").text) := by
  obtain ⟨candidates, built⟩ := buildSpeakerReviewCandidates_sample "ALICE" (by decide +kernel)
  have aligned := sampleAligned_aligned "ALICE" (by decide +kernel) (by decide +kernel)
  exact ⟨candidates, built,
    candidates_promotable_iff built (List.nodup_singleton _) List.mem_cons_self aligned⟩

/-- A full stop in an uncertain label is prepared, and then cannot be promoted. -/
theorem dotted_label_not_promotable :
    ∃ candidates, buildSpeakerReviewCandidates DEFAULT_SPEAKER_REVIEW_CONFIGURATION "Script.pdf"
        sampleScript [sampleAligned "DR. SMITH"] = .ok candidates ∧
      Aligned DEFAULT_SPEAKER_REVIEW_CONFIGURATION (sampleAligned "DR. SMITH").text ∧
      ¬∀ decisions, Assigned (candidatesOf (sampleAligned "DR. SMITH").name candidates) decisions →
        Promoted DEFAULT_SPEAKER_REVIEW_CONFIGURATION (sampleAligned "DR. SMITH").text
          (candidatesOf (sampleAligned "DR. SMITH").name candidates) decisions := by
  obtain ⟨candidates, built⟩ := buildSpeakerReviewCandidates_sample "DR. SMITH" (by decide +kernel)
  have aligned := sampleAligned_aligned "DR. SMITH" (by decide +kernel) (by decide +kernel)
  refine ⟨candidates, built, aligned, fun promoted => ?_⟩
  obtain ⟨episodeKey, scriptDialogue, own, script⟩ :=
    buildSpeakerReviewCandidates_eq_ok built (List.nodup_singleton _) List.mem_cons_self
  have promotable := labelsPromotable_of_promoted own script aligned promoted
  rcases promotable "DR. SMITH?: Hello.".toList (by decide +kernel) "DR. SMITH".toList
    "Hello.".toList (by decide +kernel) with verified | removed
  · exact absurd (verified '.' (by decide)) (by decide)
  · revert removed
    decide +kernel

end Cinegraph.SpeakerReview
