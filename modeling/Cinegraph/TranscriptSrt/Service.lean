import Cinegraph.Domain.Transcript
import Cinegraph.TranscriptSrt.Parser

/-! Canonical transcript segments from finalized subtitle text. -/

namespace Cinegraph

open Library

/-- The namespace of names that are URLs. -/
def IdentifierTemplates.NAMESPACE : UUID := ⟨0x6ba7b8119dad11d180b400c04fd430c8⟩

namespace IdentifierGenerator

def speakerId (seriesId : UUID) (speakerName : String) : UUID :=
  IdentifierTemplates.NAMESPACE.uuid5
    ("cinegraph:speaker:" ++ seriesId.str ++ ":" ++ Text.casefold speakerName)

def transcriptSegmentId (sourceVersionId episodeId : UUID) (cueNumber startMs endMs : Int)
    (text : String) : UUID :=
  IdentifierTemplates.NAMESPACE.uuid5
    ("cinegraph:transcript-segment:" ++ sourceVersionId.str ++ ":" ++ episodeId.str ++ ":" ++
      toString cueNumber ++ ":" ++ toString startMs ++ ":" ++ toString endMs ++ ":" ++ text)

end IdentifierGenerator

/-- `VERIFIED_SPEAKER_CONFIDENCE` -/
def VERIFIED_SPEAKER_CONFIDENCE : FloatValue := .finite 1

/-- `_canonicalize_dialogue` -/
def canonicalizeDialogue (value : List Char) : List Char × Bool :=
  let withoutStyles := subTags [' '] none value
  (Text.stripChars (subRuns Text.isSpace false withoutStyles), decide (withoutStyles ≠ value))

/-- `_normalize_speaker_name`; the pattern admits ASCII names only. -/
def normalizeSpeakerName (value : List Char) : String :=
  String.ofList ((Text.stripChars (subRuns Text.isSpace false value)).map Char.toUpper)

/-- The lists that the loop over the lines of a cue builds. -/
structure CueParts where
  speakerCandidates : List SpeakerCandidate := []
  dialogueParts : List (List Char) := []
  styleRemoved : Bool := false

/-- One turn of the loop over the lines of a cue. -/
def addLine (episode : EpisodeRef) (cueNumber : Int) (parts : CueParts) (line : List Char) :
    Except Raised CueParts := do
  let (speaker, text) ← orRaise (SrtPatterns.VERIFIED_SPEAKER_LABEL_PATTERN line)
    (cueError cueNumber " contains a line without a verified speaker label.")
  let speakerName := normalizeSpeakerName speaker
  let (dialogue, removedStyles) := canonicalizeDialogue text
  let styleRemoved := parts.styleRemoved || removedStyles
  if dialogue = [] then
    return { parts with styleRemoved }
  let dialogueParts := parts.dialogueParts ++ [dialogue]
  if parts.speakerCandidates.any fun candidate => candidate.name = speakerName then
    return { parts with dialogueParts, styleRemoved }
  let candidate ← SpeakerCandidate.make
    (IdentifierGenerator.speakerId episode.seriesId speakerName) speakerName
    VERIFIED_SPEAKER_CONFIDENCE
  return ⟨parts.speakerCandidates ++ [candidate], dialogueParts, styleRemoved⟩

/-- `" ".join(parts)` -/
def joinParts (parts : List (List Char)) : List Char := [' '].intercalate parts

section Ingestion

variable (sourceVersionId : UUID) (episode : EpisodeRef) (language : Language)
  (rightsStatus : RightsStatus)

def toTranscriptSegment (cue : ParsedSrtCue) : Except Raised (Option TranscriptSegment) := do
  let parts ← cue.lines.foldlM (addLine episode cue.cueNumber) {}
  if parts.dialogueParts = [] then
    return none
  let text := String.ofList (joinParts parts.dialogueParts)
  some <$> SegmentFields.create {
    segmentId := IdentifierGenerator.transcriptSegmentId sourceVersionId episode.episodeId
      cue.cueNumber cue.startMs cue.endMs text
    sourceVersionId, episode
    startMs := cue.startMs
    endMs := cue.endMs
    text, language, rightsStatus
    styleRemoved := parts.styleRemoved
    speakerCandidates := parts.speakerCandidates }

structure TranscriptIngestionReport where
  sourcePath : String
  cueCount : Nat
  segmentCount : Nat
  multiSpeakerCueCount : Nat
  overlapCount : Nat
  styleRemovedSegmentCount : Nat
  skippedNonDialogueCueCount : Int

structure TranscriptIngestionResult where
  segments : List TranscriptSegment
  report : TranscriptIngestionReport

def buildReport (sourcePath : String) (cues : List ParsedSrtCue)
    (segments : List TranscriptSegment) : TranscriptIngestionReport where
  sourcePath := sourcePath
  cueCount := cues.length
  segmentCount := segments.length
  multiSpeakerCueCount := segments.countP fun segment => 1 < segment.speakerCandidates.length
  overlapCount := (segments.zip segments.tail).countP fun (previous, current) =>
    current.startMs < previous.endMs
  styleRemovedSegmentCount := segments.countP fun segment => segment.styleRemoved
  skippedNonDialogueCueCount := cues.length - segments.length

def ingestFinalizedSrtText (sourceText : List Char) (sourcePath : String) :
    Except Raised TranscriptIngestionResult := do
  let cues ← parseSrt sourceText
  let mappedSegments ← cues.mapM
    (toTranscriptSegment sourceVersionId episode language rightsStatus)
  let segments := mappedSegments.filterMap id
  return ⟨segments, buildReport sourcePath cues segments⟩

end Ingestion

section SpeakerNames

/-- The characters of a normalized name. -/
def isNormalizedName (c : Char) : Bool := ('A' ≤ c && c ≤ 'Z') || c = ' ' || c = '-'

theorem isVerifiedName_small {c : Char} (own : SrtPatterns.isVerifiedName c = true) :
    c.toNat < 128 := by
  simp only [SrtPatterns.isVerifiedName, isLetter, Bool.or_eq_true, Bool.and_eq_true,
    decide_eq_true_eq] at own
  rcases own with ((upper | lower) | rfl) | rfl
  · have : c.toNat ≤ 'Z'.toNat := upper.2
    exact Nat.lt_of_le_of_lt this (by decide)
  · have : c.toNat ≤ 'z'.toNat := lower.2
    exact Nat.lt_of_le_of_lt this (by decide)
  · decide
  · decide

theorem isNormalizedName_small {c : Char} (own : isNormalizedName c = true) : c.toNat < 128 := by
  simp only [isNormalizedName, Bool.or_eq_true, Bool.and_eq_true, decide_eq_true_eq] at own
  rcases own with (upper | rfl) | rfl
  · have : c.toNat ≤ 'Z'.toNat := upper.2
    exact Nat.lt_of_le_of_lt this (by decide)
  · decide
  · decide

theorem isNormalizedName_toUpper {c : Char} (own : SrtPatterns.isVerifiedName c = true) :
    isNormalizedName c.toUpper = true ∧ Text.isSpace c.toUpper = Text.isSpace c := by
  have all : ∀ n : Fin 128, SrtPatterns.isVerifiedName (Char.ofNat n) = true →
      isNormalizedName (Char.ofNat n).toUpper = true ∧
        Text.isSpace (Char.ofNat n).toUpper = Text.isSpace (Char.ofNat n) := by decide
  have here := all ⟨c.toNat, isVerifiedName_small own⟩
  rw [Char.ofNat_toNat] at here
  exact here own

theorem isLetter_solid {c : Char} (letter : isLetter c = true) : Text.isSpace c = false := by
  have all : ∀ n : Fin 128, isLetter (Char.ofNat n) = true →
      Text.isSpace (Char.ofNat n) = false := by decide
  have here := all ⟨c.toNat, isVerifiedName_small (by simp [SrtPatterns.isVerifiedName, letter])⟩
  rw [Char.ofNat_toNat] at here
  exact here letter

theorem isLetter_toUpper {c : Char} (letter : isLetter c = true) : isLetter c.toUpper = true := by
  have all : ∀ n : Fin 128, isLetter (Char.ofNat n) = true →
      isLetter (Char.ofNat n).toUpper = true := by decide
  have here := all ⟨c.toNat, isVerifiedName_small (by simp [SrtPatterns.isVerifiedName, letter])⟩
  rw [Char.ofNat_toNat] at here
  exact here letter

theorem toUpper_foldChar {c : Char} (own : isNormalizedName c = true) :
    (Text.foldChar c).map Char.toUpper = [c] := by
  have all : ∀ n : Fin 128, isNormalizedName (Char.ofNat n) = true →
      (Text.foldChar (Char.ofNat n)).map Char.toUpper = [Char.ofNat n] := by decide
  have here := all ⟨c.toNat, isNormalizedName_small own⟩
  rw [Char.ofNat_toNat] at here
  exact here own

/-- Normalized names differ when their case foldings do. -/
theorem casefold_injective {a b : String} (first : ∀ c ∈ a.toList, isNormalizedName c = true)
    (second : ∀ c ∈ b.toList, isNormalizedName c = true)
    (same : Text.casefold a = Text.casefold b) : a = b := by
  have back (name : List Char) (own : ∀ c ∈ name, isNormalizedName c = true) :
      (name.flatMap Text.foldChar).map Char.toUpper = name := by
    induction name with
    | nil => rfl
    | cons c name ih =>
        rw [List.flatMap_cons, List.map_append, toUpper_foldChar (own c List.mem_cons_self),
          ih fun d member => own d (List.mem_cons_of_mem _ member), List.singleton_append]
  have lists : a.toList.flatMap Text.foldChar = b.toList.flatMap Text.foldChar := by
    have := congrArg String.toList same
    rwa [Text.casefold, Text.casefold, String.toList_ofList, String.toList_ofList] at this
  apply String.toList_injective
  rw [← back _ first, ← back _ second, lists]

theorem mem_subRuns {replaced : Char → Bool} {inside : Bool} {text : List Char} {c : Char}
    (member : c ∈ subRuns replaced inside text) : c = ' ' ∨ c ∈ text := by
  induction text generalizing inside with
  | nil => cases member
  | cons d text ih =>
      rw [subRuns] at member
      split at member
      · split at member
        · exact (ih member).imp id (List.mem_cons_of_mem _)
        · rcases List.mem_cons.mp member with rfl | member
          · exact Or.inl rfl
          · exact (ih member).imp id (List.mem_cons_of_mem _)
      · rcases List.mem_cons.mp member with rfl | member
        · exact Or.inr List.mem_cons_self
        · exact (ih member).imp id (List.mem_cons_of_mem _)

theorem length_subRuns_le (replaced : Char → Bool) (inside : Bool) (text : List Char) :
    (subRuns replaced inside text).length ≤ text.length := by
  induction text generalizing inside with
  | nil => exact Nat.le_refl _
  | cons c text ih =>
      have run := ih true
      have fresh := ih false
      rw [subRuns]
      split
      · split <;> (simp only [List.length_cons]; omega)
      · simp only [List.length_cons]
        omega

theorem isFilled_subRuns (inside : Bool) (text : List Char) :
    isFilled (subRuns Text.isSpace inside text) = isFilled text := by
  induction text generalizing inside with
  | nil => rfl
  | cons c text ih =>
      rw [subRuns, isFilled_cons]
      cases space : Text.isSpace c with
      | true =>
          cases inside with
          | true => exact ih true
          | false =>
              rw [if_pos rfl, if_neg Bool.noConfusion, isFilled_cons, ih true]
              rfl
      | false => rw [if_neg Bool.noConfusion, isFilled_cons, space, ih false]

theorem VERIFIED_SPEAKER_LABEL_PATTERN_speaker {line speaker text : List Char}
    (found : SrtPatterns.VERIFIED_SPEAKER_LABEL_PATTERN line = some (speaker, text)) :
    isFilled speaker = true ∧ ∀ c ∈ speaker, SrtPatterns.isVerifiedName c = true := by
  unfold SrtPatterns.VERIFIED_SPEAKER_LABEL_PATTERN at found
  split at found
  · rename_i name rest named
    obtain ⟨captured, -, same⟩ := Option.map_eq_some_iff.mp found
    obtain ⟨rfl, -⟩ := Prod.mk.inj same
    obtain ⟨⟨-, own, -⟩, ⟨c, first, letter⟩, -⟩ := labelName_eq_some.mp named
    have inside := List.mem_of_mem_head? first
    exact ⟨List.any_eq_true.mpr ⟨c, inside, by simp [isLetter_solid letter]⟩, own⟩
  · cases found

theorem normalizeSpeakerName_name {speaker : List Char} (filled : isFilled speaker = true)
    (own : ∀ c ∈ speaker, SrtPatterns.isVerifiedName c = true) :
    Trimmed (normalizeSpeakerName speaker) ∧
      ∀ c ∈ (normalizeSpeakerName speaker).toList, isNormalizedName c = true := by
  have each : ∀ c ∈ Text.stripChars (subRuns Text.isSpace false speaker),
      SrtPatterns.isVerifiedName c = true := by
    intro c member
    rcases mem_subRuns (stripChars_subset member) with rfl | member
    · decide
    · exact own c member
  have stripped := stripChars_eq_self.mp (stripChars_stripChars (subRuns Text.isSpace false speaker))
  have nonempty : isFilled (Text.stripChars (subRuns Text.isSpace false speaker)) = true := by
    rw [isFilled_stripChars, isFilled_subRuns, filled]
  rw [normalizeSpeakerName]
  generalize Text.stripChars (subRuns Text.isSpace false speaker) = name at *
  have upper : Text.stripChars (name.map Char.toUpper) = name.map Char.toUpper := by
    rw [stripChars_eq_self, List.head?_map, List.getLast?_map]
    constructor
    · intro c first
      obtain ⟨d, own, rfl⟩ := Option.mem_map.mp first
      rw [(isNormalizedName_toUpper (each d (List.mem_of_mem_head? own))).2]
      exact stripped.1 d own
    · intro c last
      obtain ⟨d, own, rfl⟩ := Option.mem_map.mp last
      rw [(isNormalizedName_toUpper (each d (List.mem_of_mem_getLast? own))).2]
      exact stripped.2 d own
  constructor
  · constructor
    · intro empty
      rw [String.ofList_eq_empty_iff, List.map_eq_nil_iff] at empty
      rw [empty] at nonempty
      cases nonempty
    · rw [Text.strip, String.toList_ofList, upper]
  · intro c member
    rw [String.toList_ofList] at member
    obtain ⟨d, inside, rfl⟩ := List.mem_map.mp member
    exact (isNormalizedName_toUpper (each d inside)).1

end SpeakerNames

section Segments

/-- What the loop over the lines of a cue keeps. -/
structure CueParts.Sound (parts : CueParts) : Prop where
  names : ∀ candidate ∈ parts.speakerCandidates, ∀ c ∈ candidate.name.toList,
    isNormalizedName c = true
  distinct : (parts.speakerCandidates.map SpeakerCandidate.name).Nodup
  dialogue : ∀ part ∈ parts.dialogueParts, part ≠ [] ∧ Text.stripChars part = part

/-- A line with a verified label never fails. -/
theorem addLine_sound (episode : EpisodeRef) (cueNumber : Int) {parts : CueParts} {line : List Char}
    (sound : parts.Sound)
    (verified : (SrtPatterns.VERIFIED_SPEAKER_LABEL_PATTERN line).isSome = true) :
    ∃ next, addLine episode cueNumber parts line = .ok next ∧ next.Sound := by
  obtain ⟨⟨speaker, text⟩, found⟩ := Option.isSome_iff_exists.mp verified
  obtain ⟨filled, own⟩ := VERIFIED_SPEAKER_LABEL_PATTERN_speaker found
  obtain ⟨trimmed, normal⟩ := normalizeSpeakerName_name filled own
  have known : orRaise (SrtPatterns.VERIFIED_SPEAKER_LABEL_PATTERN line)
      (cueError cueNumber " contains a line without a verified speaker label.") =
        .ok (speaker, text) := by
    rw [found]
    rfl
  have stripped : Text.stripChars (canonicalizeDialogue text).1 = (canonicalizeDialogue text).1 :=
    stripChars_stripChars _
  rw [addLine, known, ok_bind]
  dsimp only
  generalize canonicalizeDialogue text = dialogue at stripped ⊢
  generalize normalizeSpeakerName speaker = name at trimmed normal ⊢
  split
  · exact ⟨_, rfl, sound.names, sound.distinct, sound.dialogue⟩
  · rename_i some_dialogue
    have more : ∀ part ∈ parts.dialogueParts ++ [dialogue.1],
        part ≠ [] ∧ Text.stripChars part = part := by
      intro part member
      rcases List.mem_append.mp member with before | now
      · exact sound.dialogue part before
      · rw [List.mem_singleton.mp now]
        exact ⟨some_dialogue, stripped⟩
    split
    · exact ⟨_, rfl, sound.names, sound.distinct, more⟩
    · rename_i fresh
      obtain ⟨candidate, made, named⟩ := SpeakerCandidate.make_total
        (IdentifierGenerator.speakerId episode.seriesId name) trimmed
        (show isProbability VERIFIED_SPEAKER_CONFIDENCE = true by decide)
      rw [made, ok_bind]
      refine ⟨⟨parts.speakerCandidates ++ [candidate], _, _⟩, rfl, ?_, ?_, more⟩
      · intro other member
        rcases List.mem_append.mp member with before | now
        · exact sound.names other before
        · rw [List.mem_singleton.mp now, named]
          exact normal
      · rw [List.map_append, List.map_singleton, named, List.nodup_append]
        refine ⟨sound.distinct, List.nodup_singleton name, ?_⟩
        intro a before b now same
        obtain ⟨other, member, rfl⟩ := List.mem_map.mp before
        rw [List.mem_singleton] at now
        apply fresh
        rw [List.any_eq_true]
        exact ⟨other, member, decide_eq_true (same.trans now)⟩

theorem foldlM_addLine_sound (episode : EpisodeRef) (cueNumber : Int) {parts : CueParts}
    {lines : List (List Char)} (sound : parts.Sound)
    (verified : ∀ line ∈ lines, (SrtPatterns.VERIFIED_SPEAKER_LABEL_PATTERN line).isSome = true) :
    ∃ last, lines.foldlM (addLine episode cueNumber) parts = .ok last ∧ last.Sound := by
  induction lines generalizing parts with
  | nil => exact ⟨parts, rfl, sound⟩
  | cons line lines ih =>
      obtain ⟨next, run, sound⟩ := addLine_sound episode cueNumber sound (verified line List.mem_cons_self)
      rw [List.foldlM_cons, run, ok_bind]
      exact ih sound fun l member => verified l (List.mem_cons_of_mem _ member)

/-- Stripped parts make a stripped text. -/
theorem joinParts_stripped {parts : List (List Char)} (some_part : parts ≠ [])
    (each : ∀ part ∈ parts, part ≠ [] ∧ Text.stripChars part = part) :
    joinParts parts ≠ [] ∧ Text.stripChars (joinParts parts) = joinParts parts := by
  have ends : (∃ part ∈ parts, (joinParts parts).head? = part.head?) ∧
      (∃ part ∈ parts, (joinParts parts).getLast? = part.getLast?) ∧ joinParts parts ≠ [] := by
    induction parts with
    | nil => exact absurd rfl some_part
    | cons part parts ih =>
        obtain ⟨full, -⟩ := each part List.mem_cons_self
        cases parts with
        | nil => exact ⟨⟨part, by simp, by simp [joinParts]⟩, ⟨part, by simp, by simp [joinParts]⟩,
            by simpa [joinParts] using full⟩
        | cons next parts =>
            obtain ⟨-, ⟨last, member, same⟩, more⟩ := ih (by simp) fun p inside =>
              each p (List.mem_cons_of_mem _ inside)
            have cut : joinParts (part :: next :: parts) =
                part ++ ([' '] ++ joinParts (next :: parts)) := rfl
            rw [cut]
            refine ⟨⟨part, by simp, ?_⟩, ⟨last, List.mem_cons_of_mem _ member, ?_⟩, by simp [full]⟩
            · rw [List.head?_append_of_ne_nil _ full]
            · rw [List.getLast?_append_of_ne_nil _ (by simp), List.getLast?_append_of_ne_nil _ more, same]
  obtain ⟨⟨first, firstPart, headed⟩, ⟨last, lastPart, ended⟩, full⟩ := ends
  refine ⟨full, ?_⟩
  rw [stripChars_eq_self, headed, ended]
  exact ⟨(stripChars_eq_self.mp (each first firstPart).2).1,
    (stripChars_eq_self.mp (each last lastPart).2).2⟩

variable (sourceVersionId : UUID) (episode : EpisodeRef) (language : Language)
  (rightsStatus : RightsStatus)

/-- A cue whose lines are verified always gives a segment, or none where no dialogue is left. -/
theorem toTranscriptSegment_total {cue : ParsedSrtCue} (start : 0 ≤ cue.startMs)
    (order : cue.startMs < cue.endMs)
    (verified : ∀ line ∈ cue.lines,
      (SrtPatterns.VERIFIED_SPEAKER_LABEL_PATTERN line).isSome = true) :
    ∃ segment, toTranscriptSegment sourceVersionId episode language rightsStatus cue = .ok segment := by
  have nothing : CueParts.Sound {} :=
    ⟨fun _ member => absurd member List.not_mem_nil, List.nodup_nil,
      fun _ member => absurd member List.not_mem_nil⟩
  obtain ⟨parts, run, sound⟩ := foldlM_addLine_sound episode cue.cueNumber nothing verified
  rw [toTranscriptSegment, run, ok_bind]
  split
  · exact ⟨none, rfl⟩
  · rename_i some_part
    obtain ⟨full, stripped⟩ := joinParts_stripped some_part sound.dialogue
    have trimmed : Trimmed (String.ofList (joinParts parts.dialogueParts)) := by
      constructor
      · rwa [ne_eq, String.ofList_eq_empty_iff]
      · rw [Text.strip, String.toList_ofList, stripped]
    have distinct : DistinctSpeakers parts.speakerCandidates := by
      have named := List.inj_on_of_nodup_map sound.distinct
      have apart : ∀ a ∈ parts.speakerCandidates, ∀ b ∈ parts.speakerCandidates,
          Text.casefold a.name = Text.casefold b.name → a = b := by
        intro a first b second same
        exact named first second (casefold_injective (sound.names a first) (sound.names b second) same)
      exact List.Nodup.map_on apart (List.Nodup.of_map SpeakerCandidate.name sound.distinct)
    dsimp only
    rw [SegmentFields.create_total]
    · exact ⟨_, rfl⟩
    · exact start
    · exact order
    · exact trimmed
    · exact distinct

theorem toTranscriptSegment_owner {cue : ParsedSrtCue} {segment : TranscriptSegment}
    (mapped : toTranscriptSegment sourceVersionId episode language rightsStatus cue =
      .ok (some segment)) :
    segment.sourceVersionId = sourceVersionId ∧ segment.episode = episode := by
  unfold toTranscriptSegment at mapped
  obtain ⟨parts, -, mapped⟩ := (bind_eq_ok _).mp mapped
  split at mapped
  · cases mapped
  · dsimp only at mapped
    cases created : SegmentFields.create _ with
    | error e =>
        rw [created] at mapped
        cases mapped
    | ok made =>
        rw [created, ok_map] at mapped
        cases mapped
        rw [SegmentFields.create_ok created]
        exact ⟨rfl, rfl⟩

/-- Every segment belongs to the version and the episode it was made for. -/
theorem ingestFinalizedSrtText_owner {sourceText : List Char} {sourcePath : String}
    {result : TranscriptIngestionResult}
    (ingested : ingestFinalizedSrtText sourceVersionId episode language rightsStatus sourceText
      sourcePath = .ok result) :
    ∀ segment ∈ result.segments,
      segment.sourceVersionId = sourceVersionId ∧ segment.episode = episode := by
  unfold ingestFinalizedSrtText at ingested
  obtain ⟨cues, -, ingested⟩ := (bind_eq_ok _).mp ingested
  obtain ⟨mapped, cut, ingested⟩ := (bind_eq_ok _).mp ingested
  cases ingested
  intro segment member
  obtain ⟨entry, inside, same⟩ := List.mem_filterMap.mp member
  obtain ⟨cue, -, made⟩ := exists_of_mem_mapM cut inside
  cases entry with
  | none => cases same
  | some other =>
      cases same
      exact toTranscriptSegment_owner sourceVersionId episode language rightsStatus made

/-- Text whose cues parse and carry verified labels is ingested. -/
theorem ingestFinalizedSrtText_total {sourceText : List Char} (sourcePath : String)
    {cues : List ParsedSrtCue} (parsed : parseSrt sourceText = .ok cues)
    (timed : ∀ cue ∈ cues, 0 ≤ cue.startMs ∧ cue.startMs < cue.endMs)
    (verified : ∀ cue ∈ cues, ∀ line ∈ cue.lines,
      (SrtPatterns.VERIFIED_SPEAKER_LABEL_PATTERN line).isSome = true) :
    ∃ result, ingestFinalizedSrtText sourceVersionId episode language rightsStatus sourceText
      sourcePath = .ok result := by
  obtain ⟨segments, mapped⟩ := mapM_total fun cue member =>
    toTranscriptSegment_total sourceVersionId episode language rightsStatus (timed cue member).1
      (timed cue member).2 (verified cue member)
  rw [ingestFinalizedSrtText, parsed, ok_bind, mapped, ok_bind]
  exact ⟨_, rfl⟩

end Segments

end Cinegraph
