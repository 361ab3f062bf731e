import Cinegraph.SpeakerReview.Candidates
import Cinegraph.SpeakerReview.Promotion

/-!
The lines of an aligned subtitle and the candidates that stand for the uncertain ones:
which candidate is built for a line, and what the line becomes once it is decided.
-/

namespace Cinegraph.SpeakerReview

open Library

section Labels

/-- A name that an uncertain label or a script can give a speaker. -/
def IsReviewName (name : List Char) : Prop :=
  (∃ c ∈ name.head?, isLetter c = true) ∧ (∀ c ∈ name, isReviewName c = true) ∧ name.length ≤ 49

/-- A text behind a label: in one piece, and stripped. -/
structure LabelText (text : List Char) : Prop where
  nonempty : text ≠ []
  stripped : Text.stripChars text = text
  unbreaking : Unbreaking text

theorem isReviewName_of_verified {c : Char} (own : SrtPatterns.isVerifiedName c = true) :
    isReviewName c = true := by
  simp [isReviewName, own]

theorem isReviewName_solid {c : Char} (own : isReviewName c = true) :
    isLineBreak c = false ∧ c ≠ ':' := by
  simp only [isReviewName, Bool.or_eq_true, decide_eq_true_eq] at own
  rcases own with (own | rfl) | rfl
  · have all : ∀ n : Fin 128, SrtPatterns.isVerifiedName (Char.ofNat n) = true →
        isLineBreak (Char.ofNat n) = false ∧ Char.ofNat n ≠ ':' := by decide
    have here := all ⟨c.toNat, isVerifiedName_small own⟩
    rw [Char.ofNat_toNat] at here
    exact here own
  · decide
  · decide

theorem UNCERTAIN_SPEAKER_LABEL_PATTERN_eq_some {line name text : List Char} :
    UNCERTAIN_SPEAKER_LABEL_PATTERN line = some (name, text) ↔
      ∃ rest, line = name ++ '?' :: ':' :: rest ∧ labelText rest = some text ∧ IsReviewName name := by
  rw [UNCERTAIN_SPEAKER_LABEL_PATTERN]
  constructor
  · intro found
    split at found
    · rename_i speaker rest named
      obtain ⟨captured, behind, same⟩ := Option.map_eq_some_iff.mp found
      cases same
      obtain ⟨⟨shape, own, -⟩, letter, short⟩ := labelName_eq_some.mp named
      exact ⟨rest, shape, behind, letter, own, short⟩
    · cases found
  · rintro ⟨rest, rfl, behind, letter, own, short⟩
    have named : labelName isReviewName (name ++ '?' :: ':' :: rest) =
        some (name, '?' :: ':' :: rest) := by
      rw [labelName_eq_some]
      refine ⟨⟨rfl, own, ?_⟩, letter, short⟩
      rintro c ⟨⟩
      decide
    rw [named]
    simp [behind]

/-- The text behind a label on a stripped line. -/
theorem labelText_of_stripped {front rest text : List Char}
    (stripped : Text.stripChars (front ++ ':' :: rest) = front ++ ':' :: rest)
    (clean : Unbreaking (front ++ ':' :: rest)) (found : labelText rest = some text) :
    LabelText text := by
  have last := (stripChars_eq_self.mp stripped).2
  rw [List.getLast?_append_of_ne_nil _ (by simp), List.getLast?_cons] at last
  obtain ⟨before, cut⟩ := List.dropWhile_suffix (l := rest) Text.isSpace
  have solid := List.head?_dropWhile_not Text.isSpace rest
  simp only [labelText] at found
  cases left : rest.dropWhile Text.isSpace with
  | nil =>
      rw [left] at found
      cases ended : rest.getLast? with
      | none =>
          rw [ended] at found
          cases found
      | some c =>
          rw [ended] at last
          have space : Text.isSpace c = true := by
            have blank := dropWhile_eq_nil.mp left
            rw [isFilled, List.any_eq_false] at blank
            simpa using blank c (List.mem_of_getLast? ended)
          rw [last c rfl] at space
          cases space
  | cons c more =>
      rw [left] at found cut solid
      dsimp only at found
      split at found
      · cases found
      · cases found
        refine ⟨List.cons_ne_nil c more, ?_, ?_⟩
        · rw [stripChars_eq_self]
          refine ⟨by simpa using solid, fun d ended => ?_⟩
          apply last d
          rw [← cut, List.getLast?_append_of_ne_nil _ (List.cons_ne_nil c more), ended]
          rfl
        · intro d member
          apply clean d
          rw [← cut]
          simp only [List.mem_append, List.mem_cons] at member ⊢
          tauto

theorem LabelText.of_uncertain {line name text : List Char} (stripped : Text.stripChars line = line)
    (clean : Unbreaking line)
    (found : UNCERTAIN_SPEAKER_LABEL_PATTERN line = some (name, text)) :
    LabelText text ∧ IsReviewName name := by
  obtain ⟨rest, rfl, behind, own⟩ := UNCERTAIN_SPEAKER_LABEL_PATTERN_eq_some.mp found
  have shape : name ++ '?' :: ':' :: rest = (name ++ ['?']) ++ ':' :: rest := by simp
  rw [shape] at stripped clean
  exact ⟨labelText_of_stripped stripped clean behind, own⟩

theorem labelText_space {text : List Char} (good : LabelText text) :
    labelText (' ' :: text) = some text := by
  have front := (stripChars_eq_self.mp good.stripped).1
  have clean : '\n' ∉ text := fun member => absurd (good.unbreaking _ member) (by decide)
  rw [labelText, List.dropWhile_cons_of_pos (by decide), dropWhile_eq_self.mpr front]
  cases text with
  | nil => exact absurd rfl good.nonempty
  | cons c more => rw [if_neg (by simpa using clean)]

/-- A decided label is verified when its name has the characters of verified names. -/
theorem isVerified_labelledLine {name text : List Char} (own : IsReviewName name)
    (good : LabelText text) :
    isVerified (labelledLine name text) ↔ ∀ c ∈ name, SrtPatterns.isVerifiedName c = true := by
  rw [isVerified, SrtPatterns.VERIFIED_SPEAKER_LABEL_PATTERN, labelledLine]
  constructor
  · intro verified
    split at verified
    · rename_i speaker rest named
      obtain ⟨⟨shape, each, -⟩, -⟩ := labelName_eq_some.mp named
      have left : ':' ∉ name := fun member => (isReviewName_solid (own.2.1 _ member)).2 rfl
      have right : ':' ∉ speaker := fun member => absurd (each _ member) (by decide)
      have cut := congrArg (List.takeWhile (· ≠ ':')) shape
      have pass {l : List Char} (free : ':' ∉ l) : ∀ c ∈ l, decide (c ≠ ':') = true := by
        intro c member
        exact decide_eq_true fun same => free (same ▸ member)
      rw [List.takeWhile_append_of_pos (pass left), List.takeWhile_append_of_pos (pass right)] at cut
      have same : name = speaker := by simpa using cut
      rwa [same]
    · cases verified
  · intro each
    have named : labelName SrtPatterns.isVerifiedName (name ++ ':' :: ' ' :: text) =
        some (name, ':' :: ' ' :: text) := by
      rw [labelName_eq_some]
      refine ⟨⟨rfl, each, ?_⟩, own.1, own.2.2⟩
      rintro c ⟨⟩
      decide
    rw [named]
    simp [labelText_space good]

theorem labelledLine_stripped {name text : List Char} (own : IsReviewName name)
    (good : LabelText text) :
    Text.stripChars (labelledLine name text) = labelledLine name text ∧
      Unbreaking (labelledLine name text) ∧ isFilled (labelledLine name text) = true := by
  obtain ⟨⟨c, first, letter⟩, each, -⟩ := own
  cases name with
  | nil => cases first
  | cons d name =>
      obtain rfl : d = c := Option.some.inj first
      have solid := isLetter_solid letter
      refine ⟨?_, ?_, ?_⟩
      · rw [stripChars_eq_self, labelledLine]
        constructor
        · rintro e ⟨⟩
          exact solid
        · intro e last
          have behind : (d :: name ++ ':' :: ' ' :: text).getLast? = text.getLast? := by
            rw [List.getLast?_append_of_ne_nil _ (by simp)]
            exact List.getLast?_append_of_ne_nil [':', ' '] good.nonempty
          rw [behind] at last
          exact (stripChars_eq_self.mp good.stripped).2 e last
      · intro e member
        simp only [labelledLine, List.mem_append, List.mem_cons] at member
        rcases member with own | rfl | rfl | own
        · exact (isReviewName_solid (each e (by simpa using own))).1
        · decide
        · decide
        · exact good.unbreaking e own
      · rw [labelledLine, List.cons_append, isFilled_cons, solid]
        rfl

end Labels

section Build

theorem ANY_of_uncertain {line : List Char} {label : List Char × List Char}
    (found : UNCERTAIN_SPEAKER_LABEL_PATTERN line = some label) :
    ANY_SPEAKER_LABEL_PATTERN line = some label := by
  rw [UNCERTAIN_SPEAKER_LABEL_PATTERN] at found
  rw [ANY_SPEAKER_LABEL_PATTERN]
  split at found
  · rename_i speaker rest named
    rw [named]
    exact found
  · cases found

theorem isDigits_uncertain {line : List Char} {label : List Char × List Char}
    (found : UNCERTAIN_SPEAKER_LABEL_PATTERN line = some label) : Text.isDigits line = false := by
  obtain ⟨rest, rfl, -, ⟨c, first, letter⟩, -⟩ := UNCERTAIN_SPEAKER_LABEL_PATTERN_eq_some.mp found
  have all : ∀ n : Fin 128, isLetter (Char.ofNat n) = true →
      Text.isDigits [Char.ofNat n] = false := by decide
  have here := all ⟨c.toNat, isVerifiedName_small (by simp [SrtPatterns.isVerifiedName, letter])⟩
  rw [Char.ofNat_toNat] at here
  have alone := here letter
  cases name : label.1 with
  | nil =>
      rw [name] at first
      cases first
  | cons d rest =>
      rw [name] at first
      obtain rfl : d = c := Option.some.inj first
      rw [Text.isDigits, List.cons_append, List.all_cons]
      rw [Text.isDigits, List.all_cons, List.all_nil, Bool.and_true] at alone
      simp only [ne_eq, reduceCtorEq, not_false_eq_true, decide_true, Bool.true_and] at alone ⊢
      rw [alone, Bool.false_and]

theorem zipIdx_eq_map_range (lines : List (List Char)) :
    lines.zipIdx 1 = (List.range lines.length).map fun i => (lines.getD i [], i + 1) := by
  apply List.ext_getElem
  · simp
  · intro i inside _
    rw [List.length_zipIdx] at inside
    simp [List.getD_eq_getElem?_getD, List.getElem?_eq_getElem inside, Nat.add_comm]

theorem mem_allowedSpeakers {scriptDialogue : List ScriptDialogue} {proposed speaker : String} :
    speaker ∈ allowedSpeakers scriptDialogue proposed ↔
      speaker = proposed ∨ ∃ dialogue ∈ scriptDialogue, dialogue.speaker = speaker := by
  rw [allowedSpeakers, List.mem_mergeSort, List.mem_eraseDups, List.mem_cons, List.mem_map]

/-- A line with a label that is not a number. -/
def isLabelled (line : List Char) : Bool :=
  !Text.isDigits (Text.stripChars line) &&
    (ANY_SPEAKER_LABEL_PATTERN (Text.stripChars line)).isSome

def isUncertain (line : List Char) : Bool :=
  (UNCERTAIN_SPEAKER_LABEL_PATTERN (Text.stripChars line)).isSome

theorem isLabelled_of_uncertain {line : List Char} (uncertain : isUncertain line = true) :
    isLabelled line = true := by
  obtain ⟨label, found⟩ := Option.isSome_iff_exists.mp uncertain
  rw [isLabelled, isDigits_uncertain found, ANY_of_uncertain found]
  rfl

theorem isFilled_of_uncertain {line : List Char} (uncertain : isUncertain line = true) :
    isFilled line = true := by
  obtain ⟨label, found⟩ := Option.isSome_iff_exists.mp uncertain
  obtain ⟨rest, shape, -⟩ := UNCERTAIN_SPEAKER_LABEL_PATTERN_eq_some.mp found
  rw [← isFilled_stripChars, shape, isFilled_append, isFilled_cons]
  simp [show Text.isSpace '?' = false by decide]

/-- The positions of the uncertain lines of a subtitle. -/
def uncertainPositions (lines : List (List Char)) : List Nat :=
  (List.range lines.length).filter fun i => isUncertain (lines.getD i [])

/-- The lines of a list with their positions put through a function. -/
theorem mapIdx_eq_map_range {β : Type} (f : Nat → List Char → β) (lines : List (List Char)) :
    lines.mapIdx f = (List.range lines.length).map fun i => f i (lines.getD i []) := by
  apply List.ext_getElem
  · simp
  · intro i inside _
    rw [List.length_mapIdx] at inside
    simp [List.getD_eq_getElem?_getD, List.getElem?_eq_getElem inside]

theorem mem_uncertainPositions {lines : List (List Char)} {position : Nat} :
    position ∈ uncertainPositions lines ↔
      position < lines.length ∧ isUncertain (lines.getD position []) = true := by
  rw [uncertainPositions, List.mem_filter, List.mem_range]

theorem forall₂_left {α β : Type} {R : α → β → Prop} {as : List α} {bs : List β}
    (all : List.Forall₂ R as bs) : ∀ a ∈ as, ∃ b ∈ bs, R a b := by
  induction all with
  | nil => exact fun a member => absurd member List.not_mem_nil
  | cons here _ ih =>
      intro a member
      rcases List.mem_cons.mp member with rfl | member
      · exact ⟨_, List.mem_cons_self, here⟩
      · obtain ⟨b, inside, related⟩ := ih a member
        exact ⟨b, List.mem_cons_of_mem _ inside, related⟩

theorem positionOf_next {position length : Nat} (inside : position < length) :
    positionOf ((position + 1 : Int) - 1) length = some position := by
  have index : ((position + 1 : Int) - 1) = (position : Int) := by omega
  rw [positionOf, index]
  have notNegative : ¬((position : Int) < 0) := by omega
  simp only [notNegative, if_false]
  rw [if_pos (by omega), Int.toNat_natCast]

variable [Host]

theorem foldlM_labelLine {items : List (List Char × Nat)}
    {before after : List LabelledSubtitleLine × Nat} (run : items.foldlM labelLine before = .ok after) :
    after.1.map (·.lineNumber) =
      before.1.map (·.lineNumber) ++ (items.filter fun item => isLabelled item.1).map (·.2) := by
  induction items generalizing before with
  | nil =>
      cases run
      simp
  | cons item items ih =>
      rw [List.foldlM_cons, bind_eq_ok] at run
      obtain ⟨between, step, run⟩ := run
      rw [ih run, List.filter_cons, isLabelled]
      rw [labelLine] at step
      split at step
      · rename_i digits
        obtain ⟨cueNumber, -, same⟩ := (bind_eq_ok _).mp step
        cases same
        simp [digits]
      · rename_i digits
        split at step
        · rename_i speaker text label
          cases step
          simp [digits, label]
        · rename_i label
          cases step
          simp [digits, label]

/-- What is built for the line at a position. -/
structure CandidateOf (fileName : String) (text : List Char) (episodeKey : EpisodeKey)
    (scriptDialogue : List ScriptDialogue) (candidate : SpeakerReviewCandidate) (position : Nat) :
    Prop where
  file : candidate.sourceFilename = fileName
  line : candidate.lineNumber = position + 1
  label : ∃ name, UNCERTAIN_SPEAKER_LABEL_PATTERN
      (Text.stripChars ((splitLines text).getD position [])) =
        some (name, candidate.dialogueText.toList) ∧
      candidate.proposedSpeaker = Host.upper (String.ofList name)
  allowed : ∀ speaker, speaker ∈ candidate.allowedSpeakers ↔
    speaker = candidate.proposedSpeaker ∨ ∃ dialogue ∈ scriptDialogue, dialogue.speaker = speaker
  hash : candidate.sourceSha256 = sha256Hex text
  identity : ∃ source, source.lineNumber = position + 1 ∧
    candidate.candidateId = candidateId fileName (sha256Hex text) episodeKey source

variable [Similarity] {configuration : SpeakerReviewConfiguration} {fileName : String}
  {text : List Char} {episodeKey : EpisodeKey} {scriptDialogue : List ScriptDialogue}

theorem buildCandidate_eq_ok {labelledLines : List LabelledSubtitleLine}
    {labelled : LabelledSubtitleLine × Nat} {built : Option SpeakerReviewCandidate} {position : Nat}
    (line : labelled.1.lineNumber = position + 1)
    (build : buildCandidate configuration fileName text episodeKey scriptDialogue labelledLines
      labelled = .ok built) :
    (isUncertain ((splitLines text).getD position []) = false ∧ built = none) ∨
      (isUncertain ((splitLines text).getD position []) = true ∧ ∃ candidate, built = some candidate ∧
        CandidateOf fileName text episodeKey scriptDialogue candidate position) := by
  rw [buildCandidate] at build
  dsimp only at build
  rw [line, Nat.add_sub_cancel] at build
  rw [isUncertain]
  split at build
  · rename_i certain
    cases build
    exact Or.inl ⟨by rw [certain]; rfl, rfl⟩
  · rename_i name captured label
    refine Or.inr ⟨by rw [label]; rfl, ?_⟩
    rw [CandidateFields.create] at build
    split at build
    · split at build
      · cases build
        refine ⟨_, rfl, rfl, ?_, ⟨name, ?_, rfl⟩, fun speaker => mem_allowedSpeakers, rfl, labelled.1,
          line, rfl⟩
        · simp
        · rw [label, String.toList_ofList]
      · cases build
    · cases build

/-- The candidates of a list of labelled lines stand for its uncertain ones, in their order. -/
theorem mapM_buildCandidate {labelledLines : List LabelledSubtitleLine}
    {items : List (LabelledSubtitleLine × Nat)} {positions : List Nat}
    {built : List (Option SpeakerReviewCandidate)}
    (lines : items.map (·.1.lineNumber) = positions.map (· + 1))
    (build : items.mapM (buildCandidate configuration fileName text episodeKey scriptDialogue
      labelledLines) = .ok built) :
    List.Forall₂ (CandidateOf fileName text episodeKey scriptDialogue) (built.filterMap id)
      (positions.filter fun i => isUncertain ((splitLines text).getD i [])) := by
  induction items generalizing positions built with
  | nil =>
      cases build
      cases positions with
      | nil => exact .nil
      | cons position positions => cases lines
  | cons item items ih =>
      cases positions with
      | nil => cases lines
      | cons position positions =>
          rw [List.map_cons, List.map_cons] at lines
          obtain ⟨line, lines⟩ := List.cons.inj lines
          rw [List.mapM_cons, bind_eq_ok] at build
          obtain ⟨first, one, build⟩ := build
          obtain ⟨others, more, same⟩ := (bind_eq_ok _).mp build
          cases same
          have rest := ih lines more
          rcases buildCandidate_eq_ok line one with ⟨certain, rfl⟩ | ⟨uncertain, candidate, rfl, own⟩
          · rw [List.filter_cons, if_neg (by rw [certain]; exact Bool.noConfusion)]
            exact rest
          · rw [List.filter_cons, if_pos uncertain]
            exact .cons own rest

/-- A file has one candidate for each of its uncertain lines. -/
theorem buildFileCandidates_eq_ok {candidates : List SpeakerReviewCandidate}
    (build : buildFileCandidates configuration fileName text episodeKey scriptDialogue =
      .ok candidates) :
    List.Forall₂ (CandidateOf fileName text episodeKey scriptDialogue) candidates
      (uncertainPositions (splitLines text)) := by
  simp only [buildFileCandidates, bind_eq_ok] at build
  obtain ⟨labelledLines, labelled, built, loop, same⟩ := build
  cases same
  have numbers : labelledLines.map (·.lineNumber) =
      ((List.range (splitLines text).length).filter fun i =>
        isLabelled ((splitLines text).getD i [])).map (· + 1) := by
    rw [labelledSubtitleLines] at labelled
    cases walk : ((splitLines text).zipIdx 1).foldlM labelLine ([], 0) with
    | error e =>
        rw [walk] at labelled
        cases labelled
    | ok last =>
        rw [walk] at labelled
        cases labelled
        have shape := foldlM_labelLine walk
        rw [List.map_nil, List.nil_append, zipIdx_eq_map_range, List.filter_map, List.map_map] at shape
        exact shape
  have items : labelledLines.zipIdx.map (·.1.lineNumber) =
      ((List.range (splitLines text).length).filter fun i =>
        isLabelled ((splitLines text).getD i [])).map (· + 1) := by
    have firsts : labelledLines.zipIdx.map (·.1.lineNumber) =
        (labelledLines.zipIdx.map Prod.fst).map (·.lineNumber) := by
      rw [List.map_map]
      rfl
    rw [firsts, List.zipIdx_map_fst, numbers]
  have found := mapM_buildCandidate items loop
  rw [List.filter_filter] at found
  have same : (List.range (splitLines text).length).filter (fun i =>
      isUncertain ((splitLines text).getD i []) && isLabelled ((splitLines text).getD i [])) =
        uncertainPositions (splitLines text) := by
    apply List.filter_congr
    intro i _
    cases uncertain : isUncertain ((splitLines text).getD i []) with
    | false => rfl
    | true => rw [isLabelled_of_uncertain uncertain]; rfl
  rwa [same] at found

end Build

section Evidence

theorem slice_ne_nil {α : Type} {items : List α} {start stop : Int} (first : 0 ≤ start)
    (order : start < stop) (last : stop ≤ items.length) : slice items start stop ≠ [] := by
  rw [slice, if_neg (by omega), ← List.length_pos_iff_ne_nil, List.length_drop, List.length_take]
  omega

variable [Host] [Similarity] {configuration : SpeakerReviewConfiguration}

/-- A labelled line is evidence for itself. -/
theorem buildEvidence_ne_nil (radius : 0 ≤ configuration.subtitleContextRadius)
    {target : LabelledSubtitleLine} {targetIndex : Nat} {subtitleLines : List LabelledSubtitleLine}
    (inside : targetIndex < subtitleLines.length) (scriptDialogue : List ScriptDialogue) :
    buildEvidence configuration target targetIndex subtitleLines scriptDialogue ≠ [] := by
  simp only [buildEvidence]
  generalize screen : List.map (screenplayEvidence target.text) _ = screenplay
  have neighbours : slice subtitleLines (max 0 (targetIndex - configuration.subtitleContextRadius))
      (min (subtitleLines.length : Int) (targetIndex + configuration.subtitleContextRadius + 1)) ≠ [] := by
    apply slice_ne_nil <;> omega
  generalize slice subtitleLines _ _ = near at neighbours ⊢
  rcases List.eq_nil_or_concat (near.map subtitleEvidence ++ screenplay) with none_left | ⟨items, item, shape⟩
  · rw [List.append_eq_nil_iff, List.map_eq_nil_iff] at none_left
    exact absurd none_left.1 neighbours
  · rw [shape, List.concat_eq_append, List.foldl_append]
    generalize items.foldl _ _ = unique
    apply List.ne_nil_of_mem
    exact (Dict.mem_values_iff _ _).mpr ⟨item.evidenceId, Dict.get?_set_self unique _ item⟩

theorem buildFileCandidates_total (radius : 0 ≤ configuration.subtitleContextRadius)
    {fileName : String} {text : List Char} {labelledLines : List LabelledSubtitleLine}
    (labelled : labelledSubtitleLines text = .ok labelledLines) (episodeKey : EpisodeKey)
    (scriptDialogue : List ScriptDialogue) :
    ∃ candidates, buildFileCandidates configuration fileName text episodeKey scriptDialogue =
      .ok candidates := by
  have each : ∀ item ∈ labelledLines.zipIdx, ∃ built,
      buildCandidate configuration fileName text episodeKey scriptDialogue labelledLines item =
        .ok built := by
    rintro ⟨line, index⟩ member
    have inside : index < labelledLines.length := by
      have := List.snd_lt_of_mem_zipIdx member
      omega
    rw [buildCandidate]
    dsimp only
    split
    · exact ⟨none, rfl⟩
    · rw [CandidateFields.create, dif_pos (mem_allowedSpeakers.mpr (Or.inl rfl)),
        dif_pos (buildEvidence_ne_nil radius inside scriptDialogue)]
      exact ⟨_, rfl⟩
  obtain ⟨built, loop⟩ := mapM_total each
  rw [buildFileCandidates, labelled, ok_bind, loop]
  exact ⟨_, rfl⟩

end Evidence

section Files

/-- The candidates of one file. -/
def candidatesOf [Host] (fileName : String) (candidates : List SpeakerReviewCandidate) :
    List SpeakerReviewCandidate :=
  candidates.filter fun candidate => candidate.sourceFilename = fileName

variable [Host] {fileName : String} {candidates : List SpeakerReviewCandidate}

theorem candidatesOf_eq_self (own : ∀ candidate ∈ candidates, candidate.sourceFilename = fileName) :
    candidatesOf fileName candidates = candidates :=
  List.filter_eq_self.mpr fun candidate member => decide_eq_true (own candidate member)

theorem candidatesOf_eq_nil
    (other : ∀ candidate ∈ candidates, candidate.sourceFilename ≠ fileName) :
    candidatesOf fileName candidates = [] := by
  apply List.filter_eq_nil_iff.mpr
  intro candidate member
  simpa using other candidate member

/-- Files with names of their own keep the candidates that were built for them. -/
theorem candidatesOf_flatten {alignedSubtitles : List AlignedSubtitle}
    {perFile : List (List SpeakerReviewCandidate)} {P : AlignedSubtitle → List SpeakerReviewCandidate → Prop}
    (own : List.Forall₂ (fun subtitle built => P subtitle built ∧
      ∀ candidate ∈ built, candidate.sourceFilename = subtitle.name) alignedSubtitles perFile)
    (distinct : (alignedSubtitles.map (·.name)).Nodup) {subtitle : AlignedSubtitle}
    (member : subtitle ∈ alignedSubtitles) : P subtitle (candidatesOf subtitle.name perFile.flatten) := by
  induction own with
  | nil => cases member
  | @cons first built others rest here later ih =>
      rw [List.map_cons, List.nodup_cons, List.mem_map] at distinct
      obtain ⟨apart, distinct⟩ := distinct
      have split : candidatesOf subtitle.name (built :: rest).flatten =
          candidatesOf subtitle.name built ++ candidatesOf subtitle.name rest.flatten :=
        List.filter_append ..
      have elsewhere : ∀ candidate ∈ rest.flatten, ∃ other ∈ others,
          candidate.sourceFilename = other.name := by
        intro candidate inside
        obtain ⟨list, listed, inside⟩ := List.mem_flatten.mp inside
        obtain ⟨other, member, -, named⟩ := forall₂_left later.flip list listed
        exact ⟨other, member, named candidate inside⟩
      rw [split]
      rcases List.mem_cons.mp member with rfl | member
      · rw [candidatesOf_eq_self here.2, candidatesOf_eq_nil, List.append_nil]
        · exact here.1
        · intro candidate inside same
          obtain ⟨other, listed, named⟩ := elsewhere candidate inside
          exact apart ⟨other, listed, named.symm.trans same⟩
      · rw [candidatesOf_eq_nil, List.nil_append]
        · exact ih distinct member
        · intro candidate inside same
          exact apart ⟨subtitle, member, same.symm.trans (here.2 candidate inside)⟩

/-- The candidates of a file in a run that was built of several files. -/
theorem buildSpeakerReviewCandidates_eq_ok [Similarity] [CharacterData]
    {configuration : SpeakerReviewConfiguration} {sourcePdfName : String} {scriptText : List Char}
    {alignedSubtitles : List AlignedSubtitle}
    (built : buildSpeakerReviewCandidates configuration sourcePdfName scriptText alignedSubtitles =
      .ok candidates)
    (distinct : (alignedSubtitles.map (·.name)).Nodup) {subtitle : AlignedSubtitle}
    (member : subtitle ∈ alignedSubtitles) :
    ∃ episodeKey scriptDialogue,
      List.Forall₂ (CandidateOf subtitle.name subtitle.text episodeKey scriptDialogue)
        (candidatesOf subtitle.name candidates) (uncertainPositions (splitLines subtitle.text)) ∧
      ∀ dialogue ∈ scriptDialogue, IsScriptName dialogue.speaker := by
  simp only [buildSpeakerReviewCandidates, bind_eq_ok, reject_eq_ok] at built
  obtain ⟨_, -, dialogueByEpisode, script, perFile, loop, same⟩ := built
  cases same
  apply candidatesOf_flatten (P := fun subtitle own => ∃ episodeKey scriptDialogue,
    List.Forall₂ (CandidateOf subtitle.name subtitle.text episodeKey scriptDialogue) own
      (uncertainPositions (splitLines subtitle.text)) ∧
    ∀ dialogue ∈ scriptDialogue, IsScriptName dialogue.speaker) _ distinct member
  apply (forall₂_of_mapM loop).imp
  intro subtitle own build
  simp only [bind_eq_ok, reject_eq_ok] at build
  obtain ⟨episodeKey, -, _, some_dialogue, build⟩ := build
  have each := buildFileCandidates_eq_ok build
  refine ⟨⟨episodeKey, _, each, ?_⟩, ?_⟩
  · cases found : dialogueByEpisode.get? episodeKey with
    | none => exact fun _ absent => absurd absent List.not_mem_nil
    | some dialogues => exact parseScriptDialogue_named script episodeKey dialogues found
  · intro candidate inside
    obtain ⟨position, -, here⟩ := forall₂_left each candidate inside
    exact here.file

end Files

section Relabelling

variable [Host]

/-- Every candidate is decided to have a speaker that it may be given. -/
def Assigned (candidates : List SpeakerReviewCandidate)
    (decisions : Dict String SpeakerReviewDecision) : Prop :=
  ∀ candidate ∈ candidates, ∃ speaker ∈ candidate.allowedSpeakers,
    decidedSpeaker decisions candidate = some speaker

variable {fileName : String} {text : List Char} {episodeKey : EpisodeKey}
  {scriptDialogue : List ScriptDialogue} {decisions : Dict String SpeakerReviewDecision}

/-- An untouched candidate line is relabelled. -/
theorem relabel_total {lines : List (List Char)} {candidate : SpeakerReviewCandidate} {position : Nat}
    (own : CandidateOf fileName text episodeKey scriptDialogue candidate position)
    (inside : position < lines.length)
    (same : lines.getD position [] = (splitLines text).getD position []) {speaker : String}
    (decided : decidedSpeaker decisions candidate = some speaker) :
    relabel (sha256Hex text) decisions lines candidate =
      .ok (lines.set position (labelledLine speaker.toList candidate.dialogueText.toList)) := by
  obtain ⟨name, label, -⟩ := own.label
  have hashed : ¬candidate.sourceSha256 ≠ sha256Hex text := not_not.mpr own.hash
  rw [relabel, reject_of_not hashed, ok_bind, decided, own.line, positionOf_next inside]
  simp only [orRaise, ok_bind, same, label, reject_of_not (not_not.mpr rfl)]
  rfl

theorem foldlM_relabel_total {lines : List (List Char)} {candidates : List SpeakerReviewCandidate}
    {positions : List Nat}
    (own : List.Forall₂ (CandidateOf fileName text episodeKey scriptDialogue) candidates positions)
    (distinct : positions.Nodup) (inside : ∀ p ∈ positions, p < lines.length)
    (same : ∀ p ∈ positions, lines.getD p [] = (splitLines text).getD p [])
    (assigned : Assigned candidates decisions) :
    ∃ last, candidates.foldlM (relabel (sha256Hex text) decisions) lines = .ok last := by
  induction own generalizing lines with
  | nil => exact ⟨lines, rfl⟩
  | @cons candidate position candidates positions here _ ih =>
      obtain ⟨fresh, distinct⟩ := List.nodup_cons.mp distinct
      obtain ⟨speaker, -, decided⟩ := assigned candidate List.mem_cons_self
      rw [List.foldlM_cons, relabel_total here (inside position List.mem_cons_self)
        (same position List.mem_cons_self) decided, ok_bind]
      apply ih distinct
      · intro p member
        rw [List.length_set]
        exact inside p (List.mem_cons_of_mem _ member)
      · intro p member
        have apart : position ≠ p := fun same => fresh (same ▸ member)
        rw [List.getD_eq_getElem?_getD, List.getElem?_set_ne apart, ← List.getD_eq_getElem?_getD]
        exact same p (List.mem_cons_of_mem _ member)
      · exact fun other member => assigned other (List.mem_cons_of_mem _ member)

variable {candidates : List SpeakerReviewCandidate}

/-- A line without an uncertain label stays as it is. -/
theorem decidedLine_certain
    (own : List.Forall₂ (CandidateOf fileName text episodeKey scriptDialogue) candidates
      (uncertainPositions (splitLines text))) {position : Nat}
    (certain : isUncertain ((splitLines text).getD position []) = false) (line : List Char) :
    decidedLine candidates decisions (splitLines text).length position line = line := by
  rw [decidedLine]
  split
  · rename_i candidate found
    have here := List.find?_some found
    obtain ⟨p, member, related⟩ := forall₂_left own candidate
      (List.mem_reverse.mp (List.mem_of_find?_eq_some found))
    obtain ⟨inside, uncertain⟩ := mem_uncertainPositions.mp member
    rw [related.line, positionOf_next inside, decide_eq_true_eq, Option.some.injEq] at here
    rw [here, certain] at uncertain
    cases uncertain
  · rfl

/-- An uncertain line gets one of its allowed speakers. -/
theorem decidedLine_uncertain
    (own : List.Forall₂ (CandidateOf fileName text episodeKey scriptDialogue) candidates
      (uncertainPositions (splitLines text))) (assigned : Assigned candidates decisions)
    {position : Nat} (inside : position < (splitLines text).length)
    (uncertain : isUncertain ((splitLines text).getD position []) = true) (line : List Char) :
    ∃ candidate ∈ candidates, CandidateOf fileName text episodeKey scriptDialogue candidate position ∧
      ∃ speaker ∈ candidate.allowedSpeakers, decidedSpeaker decisions candidate = some speaker ∧
        decidedLine candidates decisions (splitLines text).length position line =
          labelledLine speaker.toList candidate.dialogueText.toList := by
  rw [decidedLine]
  split
  · rename_i candidate found
    have here := List.find?_some found
    have member := List.mem_reverse.mp (List.mem_of_find?_eq_some found)
    obtain ⟨p, listed, related⟩ := forall₂_left own candidate member
    obtain ⟨within, -⟩ := mem_uncertainPositions.mp listed
    rw [related.line, positionOf_next within, decide_eq_true_eq, Option.some.injEq] at here
    subst here
    obtain ⟨speaker, allowed, decided⟩ := assigned candidate member
    rw [decided]
    exact ⟨candidate, member, related, speaker, allowed, decided, rfl⟩
  · rename_i nothing
    obtain ⟨candidate, member, related⟩ := forall₂_left own.flip position
      (mem_uncertainPositions.mpr ⟨inside, uncertain⟩)
    have found := List.find?_eq_none.mp nothing candidate (List.mem_reverse.mpr member)
    rw [related.line, positionOf_next inside] at found
    exact absurd (decide_eq_true rfl) found

end Relabelling

section Names

theorem isReviewName_small {c : Char} (own : isReviewName c = true) : c.toNat < 128 := by
  simp only [isReviewName, Bool.or_eq_true, decide_eq_true_eq] at own
  rcases own with (own | rfl) | rfl
  · exact isVerifiedName_small own
  · decide
  · decide

theorem toUpper_reviewName {c : Char} (own : isReviewName c = true) :
    isReviewName c.toUpper = true ∧
      SrtPatterns.isVerifiedName c.toUpper = SrtPatterns.isVerifiedName c := by
  have all : ∀ n : Fin 128, isReviewName (Char.ofNat n) = true →
      isReviewName (Char.ofNat n).toUpper = true ∧
        SrtPatterns.isVerifiedName (Char.ofNat n).toUpper =
          SrtPatterns.isVerifiedName (Char.ofNat n) := by decide
  have here := all ⟨c.toNat, isReviewName_small own⟩
  rw [Char.ofNat_toNat] at here
  exact here own

theorem isVerifiedName_normalized {c : Char} (own : isNormalizedName c = true) :
    SrtPatterns.isVerifiedName c = true := by
  have all : ∀ n : Fin 128, isNormalizedName (Char.ofNat n) = true →
      SrtPatterns.isVerifiedName (Char.ofNat n) = true := by decide
  have here := all ⟨c.toNat, isNormalizedName_small own⟩
  rw [Char.ofNat_toNat] at here
  exact here own

theorem scriptName_verified {name : String} (own : IsScriptName name) :
    IsReviewName name.toList ∧ ∀ c ∈ name.toList, SrtPatterns.isVerifiedName c = true := by
  have verified : ∀ c ∈ name.toList, SrtPatterns.isVerifiedName c = true :=
    fun c member => isVerifiedName_normalized (own.2.1 c member)
  exact ⟨⟨own.1, fun c member => isReviewName_of_verified (verified c member), own.2.2⟩, verified⟩

variable [Host]

/-- The proposed speaker of an uncertain label. -/
theorem upper_reviewName {name : List Char} (own : IsReviewName name) :
    IsReviewName (Host.upper (String.ofList name)).toList ∧
      ((∀ c ∈ (Host.upper (String.ofList name)).toList, SrtPatterns.isVerifiedName c = true) ↔
        ∀ c ∈ name, SrtPatterns.isVerifiedName c = true) := by
  have upper : (Host.upper (String.ofList name)).toList = name.map Char.toUpper := by
    rw [Host.upper_ascii, String.toList_ofList, String.toList_ofList]
    rw [String.toList_ofList, List.all_eq_true]
    exact fun c member => decide_eq_true (isReviewName_small (own.2.1 c member))
  obtain ⟨⟨c, first, letter⟩, each, short⟩ := own
  rw [upper]
  refine ⟨⟨⟨c.toUpper, ?_, isLetter_toUpper letter⟩, ?_, ?_⟩, ?_⟩
  · rw [List.head?_map, first]
    rfl
  · intro d member
    obtain ⟨e, inside, rfl⟩ := List.mem_map.mp member
    exact (toUpper_reviewName (each e inside)).1
  · rwa [List.length_map]
  · rw [List.forall_mem_map]
    exact forall₂_congr fun d inside => by rw [(toUpper_reviewName (each d inside)).2]

end Names

section Cues

/-- The cues of a subtitle: its runs of lines that are not blank. -/
def fileCues (text : List Char) : List (List (List Char)) :=
  groups isFilled ((splitLines text).map Text.stripChars)

/-- The positions of the lines of each cue. -/
def cuePositions (text : List Char) : List (List Nat) :=
  groups (fun i => isFilled ((splitLines text).getD i [])) (List.range (splitLines text).length)

theorem mem_cuePositions {text : List Char} {run : List Nat} (member : run ∈ cuePositions text) :
    run ≠ [] ∧ ∀ i ∈ run, i < (splitLines text).length ∧
      isFilled ((splitLines text).getD i []) = true := by
  obtain ⟨nonempty, each⟩ := mem_groupsFrom (fun _ inside => absurd inside List.not_mem_nil) member
  refine ⟨nonempty, fun i inside => ?_⟩
  obtain ⟨source, filled⟩ := each i inside
  exact ⟨List.mem_range.mp (source.resolve_left List.not_mem_nil), filled⟩

/-- Changing lines without filling or blanking one leaves the cues in their places. -/
theorem groups_changed {text : List Char} (f : Nat → List Char)
    (same : ∀ i < (splitLines text).length,
      isFilled (f i) = isFilled ((splitLines text).getD i [])) :
    groups isFilled ((List.range (splitLines text).length).map f) =
      (cuePositions text).map (List.map f) := by
  rw [groups, ← List.map_nil, groupsFrom_map (fun i => isFilled ((splitLines text).getD i [])) f
    isFilled [] fun i inside => same i (List.mem_range.mp inside)]
  rfl

theorem fileCues_eq (text : List Char) : fileCues text =
    (cuePositions text).map (List.map fun i => Text.stripChars ((splitLines text).getD i [])) := by
  have plain : (splitLines text).map Text.stripChars =
      (splitLines text).mapIdx fun _ line => Text.stripChars line := by
    apply List.ext_getElem <;> simp
  rw [fileCues, plain, mapIdx_eq_map_range, groups_changed _ fun i _ => isFilled_stripChars _]

theorem fileCue_mem {text : List Char} {run : List Nat} (member : run ∈ cuePositions text) :
    run.map (fun i => Text.stripChars ((splitLines text).getD i [])) ∈ fileCues text := by
  rw [fileCues_eq]
  exact List.mem_map_of_mem member

theorem unbreaking_line (text : List Char) (i : Nat) : Unbreaking ((splitLines text).getD i []) := by
  have empty : Unbreaking [] := fun c member => absurd member List.not_mem_nil
  rw [List.getD_eq_getElem?_getD]
  cases found : (splitLines text)[i]? with
  | none => exact empty
  | some line => exact unbreaking_splitLinesFrom empty line (List.mem_of_getElem? found)

variable [Host] {fileName : String} {text : List Char} {episodeKey : EpisodeKey}
  {scriptDialogue : List ScriptDialogue} {candidates : List SpeakerReviewCandidate}
  {decisions : Dict String SpeakerReviewDecision}

theorem CandidateOf.captured {candidate : SpeakerReviewCandidate} {position : Nat}
    (own : CandidateOf fileName text episodeKey scriptDialogue candidate position) :
    LabelText candidate.dialogueText.toList ∧ ∃ name, IsReviewName name ∧
      UNCERTAIN_SPEAKER_LABEL_PATTERN (Text.stripChars ((splitLines text).getD position [])) =
        some (name, candidate.dialogueText.toList) ∧
      candidate.proposedSpeaker = Host.upper (String.ofList name) := by
  obtain ⟨name, label, proposed⟩ := own.label
  obtain ⟨good, review⟩ := LabelText.of_uncertain (stripChars_stripChars _)
    (fun c member => unbreaking_line text position c (stripChars_subset member)) label
  exact ⟨good, name, review, label, proposed⟩

theorem CandidateOf.reviewName {candidate : SpeakerReviewCandidate} {position : Nat}
    (own : CandidateOf fileName text episodeKey scriptDialogue candidate position)
    (script : ∀ dialogue ∈ scriptDialogue, IsScriptName dialogue.speaker) {speaker : String}
    (allowed : speaker ∈ candidate.allowedSpeakers) : IsReviewName speaker.toList := by
  obtain ⟨-, name, review, -, proposed⟩ := own.captured
  rcases (own.allowed speaker).mp allowed with rfl | ⟨dialogue, member, rfl⟩
  · rw [proposed]
    exact (upper_reviewName review).1
  · exact (scriptName_verified (script dialogue member)).1

/-- What an uncertain line is decided to be. -/
theorem decidedLine_shape
    (own : List.Forall₂ (CandidateOf fileName text episodeKey scriptDialogue) candidates
      (uncertainPositions (splitLines text)))
    (script : ∀ dialogue ∈ scriptDialogue, IsScriptName dialogue.speaker)
    (assigned : Assigned candidates decisions) {i : Nat} (inside : i < (splitLines text).length) :
    let line := (splitLines text).getD i []
    let decided := decidedLine candidates decisions (splitLines text).length i line
    (isUncertain line = false ∧ decided = line) ∨
      (isUncertain line = true ∧ ∃ candidate ∈ candidates, ∃ speaker ∈ candidate.allowedSpeakers,
        CandidateOf fileName text episodeKey scriptDialogue candidate i ∧
        IsReviewName speaker.toList ∧ LabelText candidate.dialogueText.toList ∧
        decidedSpeaker decisions candidate = some speaker ∧
        decided = labelledLine speaker.toList candidate.dialogueText.toList) := by
  intro line decided
  cases uncertain : isUncertain line with
  | false => exact Or.inl ⟨rfl, decidedLine_certain own uncertain line⟩
  | true =>
      obtain ⟨candidate, member, related, speaker, allowed, chosen, shape⟩ :=
        decidedLine_uncertain own assigned inside uncertain line
      exact Or.inr ⟨rfl, candidate, member, speaker, allowed, related,
        related.reviewName script allowed, related.captured.1, chosen, shape⟩

/-- The decided cues stand where the cues of the file stand. -/
theorem decidedCues_eq
    (own : List.Forall₂ (CandidateOf fileName text episodeKey scriptDialogue) candidates
      (uncertainPositions (splitLines text)))
    (script : ∀ dialogue ∈ scriptDialogue, IsScriptName dialogue.speaker)
    (assigned : Assigned candidates decisions) :
    decidedCues text candidates decisions = (cuePositions text).map (List.map fun i =>
      Text.stripChars (decidedLine candidates decisions (splitLines text).length i
        ((splitLines text).getD i []))) := by
  have lines : decidedLines text candidates decisions = (List.range (splitLines text).length).map
      fun i => decidedLine candidates decisions (splitLines text).length i
        ((splitLines text).getD i []) := mapIdx_eq_map_range _ _
  rw [decidedCues, lines, cueBlocks_joinLines, List.map_map]
  · apply groups_changed
    intro i inside
    rw [Function.comp_apply, isFilled_stripChars]
    rcases decidedLine_shape own script assigned inside with ⟨-, same⟩ |
      ⟨uncertain, candidate, -, speaker, -, -, name, good, -, shape⟩
    · rw [same]
    · rw [shape, isFilled_of_uncertain uncertain, (labelledLine_stripped name good).2.2]
  · intro line member
    obtain ⟨i, inside, rfl⟩ := List.mem_map.mp member
    rcases decidedLine_shape own script assigned (List.mem_range.mp inside) with ⟨-, same⟩ |
      ⟨-, candidate, -, speaker, -, -, name, good, -, shape⟩
    · rw [same]
      exact unbreaking_line text i
    · rw [shape]
      exact (labelledLine_stripped name good).2.1

end Cues

end Cinegraph.SpeakerReview
