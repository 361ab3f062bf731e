import Cinegraph.Library.Dict
import Cinegraph.SpeakerReview.Models
import Cinegraph.TranscriptSrt.Service

/-!
The dialogue of a script by episode, read from the text of its pages, and which names a
script can give its speakers.
-/

namespace Cinegraph

open Library

structure EpisodeKey where
  season : Nat
  episode : Nat
  deriving DecidableEq, Repr

structure ScriptDialogue where
  episodeKey : EpisodeKey
  speaker : String
  text : List Char
  order : Nat

/-- The digits at the start of a text. -/
def digitRun (text : List Char) : List Char × List Char :=
  text.span fun c => (Text.digitValue? c).isSome

/-- What stands behind the number of an episode, before its title. -/
def titleFollows : List Char → Bool
  | ':' :: tail => tail.head?.any Text.isSpace
  | tail => tail.head?.any Text.isSpace

/-- `EPISODE_HEADER_PATTERN` on a stripped line: the digits of the season and the episode. White
space, or a colon and white space, has to follow; the title is what is left. -/
def EPISODE_HEADER_PATTERN (line : List Char) : Option (List Char × List Char) :=
  match digitRun line with
  | (season, x :: rest) =>
      let (episode, tail) := digitRun rest
      if season ≠ [] ∧ (x = 'x' ∨ x = 'X') ∧ episode ≠ [] ∧ titleFollows tail = true then
        some (season, episode)
      else none
  | _ => none

/-- `SPEAKER_LINE_PATTERN`: white space may stand before the colon too. -/
def SPEAKER_LINE_PATTERN (line : List Char) : Option (List Char × List Char) :=
  let speaker := (line.takeWhile SrtPatterns.isVerifiedName).take 49
  match (line.drop speaker.length).dropWhile Text.isSpace with
  | ':' :: rest =>
      if speaker.head?.any isLetter then (labelText rest).map fun text => (speaker, text) else none
  | _ => none

section Parser

variable [SpeakerReview.Host]

/-- `normalize_speaker` -/
def normalizeSpeaker (value : List Char) : String :=
  SpeakerReview.Host.upper (String.ofList (Text.stripChars (subRuns Text.isSpace false value)))

def TITLE_CARD_TEXTS : List String := ["MODERN FAMILY", "OPENING CREDITS", "END CREDITS"]

/-- `_is_stage_direction`, on a stripped line. -/
def isStageDirection (line : List Char) : Bool :=
  line = [] || (line.head? = some '[' && line.getLast? = some ']') ||
    TITLE_CARD_TEXTS.contains (SpeakerReview.Host.upper (String.ofList line))

/-- What the walk over the lines of a script remembers. The last dialogue, where there is one,
ends the list of the current episode. -/
structure ScriptWalk where
  dialogueByEpisode : Dict EpisodeKey (List ScriptDialogue) := .empty
  currentEpisode : Option EpisodeKey := none
  lastDialogue : Option ScriptDialogue := none
  order : Nat := 0

namespace ScriptWalk

def dialogueOf (walk : ScriptWalk) (episode : EpisodeKey) : List ScriptDialogue :=
  (walk.dialogueByEpisode.get? episode).getD []

/-- Classify one line of a script. -/
def next (walk : ScriptWalk) (rawLine : List Char) : Except Raised ScriptWalk :=
  let line := Text.stripChars rawLine
  match EPISODE_HEADER_PATTERN line with
  | some (season, episode) => do
      let season ← orRaise (Text.readNat season) (valueError "invalid literal for int()")
      let episode ← orRaise (Text.readNat episode) (valueError "invalid literal for int()")
      let key : EpisodeKey := ⟨season, episode⟩
      return { walk with
        dialogueByEpisode := walk.dialogueByEpisode.set key (walk.dialogueOf key)
        currentEpisode := some key
        lastDialogue := none }
  | none =>
      match walk.currentEpisode with
      | none => .ok walk
      | some episode =>
          match SPEAKER_LINE_PATTERN line with
          | some (speaker, text) =>
              let dialogue : ScriptDialogue :=
                ⟨episode, normalizeSpeaker speaker, Text.stripChars text, walk.order⟩
              .ok { walk with
                dialogueByEpisode := walk.dialogueByEpisode.set episode
                  (walk.dialogueOf episode ++ [dialogue])
                lastDialogue := some dialogue
                order := walk.order + 1 }
          | none =>
              if isStageDirection line then .ok { walk with lastDialogue := none }
              else
                match walk.lastDialogue with
                | none => .ok walk
                | some dialogue =>
                    -- the continued dialogue is shared with the list it ends
                    let continued :=
                      { dialogue with text := Text.stripChars (dialogue.text ++ ' ' :: line) }
                    .ok { walk with
                      dialogueByEpisode := walk.dialogueByEpisode.set episode
                        ((walk.dialogueOf episode).dropLast ++ [continued])
                      lastDialogue := some continued }

end ScriptWalk

/-- `_parse_script_dialogue` -/
def parseScriptDialogue (content : List Char) :
    Except Raised (Dict EpisodeKey (List ScriptDialogue)) :=
  (·.dialogueByEpisode) <$> (splitLines content).foldlM ScriptWalk.next {}

end Parser

/-- A name that a script can give a speaker. -/
def IsScriptName (name : String) : Prop :=
  (∃ c ∈ name.toList.head?, isLetter c = true) ∧ (∀ c ∈ name.toList, isNormalizedName c = true) ∧
    name.toList.length ≤ 49

section Names

/-- Every speaker that a walk has met has a script name. -/
structure ScriptWalk.Named (walk : ScriptWalk) : Prop where
  filed : ∀ key dialogues, walk.dialogueByEpisode.get? key = some dialogues →
    ∀ dialogue ∈ dialogues, IsScriptName dialogue.speaker
  last : ∀ dialogue ∈ walk.lastDialogue, IsScriptName dialogue.speaker

namespace ScriptWalk.Named

variable {walk : ScriptWalk}

theorem dialogueOf (named : walk.Named) (episode : EpisodeKey) :
    ∀ dialogue ∈ walk.dialogueOf episode, IsScriptName dialogue.speaker := by
  rw [ScriptWalk.dialogueOf]
  cases found : walk.dialogueByEpisode.get? episode with
  | none => exact fun _ member => absurd member List.not_mem_nil
  | some dialogues => exact named.filed episode dialogues found

theorem set (named : walk.Named) {episode : EpisodeKey} {dialogues : List ScriptDialogue}
    (all : ∀ dialogue ∈ dialogues, IsScriptName dialogue.speaker) (key : EpisodeKey)
    (found : List ScriptDialogue)
    (listed : (walk.dialogueByEpisode.set episode dialogues).get? key = some found) :
    ∀ dialogue ∈ found, IsScriptName dialogue.speaker := by
  rw [Dict.get?_set] at listed
  split at listed
  · cases listed
    exact all
  · exact named.filed key found listed

end ScriptWalk.Named

variable [SpeakerReview.Host]

theorem normalizeSpeaker_eq {speaker : List Char}
    (own : ∀ c ∈ speaker, SrtPatterns.isVerifiedName c = true) :
    normalizeSpeaker speaker = normalizeSpeakerName speaker := by
  rw [normalizeSpeaker, SpeakerReview.Host.upper_ascii, String.toList_ofList, normalizeSpeakerName]
  rw [String.toList_ofList, List.all_eq_true]
  intro c member
  rcases mem_subRuns (stripChars_subset member) with rfl | member
  · decide
  · exact decide_eq_true (isVerifiedName_small (own c member))

/-- The speakers of a script have names that a verified label can carry. -/
theorem normalizeSpeaker_isScriptName {line speaker text : List Char}
    (found : SPEAKER_LINE_PATTERN line = some (speaker, text)) :
    IsScriptName (normalizeSpeaker speaker) := by
  simp only [SPEAKER_LINE_PATTERN] at found
  split at found
  · split at found
    · rename_i letter
      obtain ⟨captured, -, same⟩ := Option.map_eq_some_iff.mp found
      obtain ⟨rfl, -⟩ := Prod.mk.inj same
      have own : ∀ c ∈ (line.takeWhile SrtPatterns.isVerifiedName).take 49,
          SrtPatterns.isVerifiedName c = true :=
        fun c member => List.mem_takeWhile_imp (List.mem_of_mem_take member)
      have short : ((line.takeWhile SrtPatterns.isVerifiedName).take 49).length ≤ 49 := by
        rw [List.length_take]
        omega
      generalize (line.takeWhile SrtPatterns.isVerifiedName).take 49 = speaker at letter own short ⊢
      cases speaker with
      | nil => cases letter
      | cons c rest =>
          rw [List.head?_cons, Option.any_some] at letter
          have solid := isLetter_solid letter
          have filled : isFilled (c :: rest) = true := by
            rw [isFilled_cons, solid]
            rfl
          rw [normalizeSpeaker_eq own]
          refine ⟨⟨c.toUpper, ?_, isLetter_toUpper letter⟩, (normalizeSpeakerName_name filled own).2, ?_⟩
          · rw [normalizeSpeakerName, String.toList_ofList, subRuns, if_neg (by simp [solid]),
              stripChars_cons _ solid]
            rfl
          · have run := length_subRuns_le Text.isSpace false (c :: rest)
            have cut := length_stripChars_le (subRuns Text.isSpace false (c :: rest))
            rw [normalizeSpeakerName, String.toList_ofList, List.length_map]
            omega
    · cases found
  · cases found

theorem ScriptWalk.Named.next {walk after : ScriptWalk} {line : List Char} (named : walk.Named)
    (step : walk.next line = .ok after) : after.Named := by
  have nothing : ∀ dialogue ∈ (none : Option ScriptDialogue), IsScriptName dialogue.speaker :=
    fun _ member => by cases member
  simp only [ScriptWalk.next] at step
  split at step
  · simp only [bind_eq_ok, orRaise_eq_ok] at step
    obtain ⟨season, -, episode, -, same⟩ := step
    cases same
    exact ⟨named.set (named.dialogueOf _), nothing⟩
  · split at step
    · cases step
      exact named
    · rename_i episode _
      split at step
      · rename_i speaker text found
        have name := normalizeSpeaker_isScriptName found
        cases step
        refine ⟨named.set ?_, fun dialogue last => ?_⟩
        · intro dialogue member
          rcases List.mem_append.mp member with before | now
          · exact named.dialogueOf episode dialogue before
          · rw [List.mem_singleton.mp now]
            exact name
        · cases last
          exact name
      · split at step
        · cases step
          exact ⟨named.filed, nothing⟩
        · split at step
          · cases step
            exact named
          · rename_i dialogue last
            have name := named.last dialogue last
            cases step
            refine ⟨named.set ?_, fun continued last => ?_⟩
            · intro continued member
              rcases List.mem_append.mp member with before | now
              · exact named.dialogueOf episode continued (List.dropLast_subset _ before)
              · rw [List.mem_singleton.mp now]
                exact name
            · cases last
              exact name

/-- The dialogue of a script is spoken under script names. -/
theorem parseScriptDialogue_named {content : List Char}
    {dialogueByEpisode : Dict EpisodeKey (List ScriptDialogue)}
    (parsed : parseScriptDialogue content = .ok dialogueByEpisode) (key : EpisodeKey)
    (dialogues : List ScriptDialogue) (found : dialogueByEpisode.get? key = some dialogues) :
    ∀ dialogue ∈ dialogues, IsScriptName dialogue.speaker := by
  rw [parseScriptDialogue] at parsed
  cases run : (splitLines content).foldlM ScriptWalk.next {} with
  | error e =>
      rw [run] at parsed
      cases parsed
  | ok last =>
      rw [run] at parsed
      cases parsed
      have start : ScriptWalk.Named {} :=
        ⟨fun _ _ found => absurd found (by simp), fun _ member => absurd member (by simp)⟩
      have named := foldlM_preserves ScriptWalk.Named
        (fun _ _ _ _ named step => named.next step) start run
      exact named.filed key dialogues found

end Names

end Cinegraph
