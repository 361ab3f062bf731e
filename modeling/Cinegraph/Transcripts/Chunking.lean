import Cinegraph.Domain.Transcript
import Cinegraph.TranscriptSrt.Service
import Cinegraph.Transcripts.IndexWriter

/-!
Retrieval chunks: overlapping windows of consecutive segments, bounded in number,
characters and time, and never across a long silence.
-/

namespace Cinegraph

open Library

namespace TranscriptErrorMessages

def TRANSCRIPT_CHUNK_SEGMENTS_MUST_BE_NONEMPTY_UNIQUE : String :=
  "Transcript chunk member segment IDs must be non-empty and unique."
def TRANSCRIPT_CHUNK_TIMING_MUST_BE_VALID : String := "Transcript chunk timing must be valid."
def TRANSCRIPT_CHUNK_TEXT_MUST_BE_TRIMMED : String :=
  "Transcript chunk text must be non-empty and trimmed."
def TRANSCRIPT_CHUNK_INPUT_MUST_BE_CHRONOLOGICAL : String :=
  "Transcript chunk input must be chronological and governed consistently."
def TRANSCRIPT_CHUNK_SEGMENT_EXCEEDS_CHARACTER_LIMIT : String :=
  "A transcript cue cannot exceed the configured chunk character limit."

end TranscriptErrorMessages

open TranscriptErrorMessages

structure TranscriptChunkingConfiguration where
  revision : String := TRANSCRIPT_INDEX_REVISION
  maxSegments : Int := 8
  overlapSegments : Int := 2
  maxCharacters : Int := 1200
  maxDurationMs : Int := 90000
  maxInterSegmentGapMs : Int := 10000
  revision_trimmed : Trimmed revision
  bounds_pos : 1 ≤ maxSegments ∧ 1 ≤ maxCharacters ∧ 1 ≤ maxDurationMs ∧ 1 ≤ maxInterSegmentGapMs
  overlap_bounds : 0 ≤ overlapSegments ∧ overlapSegments < maxSegments

def DEFAULT_TRANSCRIPT_CHUNKING_CONFIGURATION : TranscriptChunkingConfiguration where
  revision_trimmed := by decide
  bounds_pos := by decide
  overlap_bounds := by decide

/-- The arguments of `TranscriptRetrievalChunk`. -/
structure TranscriptRetrievalChunkFields where
  chunkId : UUID
  sourceVersionId : UUID
  episode : EpisodeRef
  ordinal : Nat
  memberSegmentIds : List UUID
  startMs : Int
  endMs : Int
  text : String
  language : Language
  rightsStatus : RightsStatus
  indexRevision : String

structure TranscriptRetrievalChunk extends TranscriptRetrievalChunkFields where
  members_unique : memberSegmentIds ≠ [] ∧ memberSegmentIds.Nodup
  timing : 0 ≤ startMs ∧ startMs < endMs
  text_trimmed : Trimmed text

def TranscriptRetrievalChunkFields.create (fields : TranscriptRetrievalChunkFields) :
    Except Raised TranscriptRetrievalChunk :=
  if unique : fields.memberSegmentIds ≠ [] ∧ fields.memberSegmentIds.Nodup then
    if timing : 0 ≤ fields.startMs ∧ fields.startMs < fields.endMs then
      if trimmed : Trimmed fields.text then .ok ⟨fields, unique, timing, trimmed⟩
      else .error ⟨.invalidModel, TRANSCRIPT_CHUNK_TEXT_MUST_BE_TRIMMED⟩
    else .error ⟨.invalidModel, TRANSCRIPT_CHUNK_TIMING_MUST_BE_VALID⟩
  else .error ⟨.invalidModel, TRANSCRIPT_CHUNK_SEGMENTS_MUST_BE_NONEMPTY_UNIQUE⟩

theorem TranscriptRetrievalChunkFields.create_ok {fields : TranscriptRetrievalChunkFields}
    {chunk : TranscriptRetrievalChunk} (created : fields.create = .ok chunk) :
    chunk.toTranscriptRetrievalChunkFields = fields := by
  unfold create at created
  split at created
  · split at created
    · split at created
      · cases created
        rfl
      · cases created
    · cases created
  · cases created

def IdentifierGenerator.transcriptChunkId (revision : String)
    (sourceVersionId seriesId seasonId episodeId : UUID) (segmentIds : List UUID) : UUID :=
  IdentifierTemplates.NAMESPACE.uuid5
    ("cinegraph:transcript-chunk:" ++ revision ++ ":" ++ sourceVersionId.str ++ ":" ++
      seriesId.str ++ ":" ++ seasonId.str ++ ":" ++ episodeId.str ++ ":" ++
      ",".intercalate (segmentIds.map UUID.str))

namespace TranscriptChunkingService

/-- The names of a cue in the order of their first mention. -/
def speakerNames (segment : TranscriptSegment) : List String :=
  segment.speakerCandidates.foldl
    (fun names candidate => if candidate.name ∈ names then names else names ++ [candidate.name]) []

def renderLine (segment : TranscriptSegment) : String :=
  let names := speakerNames segment
  (if names = [] then "" else " / ".intercalate names ++ ": ") ++ segment.text

def render (segments : List TranscriptSegment) : String :=
  Text.strip ("\n".intercalate (segments.map renderLine))

/-- `max(item.end_ms for item in members)` -/
def lastEnd (first : TranscriptSegment) (others : List TranscriptSegment) : Int :=
  others.foldl (fun end_ segment => max end_ segment.endMs) first.endMs

variable (configuration : TranscriptChunkingConfiguration)

/-- What the validation carries from one segment to the next. -/
structure Previous where
  seen : List UUID := []
  start : Int := -1
  end_ : Int := -1
  id : String := ""

/-- `(segment.end_ms, str(segment.segment_id)) < (previous_end, previous_id)` -/
def sortsBefore (segment : TranscriptSegment) (previous : Previous) : Prop :=
  segment.endMs < previous.end_ ∨
    segment.endMs = previous.end_ ∧ segment.segmentId.str < previous.id

instance (segment : TranscriptSegment) (previous : Previous) :
    Decidable (sortsBefore segment previous) := instDecidableOr

def validateSegment (first : TranscriptSegment) (previous : Previous)
    (segment : TranscriptSegment) : Except Raised Previous := do
  reject (configuration.maxCharacters < (render [segment]).length)
    TRANSCRIPT_CHUNK_SEGMENT_EXCEEDS_CHARACTER_LIMIT .invalidModel
  reject (segment.segmentId ∈ previous.seen ∨ segment.startMs < previous.start ∨
    segment.startMs = previous.start ∧ sortsBefore segment previous)
    TRANSCRIPT_CHUNK_INPUT_MUST_BE_CHRONOLOGICAL .invalidModel
  reject (segment.sourceVersionId ≠ first.sourceVersionId ∨ segment.episode ≠ first.episode ∨
    segment.language ≠ first.language ∨ segment.rightsStatus ≠ first.rightsStatus)
    TRANSCRIPT_CHUNK_INPUT_MUST_BE_CHRONOLOGICAL .invalidModel
  return ⟨segment.segmentId :: previous.seen, segment.startMs, segment.endMs, segment.segmentId.str⟩

def validateInput (first : TranscriptSegment) (segments : List TranscriptSegment) :
    Except Raised Previous :=
  segments.foldlM (validateSegment configuration first) {}

inductive SplitReason where
  | end_ | gap | bound
  deriving DecidableEq, Repr

/-- The inner loop: take segments while the window stays within its bounds. -/
def grow (first : TranscriptSegment) :
    (others rest : List TranscriptSegment) →
      List TranscriptSegment × List TranscriptSegment × SplitReason
  | others, [] => (others, [], .end_)
  | others, candidate :: rest =>
      let members := others ++ [candidate]
      if configuration.maxInterSegmentGapMs < candidate.startMs - lastEnd first others then
        (others, candidate :: rest, .gap)
      else if configuration.maxSegments < (first :: members).length then
        (others, candidate :: rest, .bound)
      else if configuration.maxDurationMs < lastEnd first members - first.startMs then
        (others, candidate :: rest, .bound)
      else if configuration.maxCharacters < (render (first :: members)).length ∧
          1 < (first :: members).length then
        (others, candidate :: rest, .bound)
      else grow first members rest

def makeChunk (first : TranscriptSegment) (others : List TranscriptSegment) (ordinal : Nat) :
    Except Raised TranscriptRetrievalChunk :=
  let ids := (first :: others).map fun segment => segment.segmentId
  TranscriptRetrievalChunkFields.create {
    chunkId := IdentifierGenerator.transcriptChunkId configuration.revision first.sourceVersionId
      first.episode.seriesId first.episode.seasonId first.episode.episodeId ids
    sourceVersionId := first.sourceVersionId
    episode := first.episode
    ordinal
    memberSegmentIds := ids
    startMs := first.startMs
    endMs := lastEnd first others
    text := render (first :: others)
    language := first.language
    rightsStatus := first.rightsStatus
    indexRevision := configuration.revision }

/-- Where the next window starts, counted from the start of the one before. -/
def advance (length : Nat) : Nat :=
  (max 1 ((length : Int) - configuration.overlapSegments)).toNat

/-- The outer loop over the segments from the current start on; every turn moves the start, so
their number is enough fuel. -/
def windows : (fuel ordinal : Nat) → List TranscriptSegment →
    Except Raised (List TranscriptRetrievalChunk)
  | 0, _, _ => .ok []
  | _ + 1, _, [] => .ok []
  | fuel + 1, ordinal, first :: following => do
      let (others, rest, splitReason) := grow configuration first [] following
      let chunk ← makeChunk configuration first others ordinal
      let next :=
        if splitReason = .gap then rest
        else (first :: following).drop (advance configuration (first :: others).length)
      let later ← if rest = [] then .ok [] else windows fuel (ordinal + 1) next
      return chunk :: later

def chunk : List TranscriptSegment → Except Raised (List TranscriptRetrievalChunk)
  | [] => .ok []
  | first :: following => do
      let _ ← validateInput configuration first (first :: following)
      windows configuration (first :: following).length 0 (first :: following)

section Origin

variable {configuration}

/-- A chunk is of the version and the episode of its first segment. -/
def FromSegment (segment : TranscriptSegment) (chunk : TranscriptRetrievalChunk) : Prop :=
  chunk.sourceVersionId = segment.sourceVersionId ∧ chunk.episode = segment.episode

theorem makeChunk_from {first : TranscriptSegment} {others : List TranscriptSegment}
    {ordinal : Nat} {chunk : TranscriptRetrievalChunk}
    (made : makeChunk configuration first others ordinal = .ok chunk) : FromSegment first chunk := by
  have fields := TranscriptRetrievalChunkFields.create_ok made
  constructor <;> rw [fields]

theorem grow_rest (first : TranscriptSegment) (others rest : List TranscriptSegment) :
    (grow configuration first others rest).2.1 ⊆ rest := by
  induction rest generalizing others with
  | nil => exact List.Subset.refl _
  | cons candidate rest ih =>
      rw [grow]
      repeat' split
      · exact List.Subset.refl _
      · exact List.Subset.refl _
      · exact List.Subset.refl _
      · exact List.Subset.refl _
      · exact fun _ member => List.mem_cons_of_mem _ (ih _ member)

theorem windows_from {fuel ordinal : Nat} {segments : List TranscriptSegment}
    {chunks : List TranscriptRetrievalChunk}
    (cut : windows configuration fuel ordinal segments = .ok chunks) :
    ∀ chunk ∈ chunks, ∃ segment ∈ segments, FromSegment segment chunk := by
  induction fuel generalizing ordinal segments chunks with
  | zero =>
      cases cut
      exact fun _ member => absurd member List.not_mem_nil
  | succ fuel ih =>
      cases segments with
      | nil =>
          cases cut
          exact fun _ member => absurd member List.not_mem_nil
      | cons first following =>
          have behind := @grow_rest configuration first [] following
          unfold windows at cut
          generalize grow configuration first [] following = grown at cut behind
          obtain ⟨others, rest, splitReason⟩ := grown
          dsimp only at cut
          obtain ⟨made, here, cut⟩ := (bind_eq_ok _).mp cut
          have here_from : ∃ segment ∈ first :: following, FromSegment segment made :=
            ⟨first, List.mem_cons_self, makeChunk_from here⟩
          split at cut
          · cases cut
            intro chunk member
            rw [List.mem_singleton] at member
            exact member ▸ here_from
          · obtain ⟨later, remaining, cut⟩ := (bind_eq_ok _).mp cut
            cases cut
            intro chunk member
            rcases List.mem_cons.mp member with rfl | member
            · exact here_from
            · obtain ⟨segment, inside, origin⟩ := ih remaining chunk member
              refine ⟨segment, ?_, origin⟩
              split at inside
              · exact List.mem_cons_of_mem _ (behind inside)
              · exact List.mem_of_mem_drop inside

theorem chunk_from {segments : List TranscriptSegment} {chunks : List TranscriptRetrievalChunk}
    (cut : chunk configuration segments = .ok chunks) :
    ∀ chunk ∈ chunks, ∃ segment ∈ segments, FromSegment segment chunk := by
  cases segments with
  | nil =>
      cases cut
      exact fun _ member => absurd member List.not_mem_nil
  | cons first following =>
      obtain ⟨-, -, cut⟩ := (bind_eq_ok _).mp cut
      exact windows_from cut

end Origin

end TranscriptChunkingService

end Cinegraph
