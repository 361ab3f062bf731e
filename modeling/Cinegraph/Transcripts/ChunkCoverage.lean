import Cinegraph.Library.Blocks
import Cinegraph.Library.Spans
import Cinegraph.Transcripts.Chunking

/-!
The chunks of an accepted episode: windows of its segments that leave no segment out, each
within every bound of the configuration.
-/

namespace Cinegraph.TranscriptChunkingService

open Library

/-- The segments pass `_validate_input`, or there are none. -/
def Accepted (configuration : TranscriptChunkingConfiguration) :
    List TranscriptSegment → Prop
  | [] => True
  | first :: following =>
      ∃ previous, validateInput configuration first (first :: following) = .ok previous

/-- The bounds of the configuration, of the members of one chunk. -/
structure WithinBounds (configuration : TranscriptChunkingConfiguration)
    (members : List TranscriptSegment) : Prop where
  count : members.length ≤ configuration.maxSegments
  characters : (render members).length ≤ configuration.maxCharacters
  duration : ∀ first second others, members = first :: second :: others →
    lastEnd first (second :: others) - first.startMs ≤ configuration.maxDurationMs
  gap : ∀ first others candidate later, members = first :: (others ++ candidate :: later) →
    candidate.startMs - lastEnd first others ≤ configuration.maxInterSegmentGapMs

/-- The chunks are the windows of the segments at the spans, numbered from `ordinal` on. -/
structure CutsFrom (configuration : TranscriptChunkingConfiguration) (ordinal : Nat)
    (segments : List TranscriptSegment) (chunks : List TranscriptRetrievalChunk)
    (spans : List (Nat × Nat)) : Prop where
  members : chunks.map (fun chunk => chunk.memberSegmentIds) =
    spans.map fun span => (window segments span).map fun segment => segment.segmentId
  texts : chunks.map (fun chunk => chunk.text) = spans.map fun span => render (window segments span)
  ordinals : chunks.map (fun chunk => chunk.ordinal) = List.range' ordinal chunks.length
  cover : Spans.Cover segments.length spans
  bounded : ∀ span ∈ spans, WithinBounds configuration (window segments span)

/-- What the validation leaves behind for the loop: ids once each, and no cue too long alone. -/
structure Checked (configuration : TranscriptChunkingConfiguration)
    (segments : List TranscriptSegment) : Prop where
  short : ∀ segment ∈ segments, (render [segment]).length ≤ configuration.maxCharacters
  unique : (segments.map fun segment => segment.segmentId).Nodup

variable {configuration : TranscriptChunkingConfiguration}

section Validation

theorem validateSegment_ok {first segment : TranscriptSegment} {previous next : Previous}
    (checked : validateSegment configuration first previous segment = .ok next) :
    (render [segment]).length ≤ configuration.maxCharacters ∧ segment.segmentId ∉ previous.seen ∧
      next.seen = segment.segmentId :: previous.seen := by
  unfold validateSegment at checked
  simp only [reject_bind_eq_ok, not_lt, not_or] at checked
  obtain ⟨short, ⟨fresh, -⟩, -, checked⟩ := checked
  cases checked
  exact ⟨short, fresh, rfl⟩

theorem foldlM_validateSegment {first : TranscriptSegment} {segments : List TranscriptSegment}
    {previous last : Previous}
    (checked : segments.foldlM (validateSegment configuration first) previous = .ok last) :
    Checked configuration segments ∧
      ∀ segment ∈ segments, segment.segmentId ∉ previous.seen := by
  induction segments generalizing previous with
  | nil =>
      exact ⟨⟨fun _ member => absurd member List.not_mem_nil, List.nodup_nil⟩,
        fun _ member => absurd member List.not_mem_nil⟩
  | cons segment segments ih =>
      rw [List.foldlM_cons] at checked
      obtain ⟨next, here, checked⟩ := (bind_eq_ok _).mp checked
      obtain ⟨short, fresh, seen⟩ := validateSegment_ok here
      obtain ⟨later, unseen⟩ := ih checked
      rw [seen] at unseen
      refine ⟨⟨?_, ?_⟩, ?_⟩
      · exact List.forall_mem_cons.mpr ⟨short, later.short⟩
      · rw [List.map_cons, List.nodup_cons]
        refine ⟨?_, later.unique⟩
        intro again
        obtain ⟨other, member, same⟩ := List.mem_map.mp again
        exact unseen other member (same ▸ List.mem_cons_self)
      · rw [List.forall_mem_cons]
        exact ⟨fresh, fun other member old =>
          unseen other member (List.mem_cons_of_mem _ old)⟩

theorem Accepted.checked {segments : List TranscriptSegment}
    (accepted : Accepted configuration segments) : Checked configuration segments := by
  cases segments with
  | nil => exact ⟨fun _ member => absurd member List.not_mem_nil, List.nodup_nil⟩
  | cons first following =>
      obtain ⟨last, checked⟩ := accepted
      exact (foldlM_validateSegment checked).1

theorem Checked.sublist {segments part : List TranscriptSegment}
    (checked : Checked configuration segments) (inside : part.Sublist segments) :
    Checked configuration part where
  short segment member := checked.short segment (inside.subset member)
  unique := checked.unique.sublist (inside.map _)

end Validation

section Window

theorem lastEnd_concat (first candidate : TranscriptSegment) (others : List TranscriptSegment) :
    lastEnd first (others ++ [candidate]) = max (lastEnd first others) candidate.endMs := by
  rw [lastEnd, List.foldl_append]
  rfl

theorem endMs_le_lastEnd (first : TranscriptSegment) (others : List TranscriptSegment) :
    first.endMs ≤ lastEnd first others := by
  induction others using List.reverseRecOn with
  | nil => exact le_rfl
  | append_singleton others candidate ih =>
      rw [lastEnd_concat]
      exact le_max_of_le_left ih

theorem WithinBounds.single {first : TranscriptSegment}
    (short : (render [first]).length ≤ configuration.maxCharacters) :
    WithinBounds configuration [first] where
  count := configuration.bounds_pos.1
  characters := short
  duration first second others shape := by
    cases shape
  gap first others candidate later shape := by
    have lengths := congrArg List.length shape
    simp only [List.length_cons, List.length_append, List.length_nil] at lengths
    omega

/-- The checks of one turn of the inner loop keep the bounds. -/
theorem WithinBounds.concat {first candidate : TranscriptSegment} {others : List TranscriptSegment}
    (before : WithinBounds configuration (first :: others))
    (near : candidate.startMs - lastEnd first others ≤ configuration.maxInterSegmentGapMs)
    (count : (first :: (others ++ [candidate])).length ≤ configuration.maxSegments)
    (duration : lastEnd first (others ++ [candidate]) - first.startMs ≤
      configuration.maxDurationMs)
    (characters : (render (first :: (others ++ [candidate]))).length ≤
      configuration.maxCharacters) :
    WithinBounds configuration (first :: (others ++ [candidate])) where
  count := count
  characters := characters
  duration head second tail shape := by
    obtain ⟨rfl, same⟩ := List.cons.inj shape
    rw [← same]
    exact duration
  gap head earlier next later shape := by
    obtain ⟨rfl, same⟩ := List.cons.inj shape
    rcases List.eq_nil_or_concat later with rfl | ⟨inner, last, rfl⟩
    · obtain ⟨rfl, one⟩ := List.append_inj' same rfl
      cases one
      exact near
    · have split : others ++ [candidate] = (earlier ++ next :: inner) ++ [last] := by
        rw [same, List.append_assoc, List.cons_append, List.concat_eq_append]
      have shorter := (List.append_inj' split rfl).1
      exact before.gap first earlier next inner (by rw [shorter])

/-- The inner loop takes a stretch of the segments and stays within the bounds. -/
theorem grow_spec {first : TranscriptSegment} {others : List TranscriptSegment}
    (rest : List TranscriptSegment) (before : WithinBounds configuration (first :: others)) :
    ∃ taken left reason, grow configuration first others rest = (others ++ taken, left, reason) ∧
      rest = taken ++ left ∧ WithinBounds configuration (first :: (others ++ taken)) := by
  induction rest generalizing others with
  | nil => exact ⟨[], [], .end_, by rw [grow, List.append_nil], rfl, by rwa [List.append_nil]⟩
  | cons candidate rest ih =>
      have stop (reason : SplitReason)
          (stopped : grow configuration first others (candidate :: rest) =
            (others, candidate :: rest, reason)) :
          ∃ taken left reason, grow configuration first others (candidate :: rest) =
              (others ++ taken, left, reason) ∧ candidate :: rest = taken ++ left ∧
            WithinBounds configuration (first :: (others ++ taken)) :=
        ⟨[], candidate :: rest, reason, by rw [stopped, List.append_nil], rfl,
          by rwa [List.append_nil]⟩
      by_cases far : configuration.maxInterSegmentGapMs < candidate.startMs - lastEnd first others
      · exact stop .gap (by rw [grow, if_pos far])
      by_cases many : configuration.maxSegments < (first :: (others ++ [candidate])).length
      · exact stop .bound (by rw [grow, if_neg far, if_pos many])
      by_cases long : configuration.maxDurationMs <
          lastEnd first (others ++ [candidate]) - first.startMs
      · exact stop .bound (by rw [grow, if_neg far, if_neg many, if_pos long])
      have several : 1 < (first :: (others ++ [candidate])).length := by
        simp
      by_cases wide : configuration.maxCharacters <
          (render (first :: (others ++ [candidate]))).length
      · exact stop .bound (by
          rw [grow, if_neg far, if_neg many, if_neg long, if_pos ⟨wide, several⟩])
      · have after := before.concat (not_lt.mp far) (not_lt.mp many) (not_lt.mp long)
          (not_lt.mp wide)
        obtain ⟨taken, left, reason, grown, same, bounded⟩ := ih after
        refine ⟨candidate :: taken, left, reason, ?_, by rw [same, List.cons_append], ?_⟩
        · rw [grow, if_neg far, if_neg many, if_neg long, if_neg (fun both => wide both.1), grown,
            List.append_assoc, List.singleton_append]
        · rwa [List.append_assoc, List.singleton_append] at bounded

end Window

section Made

theorem isFilled_renderLine (segment : TranscriptSegment) :
    isFilled (renderLine segment).toList = true := by
  obtain ⟨some_text, stripped⟩ := segment.text_trimmed
  have filled : isFilled segment.text.toList = true := by
    refine isFilled_of_stripped ?_ fun none_left => some_text (String.toList_eq_nil_iff.mp none_left)
    have chars := congrArg String.toList stripped
    rwa [Text.strip, String.toList_ofList] at chars
  rw [renderLine, String.toList_append, isFilled_append, filled, Bool.or_true]

theorem render_trimmed (first : TranscriptSegment) (others : List TranscriptSegment) :
    Trimmed (render (first :: others)) := by
  have filled : isFilled ("\n".intercalate ((first :: others).map renderLine)).toList = true := by
    cases others with
    | nil =>
        rw [List.map_singleton, String.intercalate_singleton]
        exact isFilled_renderLine first
    | cons second others =>
        rw [List.map_cons, List.map_cons, String.intercalate_cons_cons, String.toList_append,
          String.toList_append, isFilled_append, isFilled_append, isFilled_renderLine]
        rfl
  rw [render, Text.strip]
  constructor
  · intro blank
    have none_left := congrArg String.toList blank
    rw [String.toList_ofList] at none_left
    rw [← isFilled_stripChars, none_left] at filled
    cases filled
  · rw [Text.strip, String.toList_ofList, stripChars_stripChars]

theorem makeChunk_total (configuration : TranscriptChunkingConfiguration) (ordinal : Nat)
    {first : TranscriptSegment} {others : List TranscriptSegment}
    (unique : ((first :: others).map fun segment => segment.segmentId).Nodup) :
    ∃ chunk, makeChunk configuration first others ordinal = .ok chunk ∧
      chunk.memberSegmentIds = (first :: others).map (fun segment => segment.segmentId) ∧
      chunk.text = render (first :: others) ∧ chunk.ordinal = ordinal := by
  have timing : 0 ≤ first.startMs ∧ first.startMs < lastEnd first others :=
    ⟨first.start_nonneg, lt_of_lt_of_le first.start_before_end (endMs_le_lastEnd first others)⟩
  have some_id : (first :: others).map (fun segment => segment.segmentId) ≠ [] := by
    rw [List.map_cons]
    exact List.cons_ne_nil _ _
  rw [makeChunk, TranscriptRetrievalChunkFields.create, dif_pos ⟨some_id, unique⟩, dif_pos timing,
    dif_pos (render_trimmed first others)]
  exact ⟨_, rfl, rfl, rfl, rfl⟩

end Made

section Loop

theorem advance_bounds (configuration : TranscriptChunkingConfiguration) {length : Nat}
    (some_member : 0 < length) :
    0 < advance configuration length ∧ advance configuration length ≤ length := by
  have overlap := configuration.overlap_bounds.1
  rw [advance]
  omega

/-- One chunk of the outer loop before the chunks of what is left behind its start. -/
theorem CutsFrom.cons {ordinal start : Nat} {segments taken left : List TranscriptSegment}
    {chunk : TranscriptRetrievalChunk} {chunks : List TranscriptRetrievalChunk}
    {spans : List (Nat × Nat)} (whole : segments = taken ++ left)
    (made : chunk.memberSegmentIds = taken.map (fun segment => segment.segmentId) ∧
      chunk.text = render taken ∧ chunk.ordinal = ordinal)
    (bounded : WithinBounds configuration taken) (moved : 0 < start)
    (touching : start ≤ taken.length)
    (later : CutsFrom configuration (ordinal + 1) (segments.drop start) chunks spans) :
    CutsFrom configuration ordinal segments (chunk :: chunks)
      ((0, taken.length) :: spans.map (Spans.shift start)) := by
  have first_window : window segments (0, taken.length) = taken := by
    rw [whole, window_prefix]
  have stops : taken.length ≤ segments.length := by
    rw [whole, List.length_append]
    omega
  refine ⟨?_, ?_, ?_, ?_, ?_⟩
  · rw [List.map_cons, List.map_cons, List.map_map, first_window, made.1, later.members]
    simp only [Function.comp_def, window_shift]
  · rw [List.map_cons, List.map_cons, List.map_map, first_window, made.2.1, later.texts]
    simp only [Function.comp_def, window_shift]
  · rw [List.map_cons, made.2.2, later.ordinals, List.length_cons, List.range'_succ]
  · have cover := later.cover
    rw [List.length_drop] at cover
    exact cover.cons moved touching stops
  · rw [List.forall_mem_cons, first_window, List.forall_mem_map]
    refine ⟨bounded, fun span member => ?_⟩
    rw [window_shift]
    exact later.bounded span member

theorem CutsFrom.last {ordinal : Nat} {segments : List TranscriptSegment}
    {chunk : TranscriptRetrievalChunk} (some_segment : 0 < segments.length)
    (made : chunk.memberSegmentIds = segments.map (fun segment => segment.segmentId) ∧
      chunk.text = render segments ∧ chunk.ordinal = ordinal)
    (bounded : WithinBounds configuration segments) :
    CutsFrom configuration ordinal segments [chunk] [(0, segments.length)] := by
  have whole : window segments (0, segments.length) = segments := by
    have taken := window_prefix segments []
    rwa [List.append_nil] at taken
  refine ⟨?_, ?_, ?_, Spans.Cover.whole some_segment, ?_⟩
  · rw [List.map_singleton, List.map_singleton, whole, made.1]
  · rw [List.map_singleton, List.map_singleton, whole, made.2.1]
  · rw [List.map_singleton, made.2.2]
    rfl
  · intro span member
    rw [List.mem_singleton.mp member, whole]
    exact bounded

/-- The outer loop, from any start on: it has fuel for the segments that are left. -/
theorem windows_cover {fuel : Nat} (ordinal : Nat) {segments : List TranscriptSegment}
    (checked : Checked configuration segments) (some_segment : segments ≠ [])
    (enough : segments.length ≤ fuel) :
    ∃ chunks spans, windows configuration fuel ordinal segments = .ok chunks ∧
      CutsFrom configuration ordinal segments chunks spans := by
  induction fuel generalizing ordinal segments with
  | zero => exact absurd (List.length_eq_zero_iff.mp (Nat.le_zero.mp enough)) some_segment
  | succ fuel ih =>
      cases segments with
      | nil => exact absurd rfl some_segment
      | cons first following =>
          have alone : WithinBounds configuration [first] :=
            .single (checked.short first List.mem_cons_self)
          obtain ⟨taken, left, reason, grown, same, bounded⟩ := grow_spec following alone
          rw [List.nil_append] at grown bounded
          have whole : first :: following = (first :: taken) ++ left := by
            rw [same, List.cons_append]
          have part : (first :: taken).Sublist (first :: following) := by
            rw [whole]
            exact List.sublist_append_left _ _
          obtain ⟨chunk, here, made⟩ :=
            makeChunk_total configuration ordinal (checked.sublist part).unique
          rw [windows, grown]
          dsimp only
          rw [here]
          by_cases ended : left = []
          · refine ⟨[chunk], [(0, (first :: following).length)], ?_, ?_⟩
            · refine (bind_eq_ok _).mpr ⟨chunk, rfl, ?_⟩
              rw [if_pos ended]
              rfl
            · rw [ended, List.append_nil] at whole
              rw [whole]
              exact .last (Nat.succ_pos _) made bounded
          · have some_member : 0 < (first :: taken).length := Nat.succ_pos _
            -- behind a gap the next window starts where this one stops
            have next : ∃ start, 0 < start ∧ start ≤ (first :: taken).length ∧
                (if reason = .gap then left else (first :: following).drop
                  (advance configuration (first :: taken).length)) =
                  (first :: following).drop start := by
              by_cases gap : reason = .gap
              · refine ⟨(first :: taken).length, some_member, Nat.le_refl _, ?_⟩
                rw [if_pos gap, whole, List.drop_left]
              · have ⟨moved, touching⟩ := advance_bounds configuration some_member
                exact ⟨_, moved, touching, by rw [if_neg gap]⟩
            obtain ⟨start, moved, touching, next⟩ := next
            have shorter : (first :: taken).length < (first :: following).length := by
              rw [whole, List.length_append]
              have := List.length_pos_iff.mpr ended
              omega
            have remaining : (first :: following).drop start ≠ [] := by
              rw [ne_eq, List.drop_eq_nil_iff]
              omega
            obtain ⟨chunks, spans, cut, cuts⟩ := ih (ordinal + 1)
              (checked.sublist (List.drop_sublist start _)) remaining (by
                rw [List.length_drop]
                omega)
            refine ⟨chunk :: chunks, _, ?_, cuts.cons whole made bounded moved touching⟩
            refine (bind_eq_ok _).mpr ⟨chunk, rfl, ?_⟩
            rw [if_neg ended, next]
            exact (bind_eq_ok _).mpr ⟨chunks, cut, rfl⟩

/-- Every accepted episode is cut, and the chunks cover it within the bounds. -/
theorem chunk_covers (configuration : TranscriptChunkingConfiguration)
    (segments : List TranscriptSegment) (accepted : Accepted configuration segments) :
    ∃ chunks spans, chunk configuration segments = .ok chunks ∧
      CutsFrom configuration 0 segments chunks spans := by
  cases segments with
  | nil =>
      refine ⟨[], [], rfl, rfl, rfl, rfl, Spans.Cover.empty, ?_⟩
      exact fun _ member => absurd member List.not_mem_nil
  | cons first following =>
      obtain ⟨chunks, spans, cut, cuts⟩ := windows_cover 0 accepted.checked
        (List.cons_ne_nil _ _) (Nat.le_refl _)
      obtain ⟨last, checked⟩ := accepted
      exact ⟨chunks, spans, (bind_eq_ok _).mpr ⟨last, checked, cut⟩, cuts⟩

namespace Samples

def question : TranscriptSegment where
  segmentId := ⟨1⟩
  sourceVersionId := ⟨10⟩
  episode := ⟨⟨20⟩, ⟨21⟩, ⟨22⟩, ⟨1, 1, EpisodePosition.first_pos, EpisodePosition.first_pos⟩⟩
  startMs := 0
  endMs := 2000
  text := "Where is she?"
  language := .english
  rightsStatus := .allowed
  styleRemoved := false
  speakerCandidates := []
  start_nonneg := by decide
  start_before_end := by decide
  text_trimmed := by decide
  speakers_distinct := by decide

/-- The answer comes after a silence that is longer than the default allows. -/
def answer : TranscriptSegment :=
  { question with
    segmentId := ⟨2⟩, startMs := 14000, endMs := 15000, text := "Gone."
    start_nonneg := by decide, start_before_end := by decide, text_trimmed := by decide }

theorem chunk_covers_scene :
    ∃ chunks spans, chunk DEFAULT_TRANSCRIPT_CHUNKING_CONFIGURATION [question, answer] = .ok chunks ∧
      CutsFrom DEFAULT_TRANSCRIPT_CHUNKING_CONFIGURATION 0 [question, answer] chunks spans :=
  chunk_covers _ _ ⟨_, rfl⟩

end Samples

end Loop

end Cinegraph.TranscriptChunkingService
