import Cinegraph.Domain.Episode
import Cinegraph.Library.JsonText

/-! Segments of a transcript and the speakers they may belong to. -/

namespace Cinegraph

open Library

inductive Language where
  | english
  deriving DecidableEq, Repr

inductive RightsStatus where
  | allowed
  | restricted
  | unknown
  deriving DecidableEq, Repr

/-- `isfinite(value) and 0.0 <= value <= 1.0` -/
def isProbability : FloatValue → Bool
  | .finite q => 0 ≤ q && q ≤ 1
  | _ => false

structure SpeakerCandidate where
  speakerId : UUID
  name : String
  confidence : FloatValue
  name_trimmed : Trimmed name
  confidence_unit : isProbability confidence = true

def SpeakerCandidate.make (speakerId : UUID) (name : String) (confidence : FloatValue) :
    Except Raised SpeakerCandidate :=
  if trimmed : Trimmed name then
    if unit : isProbability confidence = true then
      .ok ⟨speakerId, name, confidence, trimmed, unit⟩
    else .error ⟨.invalidModel,
      "Speaker candidate confidence must be a finite value from 0.0 through 1.0."⟩
  else .error ⟨.invalidModel,
    "Speaker candidate name cannot be empty or have leading/trailing whitespace."⟩

theorem SpeakerCandidate.make_total (speakerId : UUID) {name : String} {confidence : FloatValue}
    (trimmed : Trimmed name) (unit : isProbability confidence = true) :
    ∃ candidate, make speakerId name confidence = .ok candidate ∧ candidate.name = name := by
  unfold make
  rw [dif_pos trimmed, dif_pos unit]
  exact ⟨_, rfl, rfl⟩

/-- No two candidates have one name, case apart. -/
def DistinctSpeakers (candidates : List SpeakerCandidate) : Prop :=
  (candidates.map fun c => Text.casefold c.name).Nodup

instance (candidates : List SpeakerCandidate) : Decidable (DistinctSpeakers candidates) :=
  inferInstanceAs (Decidable (List.Nodup _))

/-- The arguments of `TranscriptSegment`. -/
structure SegmentFields where
  segmentId : UUID
  sourceVersionId : UUID
  episode : EpisodeRef
  startMs : Int
  endMs : Int
  text : String
  language : Language
  rightsStatus : RightsStatus
  styleRemoved : Bool
  speakerCandidates : List SpeakerCandidate

structure TranscriptSegment extends SegmentFields where
  start_nonneg : 0 ≤ startMs
  start_before_end : startMs < endMs
  text_trimmed : Trimmed text
  speakers_distinct : DistinctSpeakers speakerCandidates

def SegmentFields.create (fields : SegmentFields) : Except Raised TranscriptSegment :=
  if start : 0 ≤ fields.startMs then
    if order : fields.startMs < fields.endMs then
      if trimmed : Trimmed fields.text then
        if distinct : DistinctSpeakers fields.speakerCandidates then
          .ok ⟨fields, start, order, trimmed, distinct⟩
        else .error ⟨.invalidModel,
          "Transcript segment cannot contain duplicate speaker candidate names."⟩
      else .error ⟨.invalidModel,
        "Transcript segment text cannot be empty or have leading/trailing whitespace."⟩
    else .error ⟨.invalidModel, "Transcript segment end_ms must be greater than start_ms."⟩
  else .error ⟨.invalidModel, "Transcript segment start_ms must be non-negative."⟩

theorem SegmentFields.create_ok {fields : SegmentFields} {segment : TranscriptSegment}
    (created : fields.create = .ok segment) : segment.toSegmentFields = fields := by
  unfold create at created
  split at created
  · split at created
    · split at created
      · split at created
        · cases created
          rfl
        · cases created
      · cases created
    · cases created
  · cases created

theorem SegmentFields.create_total {fields : SegmentFields} (start : 0 ≤ fields.startMs)
    (order : fields.startMs < fields.endMs) (trimmed : Trimmed fields.text)
    (distinct : DistinctSpeakers fields.speakerCandidates) :
    fields.create = .ok ⟨fields, start, order, trimmed, distinct⟩ := by
  unfold create
  rw [dif_pos start, dif_pos order, dif_pos trimmed, dif_pos distinct]

end Cinegraph
