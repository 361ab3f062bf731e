import Cinegraph.AgentJobs.Job
import Cinegraph.Common.Records

/-!
Event records of an agent job and the privacy scan of their payloads. The
payload scan is the only check of an event that looks at free answer text.
-/

namespace Cinegraph

open Library AgentJobErrorMessages

/-- Payload keys that may not occur at any depth. -/
def forbiddenKeys : List String :=
  ["question", "prompt", "context", "transcript", "text", "exception", "scope", "token",
    "api_key", "provider"]

/-- Markers that no payload text may contain. -/
def forbiddenMarkers : List String := ["api_key", "bearer ", "prompt injection", "exception:"]

def markedText (value : String) : Bool :=
  forbiddenMarkers.any (fun marker => Text.contains (Text.casefold value) marker)

def forbiddenKey (key : String) : Bool := forbiddenKeys.contains (Text.casefold key)

mutual

/-- `_contains_forbidden` on a value; its key is scanned by `forbiddenKey`. -/
def forbiddenValue : Json → Bool
  | .obj items => forbiddenItems items
  | .arr items => forbiddenElements items
  | .str value => markedText value
  | .null | .bool _ | .int _ | .float _ => false

def forbiddenItems : List (String × Json) → Bool
  | [] => false
  | (key, value) :: rest => (forbiddenKey key || forbiddenValue value) || forbiddenItems rest

/-- Array elements are scanned under the empty key, which is not forbidden. -/
def forbiddenElements : List Json → Bool
  | [] => false
  | value :: rest => (forbiddenKey "" || forbiddenValue value) || forbiddenElements rest

end

mutual

/-- `_validate_json_payload`: every number is finite. -/
def finiteNumbers : Json → Bool
  | .float value => value.isFinite
  | .obj items => finiteItems items
  | .arr items => finiteElements items
  | .null | .bool _ | .int _ | .str _ => true

def finiteItems : List (String × Json) → Bool
  | [] => true
  | (_, value) :: rest => finiteNumbers value && finiteItems rest

def finiteElements : List Json → Bool
  | [] => true
  | value :: rest => finiteNumbers value && finiteElements rest

end

structure AgentJobEventFields where
  eventId : UUID
  sequence : Nat
  jobId : UUID
  kind : AgentJobEventKind
  occurredAt : DateTime
  payload : JsonPayload
  deriving DecidableEq

def AgentJobEventFields.check (e : AgentJobEventFields) : Except Raised Unit := do
  reject (e.sequence < 1) EVENT_SEQUENCE
  requireUtc e.occurredAt "occurred_at"
  reject (¬finiteItems e.payload) EVENT_PAYLOAD_FINITE
  reject (forbiddenItems e.payload) EVENT_PAYLOAD_PRIVATE

structure AgentJobEvent extends AgentJobEventFields where
  valid : toAgentJobEventFields.check = .ok ()
  deriving DecidableEq

def AgentJobEvent.make (fields : AgentJobEventFields) : Except Raised AgentJobEvent :=
  construct AgentJobEventFields.check AgentJobEvent.mk fields

theorem AgentJobEvent.make_ok {fields : AgentJobEventFields} {event : AgentJobEvent}
    (h : make fields = .ok event) : event.toAgentJobEventFields = fields := by
  obtain ⟨_, rfl⟩ := construct_eq_ok.mp h
  rfl

theorem AgentJobEventFields.check_eq_ok {fields : AgentJobEventFields} :
    fields.check = .ok () ↔ 1 ≤ fields.sequence ∧ fields.occurredAt.zone = .utc ∧
      finiteItems fields.payload = true ∧ forbiddenItems fields.payload = false := by
  simp [check]
  omega

/-- An event exists for exactly the field values its constructor accepts. -/
theorem AgentJobEvent.make_eq_ok {fields : AgentJobEventFields} (h : fields.check = .ok ()) :
    make fields = .ok ⟨fields, h⟩ := construct_of_check h

theorem AgentJobEvent.make_eq_error (fields : AgentJobEventFields)
    (h : fields.check ≠ .ok ()) : ∃ e, make fields = .error e := construct_of_not h

section ResultPayload

variable [Normalization]

/-- `str(value)` of an optional identifier. -/
def strOptional : Option UUID → String
  | some u => u.str
  | none => "None"

def citationPayload (item : SeriesAgentCitation) : Json :=
  .obj ([
    ("kind", .str item.kind.value),
    ("episode_id", .str item.episode.episodeId.str),
    ("season_number", .int item.episode.position.seasonNumber),
    ("episode_number", .int item.episode.position.episodeNumber),
    ("start_ms", .int item.startMs),
    ("end_ms", .int item.endMs)] ++
    if item.kind = .transcript then [("segment_id", .str (strOptional item.segmentId))]
    else [("claim_id", .str (strOptional item.claimId)),
      ("evidence_id", .str (strOptional item.evidenceId))])

def resultEventPayload (result : SeriesAgentResult) : JsonPayload :=
  if result.isSafeRefusal then [("status", .str "safe_refusal"), ("safe_refusal", .bool true)]
  else [
    ("status", .str "succeeded"),
    ("answer", (result.answer.map Json.str).getD .null),
    ("used_tools", .arr (result.usedTools.map .str)),
    ("citations", .arr (result.citations.map citationPayload))]

end ResultPayload

end Cinegraph
