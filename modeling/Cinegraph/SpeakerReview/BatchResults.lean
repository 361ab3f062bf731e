import Cinegraph.Library.Dict
import Cinegraph.SpeakerReview.Artifacts

/-!
The parser of batch outputs. Whatever a line holds, a verdict that comes out of it
names an allowed speaker and cites evidence of its own candidate.
-/

namespace Cinegraph.SpeakerReview

open Library Json

namespace SpeakerReviewErrorMessages

def CANDIDATE_IDENTIFIER_MISMATCH : String :=
  "Model response candidate ID does not match the batch request."

def MODEL_SPEAKER_NOT_ALLOWED : String := "Model selected a speaker outside the episode allowlist."

def MODEL_EVIDENCE_NOT_ALLOWED : String :=
  "Model cited evidence outside the supplied evidence set."

def MODEL_RESPONSE_MALFORMED : String :=
  "The model response did not contain valid structured output."

def BATCH_REQUEST_FAILED (customId : String) : String :=
  "OpenAI Batch request failed for " ++ customId ++ "."

end SpeakerReviewErrorMessages

open SpeakerReviewErrorMessages

section Results

variable [Host]

structure SpeakerReviewStructuredOutput where
  candidateId : String
  action : SpeakerReviewAction
  speaker : String
  confidence : HostFloat
  evidenceIds : List String
  rationale : String

/-- `SpeakerReviewStructuredOutput.model_validate_json`, a check of the schema library. -/
abbrev StructuredReader := String → Except Raised SpeakerReviewStructuredOutput

/-- The text behind the last occurrence of a separator and the text before it. -/
def splitLast (separator : List Char) : List Char → Option (List Char × List Char)
  | [] => none
  | c :: text =>
      match splitLast separator text with
      | some (before, after) => some (c :: before, after)
      | none =>
          if separator.isPrefixOf (c :: text) then some ([], (c :: text).drop separator.length)
          else none

/-- `candidate_id, pass_id = custom_id.rsplit(separator, maxsplit=1)` -/
def splitCustomId (separator customId : String) : Except Raised (String × String) :=
  if separator = "" then .error (valueError "empty separator")
  else
    match splitLast separator.toList customId.toList with
    | some (before, after) => .ok (String.ofList before, String.ofList after)
    | none => .error (valueError "not enough values to unpack (expected 2, got 1)")

def outputTextOf (part : Json) : Option String :=
  match part with
  | .obj items =>
      match items.lookup "type", items.lookup "text" with
      | some (.str "output_text"), some (.str text) => some text
      | _, _ => none
  | _ => none

/-- The text of the first output part of a message. -/
def messageText (item : Json) : Option String :=
  match item with
  | .obj items =>
      match items.lookup "type", items.lookup "content" with
      | some (.str "message"), some (.arr content) => content.findSome? outputTextOf
      | _, _ => none
  | _ => none

def extractOutputText (body : JsonPayload) : Except Raised String :=
  let nested : Except Raised String :=
    match body.lookup "output" with
    | some (.arr output) =>
        match output.findSome? messageText with
        | some text => .ok text
        | none => .error (valueError MODEL_RESPONSE_MALFORMED)
    | _ => .error (valueError MODEL_RESPONSE_MALFORMED)
  match body.lookup "output_text" with
  | some (.str direct) => if direct ≠ "" then .ok direct else nested
  | _ => nested

/-- The candidates under their ids. -/
abbrev CandidateMap := String → Option SpeakerReviewCandidate

def parseResultLine (validate : StructuredReader) (result : Json) (candidates : CandidateMap)
    (configuration : SpeakerReviewConfiguration) : Except Raised SpeakerReviewVerdict := do
  let customId := strOf (← itemOf result "custom_id")
  let (candidateId, passId) ← splitCustomId configuration.customIdSeparator customId
  let candidate ← orRaise (candidates candidateId) ⟨.keyError, candidateId⟩
  let response ← orRaise (objectItems (← getOf result "response"))
    (valueError (BATCH_REQUEST_FAILED customId))
  let status ← intOf ((response.lookup "status_code").getD (.int 0))
  reject (status ≠ 200) (BATCH_REQUEST_FAILED customId)
  let body ← orRaise ((response.lookup "body").bind objectItems)
    (valueError MODEL_RESPONSE_MALFORMED)
  let outputText ← extractOutputText body
  let structured ← validate outputText
  reject (structured.candidateId ≠ candidateId) CANDIDATE_IDENTIFIER_MISMATCH
  let speaker := Host.upper (Text.strip structured.speaker)
  reject (speaker ∉ candidate.allowedSpeakers) MODEL_SPEAKER_NOT_ALLOWED
  let evidenceIds := structured.evidenceIds.eraseDups
  reject (¬∀ id ∈ evidenceIds, id ∈ candidate.evidenceIds) MODEL_EVIDENCE_NOT_ALLOWED
  let usage := ((body.lookup "usage").bind objectItems).getD []
  let inputTokens ← intOf ((usage.lookup "input_tokens").getD (.int 0))
  let outputTokens ← intOf ((usage.lookup "output_tokens").getD (.int 0))
  VerdictFields.create {
    candidateId, passId
    action := structured.action
    speaker
    confidence := structured.confidence
    evidenceIds
    rationale := Text.strip structured.rationale
    model := strOf ((body.lookup "model").getD (.str "unknown"))
    responseId := strOf ((body.lookup "id").getD (.str "unknown"))
    inputTokens, outputTokens }

/-- An entry of the parse errors: the kind of the exception and its text. -/
structure BatchResultError where
  customId : String
  error : Raised

/-- The custom id that the handler of a bad line finds. -/
def errorCustomId (line : List Char) : Except Raised String :=
  match loadLine line with
  | .error _ => .ok "unknown"
  | .ok value => do
      let items ← orRaise (objectItems value)
        ⟨.attributeError, "object has no attribute 'get'"⟩
      return strOf ((items.lookup "custom_id").getD (.str "unknown"))

abbrev VerdictMap := Dict String (List SpeakerReviewVerdict)

/-- `verdicts.get(candidate_id, ())` -/
def verdictsOf (verdicts : VerdictMap) (candidateId : String) : List SpeakerReviewVerdict :=
  (verdicts.get? candidateId).getD []

/-- `verdicts.setdefault(verdict.candidate_id, []).append(verdict)` -/
def addVerdict (verdicts : VerdictMap) (verdict : SpeakerReviewVerdict) : VerdictMap :=
  verdicts.set verdict.candidateId (verdictsOf verdicts verdict.candidateId ++ [verdict])

/-- One line of an output. -/
def parseOutputLine (validate : StructuredReader) (candidates : CandidateMap)
    (configuration : SpeakerReviewConfiguration)
    (parsed : VerdictMap × List BatchResultError) (line : List Char) :
    Except Raised (VerdictMap × List BatchResultError) :=
  match loadLine line >>= fun result => parseResultLine validate result candidates configuration with
  | .ok verdict => .ok (addVerdict parsed.1 verdict, parsed.2)
  | .error error => do
      let customId ← errorCustomId line
      return (parsed.1, parsed.2 ++ [⟨customId, error⟩])

/-- `sorted(items, key=lambda item: item.pass_id)` -/
def sortByPass (items : List SpeakerReviewVerdict) : List SpeakerReviewVerdict :=
  items.insertionSort fun a b => a.passId ≤ b.passId

def parseBatchResults (validate : StructuredReader) (outputJsonl : List Char)
    (candidates : CandidateMap) (configuration : SpeakerReviewConfiguration) :
    Except Raised (VerdictMap × List BatchResultError) := do
  let (verdicts, errors) ← (filledLines outputJsonl).foldlM
    (parseOutputLine validate candidates configuration) (Dict.empty, [])
  return (verdicts.mapValues sortByPass, errors)

/-- What the parser guarantees of a verdict. -/
structure FromCandidate (candidates : CandidateMap) (verdict : SpeakerReviewVerdict) where
  candidate : SpeakerReviewCandidate
  found : candidates verdict.candidateId = some candidate
  speaker_allowed : verdict.speaker ∈ candidate.allowedSpeakers
  evidence_own : ∀ id ∈ verdict.evidenceIds, id ∈ candidate.evidenceIds

theorem VerdictFields.create_fields {fields : VerdictFields} {verdict : SpeakerReviewVerdict}
    (created : fields.create = .ok verdict) : verdict.toVerdictFields = fields := by
  unfold VerdictFields.create at created
  split at created
  · split at created
    · cases created
      rfl
    · cases created
  · cases created

theorem parseResultLine_sound {validate : StructuredReader} {result : Json}
    {candidates : CandidateMap} {configuration : SpeakerReviewConfiguration}
    {verdict : SpeakerReviewVerdict}
    (parsed : parseResultLine validate result candidates configuration = .ok verdict) :
    Nonempty (FromCandidate candidates verdict) := by
  simp only [parseResultLine, bind_eq_ok] at parsed
  obtain ⟨customId, -, ⟨candidateId, passId⟩, -, candidate, found, value, -, response, -, status, -,
    _, -, body, -, outputText, -, structured, -, _, -, _, allowed, _, own, input, -, output, -,
    created⟩ := parsed
  have fields := VerdictFields.create_fields created
  have same : verdict.candidateId = candidateId := congrArg (·.candidateId) fields
  have speaker := congrArg (·.speaker) fields
  have evidence := congrArg (·.evidenceIds) fields
  have lookup := orRaise_eq_ok.mp found
  refine ⟨⟨candidate, by rw [same]; exact lookup, ?_, ?_⟩⟩
  · rw [show verdict.speaker = _ from speaker]
    exact not_not.mp (reject_eq_ok.mp allowed)
  · rw [show verdict.evidenceIds = _ from evidence]
    exact not_not.mp (reject_eq_ok.mp own)

/-- Every verdict is filed under its own candidate id and satisfies a property. -/
def Filed (P : SpeakerReviewVerdict → Prop) (verdicts : VerdictMap) : Prop :=
  ∀ id, ∀ verdict ∈ verdictsOf verdicts id, verdict.candidateId = id ∧ P verdict

theorem Filed.add {P : SpeakerReviewVerdict → Prop} {verdicts : VerdictMap}
    {verdict : SpeakerReviewVerdict} (filed : Filed P verdicts) (holds : P verdict) :
    Filed P (addVerdict verdicts verdict) := by
  intro id other member
  rw [addVerdict, verdictsOf, Dict.get?_set] at member
  split at member
  · subst id
    rw [Option.getD_some, List.mem_append, List.mem_singleton] at member
    rcases member with before | rfl
    · exact filed _ other before
    · exact ⟨rfl, holds⟩
  · exact filed id other member

theorem parseOutputLine_filed {validate : StructuredReader} {candidates : CandidateMap}
    {configuration : SpeakerReviewConfiguration}
    {before after : VerdictMap × List BatchResultError} {line : List Char}
    (filed : Filed (fun verdict => Nonempty (FromCandidate candidates verdict)) before.1)
    (step : parseOutputLine validate candidates configuration before line = .ok after) :
    Filed (fun verdict => Nonempty (FromCandidate candidates verdict)) after.1 := by
  unfold parseOutputLine at step
  split at step
  · rename_i verdict parsed
    cases step
    obtain ⟨result, -, parsed⟩ := (bind_eq_ok _).mp parsed
    exact filed.add (parseResultLine_sound parsed)
  · obtain ⟨customId, -, same⟩ := (bind_eq_ok _).mp step
    cases same
    exact filed

/-- The verdict map of a parser run holds only what its lines gave. -/
theorem parseBatchResults_filed {validate : StructuredReader} {output : List Char}
    {candidates : CandidateMap} {configuration : SpeakerReviewConfiguration}
    {verdicts : VerdictMap} {errors : List BatchResultError}
    (parsed : parseBatchResults validate output candidates configuration = .ok (verdicts, errors)) :
    Filed (fun verdict => Nonempty (FromCandidate candidates verdict)) verdicts := by
  rw [parseBatchResults, bind_eq_ok] at parsed
  obtain ⟨⟨raw, found⟩, folded, same⟩ := parsed
  injection same with same
  injection same with first _
  subst first
  have kept (lines : List (List Char)) (before after : VerdictMap × List BatchResultError)
      (filed : Filed (fun verdict => Nonempty (FromCandidate candidates verdict)) before.1)
      (run : lines.foldlM (parseOutputLine validate candidates configuration) before = .ok after) :
      Filed (fun verdict => Nonempty (FromCandidate candidates verdict)) after.1 := by
    induction lines generalizing before with
    | nil =>
        cases run
        exact filed
    | cons line lines ih =>
        rw [List.foldlM_cons, bind_eq_ok] at run
        obtain ⟨next, step, run⟩ := run
        exact ih next (parseOutputLine_filed filed step) run
  have filed := kept _ (Dict.empty, []) (raw, found) (fun id verdict member => by
    simp [verdictsOf] at member) folded
  intro id verdict member
  apply filed id verdict
  rw [verdictsOf, Dict.get?_mapValues] at member
  rw [verdictsOf]
  cases stored : raw.get? id with
  | none =>
      rw [stored] at member
      cases member
  | some items =>
      rw [stored] at member
      exact (List.mem_insertionSort _).mp member

end Results

section Broken

open Sample

/-! A model answer that the parser accepts and whose verdict its file cannot hold: the
rationale has U+2028 between two sentences. -/

def brokenOutput : SpeakerReviewStructuredOutput where
  candidateId := "S01E01-1"
  action := .acceptCandidate
  speaker := "Alice"
  confidence := ⟨.finite 1, by decide⟩
  evidenceIds := ["subtitle-line-3"]
  rationale := "Direct match.\u2028The next line confirms it."

def brokenResult : Json :=
  .obj [("custom_id", .str "S01E01-1::primary-a"),
    ("response", .obj [("status_code", .int 200),
      ("body", .obj [("id", .str "response"), ("model", .str "model"), ("output_text", .str "x"),
        ("usage", .obj [("input_tokens", .int 100), ("output_tokens", .int 20)])])])]

def brokenVerdict : SpeakerReviewVerdict where
  candidateId := "S01E01-1"
  passId := "primary-a"
  action := .acceptCandidate
  speaker := "ALICE"
  confidence := ⟨.finite 1, by decide⟩
  evidenceIds := ["subtitle-line-3"]
  rationale := "Direct match.\u2028The next line confirms it."
  model := "model"
  responseId := "response"
  inputTokens := 100
  outputTokens := 20
  confidence_unit := by decide
  input_nonnegative := by decide
  output_nonnegative := by decide

def brokenDecision : SpeakerReviewDecision where
  candidateId := "S01E01-1"
  disposition := .adjudicationRequired
  speaker := none
  reason := "One or more primary verdicts are missing."
  primaryVerdicts := [brokenVerdict]
  adjudicationVerdict := none
  finalReviewVerdict := none
  humanReviewResolution := none

end Broken

end Cinegraph.SpeakerReview
