import Cinegraph.Library.JsonReader
import Cinegraph.SpeakerReview.BatchRequests

/-!
The JSON Lines artifacts of a run: how candidates, decisions and batch requests are
written, and when the readers of the run find in them what was written.
-/

namespace Cinegraph.SpeakerReview

open Library Json

section Artifacts

variable [Host]

section Files

/-! The readers are given the content of a file. The same bound of 64 MiB holds for writing a file and
for reading it, so they see all of what was written; a content beyond it is never written. -/

/-- `json.loads(line)`. The lines with a surrogate escape that stands alone, which it takes, are outside
this model: here they do not decode. -/
def loadLine (line : List Char) : Except Raised Json :=
  match loads line with
  | some value => .ok value
  | none => .error ⟨.jsonDecodeError, "malformed line"⟩

/-- `tuple(read(json.loads(line)) for line in content.splitlines() if line.strip())` -/
def loadLines {α : Type} (read : Json → Except Raised α) (content : List Char) :
    Except Raised (List α) :=
  (filledLines content).mapM fun line => loadLine line >>= read

/-- `load_candidates` on the content of a file within the bound. -/
def loadCandidates (content : List Char) : Except Raised (List SpeakerReviewCandidate) :=
  loadLines candidateFromDict content

/-- `load_decisions` on the content of a file within the bound. -/
def loadDecisions (content : List Char) : Except Raised (List SpeakerReviewDecision) :=
  loadLines decisionFromDict content

/-- The custom id that `_validate_output_custom_ids` takes from a line. -/
def customIdOf (payload : Json) : Except Raised String :=
  match payload with
  | .obj items =>
      match items.lookup "custom_id" with
      | some (.str customId) => .ok customId
      | _ => .error (valueError "")
  | _ => .error (valueError "")

/-- The custom ids of a request file within the bound. -/
def loadCustomIds (content : List Char) : Except Raised (List String) :=
  loadLines customIdOf content

end Files

section RoundTrip

omit [Host] in
theorem itemOf_sortKeys {items : JsonPayload} (nodup : (items.map Prod.fst).Nodup) (key : String) :
    itemOf (obj items).sortKeys key = (valueAt items key).map sortKeys := by
  rw [sortKeys, itemOf, valueAt, valueAt, lookup_sortKeys nodup]
  cases items.lookup key <;> rfl

omit [Host] in
theorem getOf_sortKeys {items : JsonPayload} (nodup : (items.map Prod.fst).Nodup) (key : String) :
    getOf (obj items).sortKeys key = .ok (((items.lookup key).getD .null).sortKeys) := by
  rw [sortKeys, getOf, lookup_sortKeys nodup]
  cases items.lookup key with
  | none => rw [Option.map_none, Option.getD_none, sortKeys]
  | some value => rfl

omit [Host] in
theorem sortKeys_arr (items : List Json) : (arr items).sortKeys = arr (sortAll items) := by
  rw [sortKeys]

omit [Host] in
theorem isObject_sortKeys (a : Json) : isObject a.sortKeys = isObject a := by
  cases a <;> rw [sortKeys] <;> rfl

omit [Host] in
theorem sortAll_map {α : Type} (write : α → Json) (items : List α) :
    sortAll (items.map write) = items.map fun a => (write a).sortKeys := by
  induction items with
  | nil => rfl
  | cons a items ih => rw [List.map_cons, sortAll, ih, List.map_cons]

theorem map_strOf_sortAll (items : List String) : (sortAll (items.map .str)).map strOf = items := by
  rw [sortAll_map, List.map_map]
  simp [Function.comp_def, sortKeys, strOf]

theorem evidenceFromDict_sortKeys (item : SpeakerReviewEvidence) :
    evidenceFromDict item.toDict.sortKeys = .ok item := by
  have keys : (["evidence_id", "source", "speaker", "text", "similarity_score"]).Nodup := by decide
  obtain ⟨evidenceId, source, speaker, text, similarityScore⟩ := item
  rw [SpeakerReviewEvidence.toDict, evidenceFromDict]
  simp only [itemOf_sortKeys, getOf_sortKeys, List.map_cons, List.map_nil, keys, valueAt,
    List.lookup_cons, List.lookup_nil]
  cases similarityScore <;> simp [nullableJson, floatJson, sortKeys, strOf, Except.map]

omit [Host] in
/-- The objects among the written elements of a list are all of them. -/
theorem filter_isObject_sortAll {α : Type} (write : α → Json) (items : List α)
    (object : ∀ a, isObject (write a) = true) :
    (sortAll (items.map write)).filter isObject = items.map fun a => (write a).sortKeys := by
  rw [sortAll_map, List.filter_eq_self]
  intro a member
  obtain ⟨b, -, rfl⟩ := List.mem_map.mp member
  obtain ⟨fields, shape⟩ := exists_of_isObject (object b)
  rw [shape, sortKeys, isObject]

theorem candidateFromDict_sortKeys (candidate : SpeakerReviewCandidate) :
    candidateFromDict candidate.toDict.sortKeys = .ok candidate := by
  have evidence : ((sortAll (candidate.evidence.map SpeakerReviewEvidence.toDict)).filter
      isObject).mapM evidenceFromDict = .ok candidate.evidence := by
    rw [filter_isObject_sortAll _ _ fun _ => rfl]
    exact mapM_map_ok _ fun item _ => evidenceFromDict_sortKeys item
  have created : CandidateFields.create candidate.toCandidateFields = .ok candidate := by
    simp [CandidateFields.create, candidate.proposed_allowed, candidate.has_evidence]
  have speakers := map_strOf_sortAll candidate.allowedSpeakers
  have keys : (["candidate_id", "source_filename", "source_sha256", "episode", "cue_number",
    "line_number", "proposed_speaker", "dialogue_text", "allowed_speakers", "evidence"]).Nodup := by
    decide
  have episodeKeys : (["season", "episode"]).Nodup := by decide
  rw [SpeakerReviewCandidate.toDict, candidateFromDict]
  have pair : isObject (obj [("season", .int candidate.seasonNumber),
    ("episode", .int candidate.episodeNumber)]) = true := rfl
  simp only [itemOf_sortKeys, List.map_cons, List.map_nil, keys, episodeKeys, valueAt, List.lookup_cons, String.reduceBEq, beq_self_eq_true, Except.map, ok_bind, isObject_sortKeys, pair, sortKeys_arr, reject_of_not, Bool.true_eq_false,
    not_false_eq_true]
  simp [sortKeys, strOf, intOf, elementsOf, evidence, speakers, created]

omit [Host] in
theorem action_read (action : SpeakerReviewAction) :
    enumOf SpeakerReviewAction.members SpeakerReviewAction.value (.str action.value) =
      .ok action := by
  cases action <;> rfl

omit [Host] in
theorem disposition_read (disposition : SpeakerReviewDisposition) :
    enumOf SpeakerReviewDisposition.members SpeakerReviewDisposition.value
      (.str disposition.value) = .ok disposition := by
  cases disposition <;> rfl

theorem verdictFromDict_sortKeys (verdict : SpeakerReviewVerdict) :
    verdictFromDict verdict.toDict.sortKeys = .ok verdict := by
  have created : VerdictFields.create verdict.toVerdictFields = .ok verdict := by
    simp [VerdictFields.create, verdict.confidence_unit, verdict.input_nonnegative,
      verdict.output_nonnegative]
  have evidence := map_strOf_sortAll verdict.evidenceIds
  have action := action_read verdict.action
  have keys : (["candidate_id", "pass_id", "action", "speaker", "confidence", "evidence_ids",
    "rationale", "model", "response_id", "input_tokens", "output_tokens"]).Nodup := by decide
  rw [SpeakerReviewVerdict.toDict, verdictFromDict]
  simp only [itemOf_sortKeys, getOf_sortKeys, List.map_cons, List.map_nil, keys, valueAt,
    List.lookup_cons, String.reduceBEq, beq_self_eq_true, Except.map, ok_bind]
  simp [sortKeys, strOf, intOf, floatJson, evidence, action, created]

theorem resolutionFromDict_sortKeys (resolution : HumanSpeakerReviewResolution) :
    resolutionFromDict resolution.toDict.sortKeys = .ok resolution := by
  have created : ResolutionFields.create resolution.toResolutionFields = .ok resolution := by
    simp [ResolutionFields.create, resolution.candidate_trimmed, resolution.speaker_trimmed,
      resolution.reviewer_trimmed, resolution.rationale_trimmed, resolution.aware]
  have keys : (["candidate_id", "speaker", "reviewer", "reviewed_at", "rationale"]).Nodup := by
    decide
  rw [HumanSpeakerReviewResolution.toDict, resolutionFromDict]
  simp only [itemOf_sortKeys, List.map_cons, List.map_nil, keys, valueAt, List.lookup_cons, String.reduceBEq, beq_self_eq_true, Except.map, ok_bind]
  simp [sortKeys, strOf, Host.fromisoformat_isoformat, created]

omit [Host] in
/-- A nullable record is read back. -/
theorem objectOr_nullableJson {α : Type} (write : α → Json) (read : Json → Except Raised α)
    (object : ∀ a, isObject (write a) = true) (inverse : ∀ a, read (write a).sortKeys = .ok a)
    (value : Option α) : objectOr read (nullableJson write value).sortKeys = .ok value := by
  cases value with
  | none => rfl
  | some a =>
      obtain ⟨fields, shape⟩ := exists_of_isObject (object a)
      have sorted : isObject (write a).sortKeys = true := by rw [shape, sortKeys, isObject]
      simp [nullableJson, objectOr, sorted, inverse a]

theorem decisionFromDict_sortKeys (decision : SpeakerReviewDecision) :
    decisionFromDict decision.toDict.sortKeys = .ok decision := by
  have primary : ((sortAll (decision.primaryVerdicts.map SpeakerReviewVerdict.toDict)).filter
      isObject).mapM verdictFromDict = .ok decision.primaryVerdicts := by
    rw [filter_isObject_sortAll _ _ fun _ => rfl]
    exact mapM_map_ok _ fun verdict _ => verdictFromDict_sortKeys verdict
  have adjudication := objectOr_nullableJson SpeakerReviewVerdict.toDict verdictFromDict
    (fun _ => rfl) verdictFromDict_sortKeys
  have human := objectOr_nullableJson HumanSpeakerReviewResolution.toDict resolutionFromDict
    (fun _ => rfl) resolutionFromDict_sortKeys
  have disposition := disposition_read decision.disposition
  have keys : (["candidate_id", "disposition", "speaker", "reason", "primary_verdicts",
    "adjudication_verdict", "final_review_verdict", "human_review_resolution"]).Nodup := by decide
  rw [SpeakerReviewDecision.toDict, decisionFromDict]
  simp only [itemOf_sortKeys, getOf_sortKeys, List.map_cons, List.map_nil, keys, valueAt,
    List.lookup_cons, String.reduceBEq, beq_self_eq_true, Except.map, ok_bind]
  obtain ⟨candidateId, kind, speaker, reason, primaryVerdicts, adjudicationVerdict,
    finalReviewVerdict, humanReviewResolution⟩ := decision
  cases speaker <;>
    simp [sortKeys, strOf, nullableJson_none, nullableJson_some, primary, adjudication, human,
      disposition]

end RoundTrip

section Plain

theorem plain_nullableJson {α : Type} {write : α → Json} (plain : ∀ a, Plain (write a))
    (value : Option α) : Plain (nullableJson write value) := by
  cases value with
  | none => trivial
  | some a => exact plain a

theorem plain_map {α : Type} {write : α → Json} (plain : ∀ a, Plain (write a)) (items : List α) :
    Plain (.arr (items.map write)) := by
  rw [plain_arr]
  intro value member
  obtain ⟨a, -, rfl⟩ := List.mem_map.mp member
  exact plain a

theorem plain_str (s : String) : Plain (.str s) := trivial

theorem plain_int (n : Int) : Plain (.int n) := trivial

theorem plain_bool (b : Bool) : Plain (.bool b) := trivial

theorem plain_floatJson (f : HostFloat) : Plain (floatJson f) := f.host

theorem plain_evidence (item : SpeakerReviewEvidence) : Plain item.toDict := by
  rw [SpeakerReviewEvidence.toDict, plain_obj]
  simp [plain_str, plain_nullableJson plain_floatJson]

theorem plain_candidate (candidate : SpeakerReviewCandidate) : Plain candidate.toDict := by
  have episode : Plain (.obj [("season", .int candidate.seasonNumber),
      ("episode", .int candidate.episodeNumber)]) := by
    rw [plain_obj]
    simp [plain_int]
  rw [SpeakerReviewCandidate.toDict, plain_obj]
  simp [plain_str, plain_int, plain_map plain_str, plain_map plain_evidence, episode]

theorem plain_verdict (verdict : SpeakerReviewVerdict) : Plain verdict.toDict := by
  rw [SpeakerReviewVerdict.toDict, plain_obj]
  simp [plain_str, plain_int, plain_map plain_str, plain_floatJson]

theorem plain_resolution (resolution : HumanSpeakerReviewResolution) :
    Plain resolution.toDict := by
  rw [HumanSpeakerReviewResolution.toDict, plain_obj]
  simp [plain_str]

theorem plain_decision (decision : SpeakerReviewDecision) : Plain decision.toDict := by
  rw [SpeakerReviewDecision.toDict, plain_obj]
  simp [plain_str, plain_map plain_verdict, plain_nullableJson plain_str,
    plain_nullableJson plain_verdict, plain_nullableJson plain_resolution]

theorem plain_batchRequest (configuration : SpeakerReviewConfiguration) (request : BatchRequest) :
    Plain (batchRequest configuration request) := by
  have schema : Plain SPEAKER_REVIEW_RESPONSE_SCHEMA := by
    simp [SPEAKER_REVIEW_RESPONSE_SCHEMA, plain_obj, plain_arr, plain_str, plain_bool]
  simp [batchRequest, plain_obj, plain_arr, plain_str, plain_int, plain_bool, schema]

end Plain

section ReadBack

/-- A file of records is read back, each with `read`, exactly when no record breaks its line. -/
theorem loadLines_jsonLines {α β : Type} {write : α → Json} {read : Json → Except Raised β}
    (value : α → β) (plain : ∀ a, Plain (write a)) (object : ∀ a, isObject (write a) = true)
    (inverse : ∀ a, read (write a).sortKeys = .ok (value a)) (items : List α) :
    loadLines read (jsonLines (items.map write)) = .ok (items.map value) ↔
      ∀ a ∈ items, Unbroken (write a) := by
  constructor
  · intro loaded
    have lines : (filledLines (jsonLines (items.map write))).length = (items.map write).length := by
      rw [length_of_mapM loaded, List.length_map, List.length_map]
    have counted := length_filledLines_jsonLines (items.map write) (by
      intro a member
      obtain ⟨b, -, rfl⟩ := List.mem_map.mp member
      exact ⟨plain b, object b⟩)
    intro a member
    exact counted.2 lines (write a) (List.mem_map_of_mem member)
  · intro unbroken
    have lines := filledLines_jsonLines (items.map write) (by
      intro a member
      obtain ⟨b, inside, rfl⟩ := List.mem_map.mp member
      exact ⟨plain b, object b, unbroken b inside⟩)
    rw [loadLines, lines, List.map_map]
    have each (a : α) : (loadLine (dumps (write a)) >>= read) = .ok (value a) := by
      rw [loadLine, loads_dumps (plain a)]
      exact inverse a
    clear lines unbroken
    induction items with
    | nil => rfl
    | cons a items ih =>
        rw [List.map_cons, List.mapM_cons, Function.comp_apply, each a, ok_bind, ih]
        rfl

omit [Host] in
theorem customIdOf_sortKeys (configuration : SpeakerReviewConfiguration) (request : BatchRequest) :
    customIdOf (batchRequest configuration request).sortKeys = .ok request.customId := by
  have nodup : ((match batchRequest configuration request with
      | .obj items => items
      | _ => []).map Prod.fst).Nodup := by simp [batchRequest]
  rw [batchRequest] at nodup ⊢
  rw [sortKeys, customIdOf, lookup_sortKeys nodup]
  simp [sortKeys]

end ReadBack

end Artifacts

end Cinegraph.SpeakerReview
