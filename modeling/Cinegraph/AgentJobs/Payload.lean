import Cinegraph.AgentJobs.Event

/-!
What the privacy scan finds in the payload of a finished result: everything the
code puts there by itself passes, so only the answer text can be refused.
-/

namespace Cinegraph

open Library

/-- Identifiers and constants of the payload are written with these characters
or are among the fixed texts below. -/
private theorem plain_fold :
    ∀ c ∈ '-' :: UUID.hexChars, Text.foldChar c = [c] := by
  have all : ('-' :: UUID.hexChars).all (fun c => Text.foldChar c = [c]) = true := by
    decide
  simpa only [List.all_eq_true, decide_eq_true_eq] using all

theorem markedText_str (u : UUID) : markedText u.str = false := by
  have chars : ∀ c ∈ u.str.toList, c ∈ '-' :: UUID.hexChars := by
    intro c member
    rcases UUID.mem_str member with rfl | hex
    · exact List.mem_cons_self
    · exact List.mem_cons_of_mem _ (UUID.mem_hexChars_of_mem_hex hex)
  have absent (c : Char) (h : c ∉ '-' :: UUID.hexChars) : c ∉ u.str.toList :=
    fun member => h (chars c member)
  have folded : Text.casefold u.str = u.str :=
    Text.casefold_eq_self fun c member => plain_fold c (chars c member)
  simp only [markedText, folded, forbiddenMarkers, List.any_cons, List.any_nil, Bool.or_false,
    Bool.or_eq_false_iff]
  refine ⟨?_, ?_, ?_, ?_⟩
  · exact Text.contains_eq_false (c := 'p') (by decide) (absent _ (by decide))
  · exact Text.contains_eq_false (c := 'r') (by decide) (absent _ (by decide))
  · exact Text.contains_eq_false (c := 'p') (by decide) (absent _ (by decide))
  · exact Text.contains_eq_false (c := 'x') (by decide) (absent _ (by decide))

theorem markedText_strOptional (u : Option UUID) : markedText (strOptional u) = false := by
  cases u with
  | none => decide
  | some u => exact markedText_str u

theorem markedText_tool : ∀ tool ∈ SERIES_AGENT_TOOL_NAMES, markedText tool = false := by
  decide

theorem markedText_kind (kind : CitationKind) : markedText kind.value = false := by
  cases kind <;> decide

example : markedText "Authorization: BEARER abc" = true := by decide +kernel

/-- The keys the code writes into payloads. -/
def payloadKeys : List String :=
  ["", "status", "safe_refusal", "recovered", "error_code", "answer", "used_tools", "citations",
    "kind", "episode_id", "season_number", "episode_number", "start_ms", "end_ms", "segment_id",
    "claim_id", "evidence_id"]

theorem forbiddenKey_payloadKeys : ∀ key ∈ payloadKeys, forbiddenKey key = false := by
  decide

theorem forbiddenElements_eq_false {items : List Json}
    (h : ∀ value ∈ items, forbiddenValue value = false) : forbiddenElements items = false := by
  induction items with
  | nil => rfl
  | cons value rest ih =>
      have key : forbiddenKey "" = false := forbiddenKey_payloadKeys _ (by decide)
      rw [forbiddenElements, key, h value List.mem_cons_self,
        ih fun v member => h v (List.mem_cons_of_mem _ member)]
      rfl

theorem forbiddenItems_eq_false {items : JsonPayload}
    (h : ∀ item ∈ items, item.1 ∈ payloadKeys ∧ forbiddenValue item.2 = false) :
    forbiddenItems items = false := by
  induction items with
  | nil => rfl
  | cons item rest ih =>
      obtain ⟨key, value⟩ := h item List.mem_cons_self
      rw [forbiddenItems, forbiddenKey_payloadKeys _ key, value,
        ih fun v member => h v (List.mem_cons_of_mem _ member)]
      rfl

theorem finiteElements_eq_true {items : List Json}
    (h : ∀ value ∈ items, finiteNumbers value = true) : finiteElements items = true := by
  induction items with
  | nil => rfl
  | cons value rest ih =>
      rw [finiteElements, h value List.mem_cons_self,
        ih fun v member => h v (List.mem_cons_of_mem _ member)]
      rfl

variable [Normalization]

theorem forbiddenValue_citationPayload (item : SeriesAgentCitation) :
    forbiddenValue (citationPayload item) = false := by
  rw [citationPayload, forbiddenValue]
  apply forbiddenItems_eq_false
  intro entry member
  rw [List.mem_append] at member
  rcases member with fixed | optional
  · simp only [List.mem_cons, List.not_mem_nil, or_false] at fixed
    rcases fixed with rfl | rfl | rfl | rfl | rfl | rfl
    · exact ⟨by simp [payloadKeys], markedText_kind _⟩
    · exact ⟨by simp [payloadKeys], markedText_str _⟩
    all_goals exact ⟨by simp [payloadKeys], rfl⟩
  · split at optional
    · simp only [List.mem_cons, List.not_mem_nil, or_false] at optional
      subst optional
      exact ⟨by simp [payloadKeys], markedText_strOptional _⟩
    · simp only [List.mem_cons, List.not_mem_nil, or_false] at optional
      rcases optional with rfl | rfl <;> exact ⟨by simp [payloadKeys], markedText_strOptional _⟩

theorem finiteNumbers_citationPayload (item : SeriesAgentCitation) :
    finiteNumbers (citationPayload item) = true := by
  rw [citationPayload, finiteNumbers]
  split <;> rfl

/-- The answers the privacy scan lets through. -/
def SeriesAgentResult.Unmarked (result : SeriesAgentResult) : Prop :=
  ∀ answer, result.answer = some answer → markedText answer = false

theorem forbiddenItems_resultEventPayload (result : SeriesAgentResult) :
    forbiddenItems (resultEventPayload result) = false ↔ result.Unmarked := by
  have presence := result.answer_isSome
  unfold resultEventPayload SeriesAgentResult.Unmarked
  cases refusal : result.isSafeRefusal with
  | true =>
      have none : result.answer = none := by simpa [refusal] using presence
      simp only [if_true, none, reduceCtorEq, false_implies, implies_true, iff_true]
      decide
  | false =>
      obtain ⟨answer, ha⟩ := Option.isSome_iff_exists.mp (by simpa [refusal] using presence)
      have status : (forbiddenKey "status" || forbiddenValue (.str "succeeded")) = false := by
        decide
      have key : forbiddenKey "answer" = false := forbiddenKey_payloadKeys _ (by decide)
      have rest : forbiddenItems [
          ("used_tools", .arr (result.usedTools.map .str)),
          ("citations", .arr (result.citations.map citationPayload))] = false := by
        apply forbiddenItems_eq_false
        intro entry member
        simp only [List.mem_cons, List.not_mem_nil, or_false] at member
        rcases member with rfl | rfl
        · refine ⟨by simp [payloadKeys], forbiddenElements_eq_false ?_⟩
          intro value hvalue
          obtain ⟨tool, htool, rfl⟩ := List.mem_map.mp hvalue
          exact markedText_tool tool (result.usedTools_subset htool)
        · refine ⟨by simp [payloadKeys], forbiddenElements_eq_false ?_⟩
          intro value hvalue
          obtain ⟨item, -, rfl⟩ := List.mem_map.mp hvalue
          exact forbiddenValue_citationPayload item
      simp only [Bool.false_eq_true, if_false, ha, Option.map_some, Option.getD_some,
        Option.some.injEq, forall_eq']
      rw [forbiddenItems, status, forbiddenItems, key, rest, forbiddenValue]
      simp

theorem finiteItems_resultEventPayload (result : SeriesAgentResult) :
    finiteItems (resultEventPayload result) = true := by
  unfold resultEventPayload
  split
  · rfl
  · have tools : finiteElements (result.usedTools.map Json.str) = true := by
      apply finiteElements_eq_true
      intro value member
      obtain ⟨tool, -, rfl⟩ := List.mem_map.mp member
      rfl
    have citations : finiteElements (result.citations.map citationPayload) = true := by
      apply finiteElements_eq_true
      intro value member
      obtain ⟨item, -, rfl⟩ := List.mem_map.mp member
      exact finiteNumbers_citationPayload item
    cases result.answer <;> simp [finiteItems, finiteNumbers, tools, citations]

end Cinegraph
