import Cinegraph.Common.Errors
import Cinegraph.Library.Binary64
import Cinegraph.Library.Greedy
import Cinegraph.Library.JsonText
import Cinegraph.Library.WholeFloats
import Cinegraph.SpeakerReview.Configuration
import Mathlib.Algebra.Order.BigOperators.Group.List

/-!
The partition of batch requests under the limit of enqueued tokens. The tokens of a request are
estimated from the length of its body, and the parts are filled from the front.
-/

namespace Cinegraph.SpeakerReview

open Library

def BATCH_REQUEST_TOKEN_LIMIT_EXCEEDED : String :=
  "One Batch request exceeds the configured enqueued-token limit."

/-- A request as it is given out: the items of a dictionary. -/
abbrev RequestItems := List (String × Json)

section Quotient

/-- `ceil(a / b)` of whole numbers; the quotient is a float. -/
def ceilQuotient (a b : Int) : Except Raised Int :=
  if b = 0 then .error ⟨.zeroDivisionError, "division by zero"⟩
  else
    match Binary64.round (a / b) with
    | .finite quotient => .ok ⌈quotient⌉
    | _ => .error ⟨.overflowError, "integer division result too large for a float"⟩

theorem ceilQuotient_sign {a b tokens : Int} (length : 0 ≤ a)
    (estimated : ceilQuotient a b = .ok tokens) :
    (0 < b → 0 ≤ tokens) ∧ (b < 0 → tokens ≤ 0) := by
  unfold ceilQuotient at estimated
  split at estimated
  · cases estimated
  · split at estimated
    · rename_i quotient rounded
      cases estimated
      have sign := Binary64.round_sign rounded
      constructor
      · intro positive
        exact Int.ceil_nonneg (sign.1 (div_nonneg (mod_cast length) (mod_cast positive.le)))
      · intro negative
        have below := sign.2 (div_nonpos_of_nonneg_of_nonpos (mod_cast length)
          (mod_cast negative.le))
        exact Int.ceil_le.mpr (by simpa using below)
    · cases estimated

end Quotient

section Partition

variable [Floats] (configuration : SpeakerReviewConfiguration)

def estimatedRequestInputTokens (request : RequestItems) : Except Raised Int :=
  match Json.field? request "body" with
  | none => .error ⟨.keyError, "body"⟩
  | some body =>
      ceilQuotient (Json.write .packed body).length configuration.estimatedCharactersPerToken

/-- The loop over the requests, with the part that is open and its tokens. -/
def partitionFrom (current : List RequestItems) (currentTokens : Int) :
    List RequestItems → Except Raised (List (List RequestItems))
  | [] => .ok (if current.isEmpty then [] else [current])
  | request :: requests => do
      let requestTokens ← estimatedRequestInputTokens configuration request
      reject (configuration.maximumEnqueuedInputTokensPerBatch < requestTokens)
        BATCH_REQUEST_TOKEN_LIMIT_EXCEEDED .runtimeError
      if ¬current.isEmpty ∧
          configuration.maximumEnqueuedInputTokensPerBatch < currentTokens + requestTokens then
        let parts ← partitionFrom [request] requestTokens requests
        return current :: parts
      else
        partitionFrom (current ++ [request]) (currentTokens + requestTokens) requests

def partitionBatchRequests (requests : List RequestItems) :
    Except Raised (List (List RequestItems)) :=
  partitionFrom configuration [] 0 requests

/-- The estimated tokens of a whole part. -/
def totalTokens (part : List RequestItems) : Except Raised Int := do
  let tokens ← part.mapM (estimatedRequestInputTokens configuration)
  return tokens.sum

def WithinLimit (part : List RequestItems) : Prop :=
  ∃ total, totalTokens configuration part = .ok total ∧
    total ≤ configuration.maximumEnqueuedInputTokensPerBatch

/-- The request fits into no part: its estimate is over the limit, or it has none. -/
def Refused (request : RequestItems) : Prop :=
  ∀ tokens, estimatedRequestInputTokens configuration request = .ok tokens →
    configuration.maximumEnqueuedInputTokensPerBatch < tokens

/-- The estimate as a number, zero where there is none. -/
def tokensOf (request : RequestItems) : Int :=
  ((estimatedRequestInputTokens configuration request).toOption).getD 0

/-- A part of requests of which each is within the limit, and all together are. -/
def Fits (part : List RequestItems) : Prop :=
  (∀ request ∈ part, tokensOf configuration request ≤
    configuration.maximumEnqueuedInputTokensPerBatch) ∧
  (part.map (tokensOf configuration)).sum ≤ configuration.maximumEnqueuedInputTokensPerBatch

instance : DecidablePred (Fits configuration) := fun _ => instDecidableAnd

variable {configuration}

theorem tokensOf_eq {request : RequestItems} {tokens : Int}
    (estimated : estimatedRequestInputTokens configuration request = .ok tokens) :
    tokensOf configuration request = tokens := by
  rw [tokensOf, estimated]
  rfl

/-- All estimates lie on one side of zero. -/
theorem tokensOf_sign (configuration : SpeakerReviewConfiguration) :
    (∀ request, 0 ≤ tokensOf configuration request) ∨
      ∀ request, tokensOf configuration request ≤ 0 := by
  have sign (request : RequestItems) :
      (0 < configuration.estimatedCharactersPerToken → 0 ≤ tokensOf configuration request) ∧
        (configuration.estimatedCharactersPerToken ≤ 0 → tokensOf configuration request ≤ 0) := by
    cases estimated : estimatedRequestInputTokens configuration request with
    | error e =>
        have zero : tokensOf configuration request = 0 := by
          rw [tokensOf, estimated]
          rfl
        rw [zero]
        exact ⟨fun _ => le_rfl, fun _ => le_rfl⟩
    | ok tokens =>
        rw [tokensOf_eq estimated]
        unfold estimatedRequestInputTokens at estimated
        split at estimated
        · cases estimated
        · rename_i body _
          obtain ⟨up, down⟩ := ceilQuotient_sign (Int.natCast_nonneg _) estimated
          refine ⟨up, fun nonpos => down (lt_of_le_of_ne nonpos ?_)⟩
          intro zero
          rw [zero, ceilQuotient, if_pos rfl] at estimated
          cases estimated
  rcases lt_or_ge 0 configuration.estimatedCharactersPerToken with positive | nonpos
  · exact Or.inl fun request => (sign request).1 positive
  · exact Or.inr fun request => (sign request).2 nonpos

/-- A stretch inside a part within the limit is within it. -/
theorem Fits.inside (before part after : List RequestItems) (some_request : part ≠ [])
    (whole : Fits configuration (before ++ part ++ after)) : Fits configuration part := by
  obtain ⟨alone, together⟩ := whole
  have each : ∀ request ∈ part, tokensOf configuration request ≤
      configuration.maximumEnqueuedInputTokensPerBatch := fun request member =>
    alone request (List.mem_append_left _ (List.mem_append_right _ member))
  refine ⟨each, ?_⟩
  rcases tokensOf_sign configuration with nonneg | nonpos
  · have sum_nonneg (requests : List RequestItems) :
        0 ≤ (requests.map (tokensOf configuration)).sum :=
      List.sum_nonneg (List.forall_mem_map.mpr fun request _ => nonneg request)
    rw [List.map_append, List.map_append, List.sum_append, List.sum_append] at together
    have := sum_nonneg before
    have := sum_nonneg after
    omega
  · cases part with
    | nil => exact absurd rfl some_request
    | cons request part =>
        have later : (part.map (tokensOf configuration)).sum ≤
            (part.map fun _ => (0 : Int)).sum :=
          List.sum_le_sum fun request _ => nonpos request
        rw [List.map_const', List.sum_replicate, nsmul_zero] at later
        have first := each request List.mem_cons_self
        rw [List.map_cons, List.sum_cons]
        omega

/-- What the code computes when it raises nothing is the greedy cut. -/
theorem partitionFrom_eq (current : List RequestItems) {requests : List RequestItems}
    (each : ∀ request ∈ requests, ¬Refused configuration request)
    (now : ∀ request ∈ current, tokensOf configuration request ≤
      configuration.maximumEnqueuedInputTokensPerBatch) :
    partitionFrom configuration current (current.map (tokensOf configuration)).sum requests =
      .ok (Greedy.parts (Fits configuration) current requests) := by
  induction requests generalizing current with
  | nil => rfl
  | cons request requests ih =>
      obtain ⟨here, later⟩ := List.forall_mem_cons.mp each
      rw [Refused] at here
      push Not at here
      obtain ⟨tokens, estimated, small⟩ := here
      have same := tokensOf_eq estimated
      have alone : ∀ other ∈ current ++ [request], tokensOf configuration other ≤
          configuration.maximumEnqueuedInputTokensPerBatch := by
        rw [List.forall_mem_append, List.forall_mem_singleton, same]
        exact ⟨now, small⟩
      have sums : ((current ++ [request]).map (tokensOf configuration)).sum =
          (current.map (tokensOf configuration)).sum + tokens := by
        rw [List.map_append, List.sum_append, List.map_singleton, List.sum_singleton, same]
      have fits : Fits configuration (current ++ [request]) ↔
          ¬configuration.maximumEnqueuedInputTokensPerBatch <
            (current.map (tokensOf configuration)).sum + tokens := by
        rw [Fits, sums, not_lt]
        exact and_iff_right alone
      rw [partitionFrom, estimated, ok_bind, reject_of_not (not_lt.mpr small), ok_bind,
        Greedy.parts]
      by_cases full : ¬current.isEmpty ∧ configuration.maximumEnqueuedInputTokensPerBatch <
          (current.map (tokensOf configuration)).sum + tokens
      · have started := ih [request] later (by
          rw [List.forall_mem_singleton, same]
          exact small)
        rw [List.map_singleton, List.sum_singleton, same] at started
        rw [if_pos full, if_pos ⟨full.1, fun fitting => fits.mp fitting full.2⟩, started]
        rfl
      · have room : ¬(¬current.isEmpty ∧ ¬Fits configuration (current ++ [request])) := by
          rwa [fits, not_not]
        rw [if_neg full, if_neg room, ← sums]
        exact ih _ later alone

theorem partitionFrom_raises (current : List RequestItems) (currentTokens : Int)
    {requests : List RequestItems}
    (some_refused : ∃ request ∈ requests, Refused configuration request) :
    ∃ error, partitionFrom configuration current currentTokens requests = .error error := by
  induction requests generalizing current currentTokens with
  | nil =>
      obtain ⟨request, member, -⟩ := some_refused
      exact absurd member List.not_mem_nil
  | cons request requests ih =>
      rw [partitionFrom]
      cases estimated : estimatedRequestInputTokens configuration request with
      | error error => exact ⟨error, rfl⟩
      | ok tokens =>
          by_cases large : configuration.maximumEnqueuedInputTokensPerBatch < tokens
          · rw [ok_bind, reject, if_pos large]
            exact ⟨_, rfl⟩
          · have later : ∃ request ∈ requests, Refused configuration request := by
              obtain ⟨refused, member, beyond⟩ := some_refused
              rcases List.mem_cons.mp member with rfl | member
              · exact absurd (beyond tokens estimated) large
              · exact ⟨refused, member, beyond⟩
            rw [ok_bind, reject_of_not large, ok_bind]
            split
            · obtain ⟨error, raised⟩ := ih _ _ later
              exact ⟨error, by rw [raised]; rfl⟩
            · exact ih _ _ later

theorem totalTokens_eq {part : List RequestItems}
    (each : ∀ request ∈ part, ¬Refused configuration request) :
    totalTokens configuration part = .ok (part.map (tokensOf configuration)).sum := by
  have mapped : part.mapM (estimatedRequestInputTokens configuration) =
      .ok (part.map (tokensOf configuration)) := by
    induction part with
    | nil => rfl
    | cons request part ih =>
        obtain ⟨here, later⟩ := List.forall_mem_cons.mp each
        rw [Refused] at here
        push Not at here
        obtain ⟨tokens, estimated, -⟩ := here
        rw [List.mapM_cons, estimated, ok_bind, ih later, ok_bind, List.map_cons,
          tokensOf_eq estimated]
        rfl
  rw [totalTokens, mapped]
  rfl

/-- Of requests that are not refused, the parts within the limit are those that fit. -/
theorem withinLimit_iff {part : List RequestItems}
    (each : ∀ request ∈ part, ¬Refused configuration request) :
    WithinLimit configuration part ↔ Fits configuration part := by
  have alone : ∀ request ∈ part, tokensOf configuration request ≤
      configuration.maximumEnqueuedInputTokensPerBatch := by
    intro request member
    have accepted := each request member
    rw [Refused] at accepted
    push Not at accepted
    obtain ⟨tokens, estimated, small⟩ := accepted
    rwa [tokensOf_eq estimated]
  rw [WithinLimit, Fits, totalTokens_eq each]
  constructor
  · rintro ⟨total, same, small⟩
    cases same
    exact ⟨alone, small⟩
  · rintro ⟨-, small⟩
    exact ⟨_, rfl, small⟩

end Partition

attribute [local instance] wholeFloats

end Cinegraph.SpeakerReview
