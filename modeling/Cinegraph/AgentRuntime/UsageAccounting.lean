import Cinegraph.AgentRuntime.ModelUsage
import Mathlib.Data.Nat.Digits.Lemmas

/-!
When the accounting of a run is exact: each response with usage has one entry, each started run is
one attempt, and the order in which responses end changes neither the entries nor the totals.
-/

namespace Cinegraph.AgentRuntime

open Library

section Extraction

variable (controls : AgentRuntimeControlConfiguration)

/-- A place with counts that can be read, and with a stable identity where one is required. -/
def CarriesUsage (candidate : Candidate) : Prop :=
  (rawCounts candidate.value).missing = false ∧
    (∃ counts, (rawCounts candidate.value).read = .ok counts) ∧
    (controls.usageRequired = true → (stableIdentity candidate.value).isSome = true)

/-- The entry has the usage of a place, under the role and the model of the callback. -/
structure EntryOf (bound : Binding) (candidate : Candidate) (entry : ModelUsage) : Prop where
  counts : ∃ counts, (rawCounts candidate.value).read = .ok counts ∧
    entry.inputTokens = counts.input ∧ entry.outputTokens = counts.output ∧
    entry.cachedInputTokens = counts.cached ∧ entry.totalTokens = counts.input + counts.output
  identity : responseIdentity controls candidate = .ok entry.responseIdentity
  role : entry.modelRole = bound.modelRole
  name : entry.modelName = bound.modelName

variable {controls}

theorem isNone_iff {value : PyValue} : value.isNone = true ↔ value = .none := by
  cases value <;> simp [PyValue.isNone]

/-- Where no usage is found, no counts are either. -/
theorem missing_of_usageOf_none {response : PyValue} (none_found : (usageOf response).isNone = true) :
    (rawCounts response).missing = true := by
  have metadata : metadataOf response = .none := by
    rw [isNone_iff, usageOf, PyValue.orElse] at none_found
    split at none_found
    · rename_i truthy
      rw [none_found] at truthy
      cases truthy
    · exact none_found
  have usage : usageOf response = .none := isNone_iff.mp none_found
  simp [rawCounts, namedCounts, usage, metadata, PyValue.get, PyValue.isNone, RawCounts.missing]

theorem ephemeral_label (address : BitVec 64) :
    IsLabel ("ephemeral:" ++ toString address.toNat) := by
  have digits : (Nat.repr address.toNat).length ≤ 20 :=
    Nat.repr_length _ _ (by decide) (lt_trans address.isLt (by norm_num))
  have whole : ("ephemeral:" ++ toString address.toNat).length =
      10 + (Nat.repr address.toNat).length := by
    rw [String.length_append]
    rfl
  constructor
  · intro empty
    rw [empty] at whole
    have zero : ("" : String).length = 0 := rfl
    omega
  · omega

theorem responseIdentity_label {candidate : Candidate} {identity : String}
    (found : responseIdentity controls candidate = .ok identity) : IsLabel identity := by
  unfold responseIdentity at found
  split at found
  · rename_i stable
    cases found
    unfold stableIdentity at stable
    split at stable
    · split at stable
      · cases stable
        assumption
      · cases stable
    · cases stable
  · split at found
    · cases found
    · cases found
      exact ephemeral_label _

theorem priced_ok {bound : Binding} (counts : TokenCounts) {identity : String}
    (rate : (rateOf bound.modelRole bound.modelName controls).isSome = true)
    (role : IsLabel bound.modelRole) (name : IsLabel bound.modelName) (label : IsLabel identity) :
    ∃ entry, priced bound.modelRole bound.modelName controls counts identity = .ok entry ∧
      entry.inputTokens = counts.input ∧ entry.outputTokens = counts.output ∧
      entry.cachedInputTokens = counts.cached ∧ entry.totalTokens = counts.input + counts.output ∧
      entry.responseIdentity = identity ∧ entry.modelRole = bound.modelRole ∧
      entry.modelName = bound.modelName := by
  obtain ⟨rate, found⟩ := Option.isSome_iff_exists.mp rate
  rw [priced, found]
  dsimp only
  rw [UsageFields.create, dif_pos ⟨counts.cached_le, rfl⟩, dif_pos role, dif_pos name, dif_pos label]
  exact ⟨_, rfl, rfl, rfl, rfl, rfl, rfl, rfl, rfl⟩

/-- The extraction behind the identity. -/
theorem extractModelUsage_of_identity {bound : Binding} {candidate : Candidate} {identity : String}
    (identified : responseIdentity controls candidate = .ok identity) :
    extractModelUsage bound.modelRole bound.modelName controls candidate =
      if (usageOf candidate.value).isNone && controls.usageRequired then
        .error (.metadata "usage metadata is required")
      else if (rawCounts candidate.value).missing then
        if controls.usageRequired then .error (.metadata "input/output usage is required")
        else priced bound.modelRole bound.modelName controls ⟨0, 0, 0, Nat.le_refl 0⟩ identity
      else (rawCounts candidate.value).read >>= fun counts =>
        priced bound.modelRole bound.modelName controls counts identity := by
  unfold extractModelUsage
  rw [identified]
  rfl

/-- The usage of a place that carries one is extracted. -/
theorem extract_carried {bound : Binding} {candidate : Candidate}
    (carries : CarriesUsage controls candidate)
    (rate : (rateOf bound.modelRole bound.modelName controls).isSome = true)
    (role : IsLabel bound.modelRole) (name : IsLabel bound.modelName) :
    ∃ entry, extractModelUsage bound.modelRole bound.modelName controls candidate = .ok entry ∧
      EntryOf controls bound candidate entry := by
  obtain ⟨present, ⟨counts, read⟩, stable⟩ := carries
  obtain ⟨identity, identified⟩ : ∃ identity, responseIdentity controls candidate = .ok identity := by
    unfold responseIdentity
    cases found : stableIdentity candidate.value with
    | some identity => exact ⟨identity, rfl⟩
    | none =>
        by_cases required : controls.usageRequired = true
        · have := stable required
          rw [found] at this
          cases this
        · exact ⟨_, if_neg required⟩
  have usage : (usageOf candidate.value).isNone = false := by
    by_contra none_found
    rw [missing_of_usageOf_none (Bool.not_eq_false _ ▸ none_found)] at present
    cases present
  obtain ⟨entry, made, input, output, cached, total, same, in_role, in_name⟩ :=
    priced_ok counts rate role name (responseIdentity_label identified)
  refine ⟨entry, ?_, ⟨counts, read, input, output, cached, total⟩, by rw [identified, same],
    in_role, in_name⟩
  rw [extractModelUsage_of_identity identified, usage, present, read, Bool.false_and,
    if_neg Bool.false_ne_true, if_neg Bool.false_ne_true]
  exact made

/-- A place that carries no usage is refused, unless it has no counts and none are required. -/
theorem extract_refused {bound : Binding} {candidate : Candidate}
    (bare : ¬CarriesUsage controls candidate)
    (counted : controls.usageRequired = true ∨ (rawCounts candidate.value).missing = false) :
    (extractModelUsage bound.modelRole bound.modelName controls candidate).toOption = none := by
  cases identified : responseIdentity controls candidate with
  | error failure =>
      unfold extractModelUsage
      rw [identified]
      rfl
  | ok identity =>
      rw [extractModelUsage_of_identity identified]
      by_cases required : controls.usageRequired = true
      · -- with the identity the response has to have counts, and they cannot be read
        have stable : (stableIdentity candidate.value).isSome = true := by
          unfold responseIdentity at identified
          cases found : stableIdentity candidate.value with
          | some identity => rfl
          | none =>
              rw [found] at identified
              simp [required] at identified
        by_cases no_usage : (usageOf candidate.value).isNone = true
        · rw [no_usage, required]
          rfl
        · rw [Bool.eq_false_iff.mpr no_usage, Bool.false_and, if_neg Bool.false_ne_true]
          by_cases missing : (rawCounts candidate.value).missing = true
          · rw [if_pos missing, if_pos required]
            rfl
          · rw [if_neg missing]
            cases read : (rawCounts candidate.value).read with
            | error failure => rfl
            | ok counts =>
                exact absurd ⟨Bool.eq_false_iff.mpr missing, ⟨counts, read⟩, fun _ => stable⟩ bare
      · have present := counted.resolve_left required
        rw [Bool.eq_false_iff.mpr required, Bool.and_false, if_neg Bool.false_ne_true, present,
          if_neg Bool.false_ne_true]
        cases read : (rawCounts candidate.value).read with
        | error failure => rfl
        | ok counts => exact absurd ⟨present, ⟨counts, read⟩, fun on => absurd on required⟩ bare

end Extraction

section Ledger

/-- A usage under a new key goes behind the others, and the ledger passes its checks again. -/
theorem ModelUsageLedger.add_fresh {ledger : ModelUsageLedger} {usage : ModelUsage}
    (fresh : usage.key ∉ ledger.entries.map ModelUsage.key) :
    ∃ after, ledger.add usage = .ok after ∧ after.entries = ledger.entries ++ [usage] := by
  have absent : (ledger.entries.find? fun existing => existing.key = usage.key) = none := by
    rw [List.find?_eq_none]
    intro existing member same
    exact fresh (List.mem_map.mpr ⟨existing, member, of_decide_eq_true same⟩)
  obtain ⟨consistent, cached⟩ := ledger.consistent
  obtain ⟨input, cachedInput, output, total, cost⟩ := ledger.totals_match
  have distinct := ledger.identities
  obtain ⟨usage_cached, usage_total⟩ := usage.totals
  rw [add, absent]
  dsimp only
  rw [LedgerFields.create, dif_pos, dif_pos, dif_pos]
  · exact ⟨_, rfl, rfl⟩
  · rw [LedgerFields.IdentitiesDistinct, List.map_append, List.map_singleton,
      ← List.concat_eq_append]
    exact distinct.concat fresh
  · simp only [LedgerFields.TotalsMatch, List.map_append, List.map_singleton, List.sum_append,
      List.sum_singleton, input, cachedInput, output, total, cost, and_self]
  · simp only [LedgerFields.TotalsConsistent]
    omega

end Ledger

section Runs

variable {κ ρ : Type} [DecidableEq κ] [DecidableEq ρ] (controls : AgentRuntimeControlConfiguration)
  (binding : κ → Binding)

/-- The first place of a response that carries usage. -/
structure FirstCarrying (response : LLMResult) (before : List Candidate) (candidate : Candidate) :
    Prop where
  place : ∃ after, response.candidates = before ++ candidate :: after
  carries : CarriesUsage controls candidate
  first : ∀ other ∈ before, ¬CarriesUsage controls other

def startedIds (events : List (Event κ ρ)) : List ρ :=
  events.filterMap fun
    | .start _ runId => runId
    | _ => none

/-- The starts that are not followed by an end, after a hook: callbacks with the runs they were given
the start of. -/
def unfinishedAfter (unfinished : List (κ × ρ)) : Event κ ρ → List (κ × ρ)
  | .start callback (some id) => (callback, id) :: unfinished
  | .finish callback (some id) _ | .failed callback (some id) =>
      unfinished.filter (· ≠ (callback, id))
  | _ => unfinished

def unfinished (events : List (Event κ ρ)) : List (κ × ρ) := events.foldl unfinishedAfter []

/-- A start hook begins a provider run unless a callback has an unfinished start of its id; without an
id it begins a run of its own. -/
def begins (unfinished : List (κ × ρ)) : Event κ ρ → Bool
  | .start _ none => true
  | .start _ (some id) => id ∉ unfinished.map Prod.snd
  | _ => false

def providerRunsFrom (unfinished : List (κ × ρ)) : List (Event κ ρ) → Nat
  | [] => 0
  | event :: later =>
      (begins unfinished event).toNat + providerRunsFrom (unfinishedAfter unfinished event) later

/-- The provider runs that begin: an id that is started again after its run has ended is a run of its
own. -/
def providerRuns (events : List (Event κ ρ)) : Nat := providerRunsFrom [] events

/-- The responses that ended, with their callbacks. -/
def endedResponses (events : List (Event κ ρ)) : List (κ × LLMResult) :=
  events.filterMap fun
    | .finish callback _ response => some (callback, response)
    | _ => none

/-- A step that the accounting counts right: a start with an id comes to a callback that holds the id as
running, or no callback has an unfinished start of it; no place without counts stands before the usage of a response where none is
required, the names of the callback fit an entry, and no entry has the key of the new one. -/
def StepOk (state : RunState κ ρ) (before : List (Event κ ρ)) : Event κ ρ → Prop
  | .start callback (some runId) =>
      runId ∈ state.started callback ∨ runId ∉ (unfinished before).map Prod.snd
  | .finish callback _ response =>
      (∀ earlier candidate, FirstCarrying controls response earlier candidate →
        (controls.usageRequired = true ∨
          ∀ other ∈ earlier, (rawCounts other.value).missing = false) ∧
        IsLabel (binding callback).modelRole ∧ IsLabel (binding callback).modelName) ∧
      ∀ usage, extracted controls binding callback response = some usage →
        usage.key ∉ state.budget.ledger.entries.map ModelUsage.key
  | _ => True

def Orderly (events : List (Event κ ρ)) : Prop :=
  ∀ before event after, events = before ++ event :: after →
    StepOk controls binding (run controls binding before) before event

/-- The ledger and the attempts after the hooks of a run. -/
structure Exact (events : List (Event κ ρ)) : Prop where
  checks : (run controls binding events).budget.ledger.TotalsConsistent ∧
    (run controls binding events).budget.ledger.TotalsMatch ∧
    (run controls binding events).budget.ledger.IdentitiesDistinct
  recorded : ∀ callback response, (callback, response) ∈ endedResponses events →
    ∀ earlier candidate, FirstCarrying controls response earlier candidate →
      ∃ entry, EntryOf controls (binding callback) candidate entry ∧
        (run controls binding events).budget.ledger.entries.count entry = 1
  order : ∀ others : List (Event κ ρ), Orderly controls binding others →
    (endedResponses others).Perm (endedResponses events) →
    (run controls binding others).budget.ledger.entries.Perm
        (run controls binding events).budget.ledger.entries ∧
      (run controls binding others).budget.ledger.inputTokens =
        (run controls binding events).budget.ledger.inputTokens ∧
      (run controls binding others).budget.ledger.cachedInputTokens =
        (run controls binding events).budget.ledger.cachedInputTokens ∧
      (run controls binding others).budget.ledger.outputTokens =
        (run controls binding events).budget.ledger.outputTokens ∧
      (run controls binding others).budget.ledger.totalTokens =
        (run controls binding events).budget.ledger.totalTokens ∧
      (run controls binding others).budget.ledger.costMicros =
        (run controls binding events).budget.ledger.costMicros
  attempts : (run controls binding events).budget.attempts = providerRuns events

variable {controls binding}

theorem run_concat (events : List (Event κ ρ)) (event : Event κ ρ) :
    run controls binding (events ++ [event]) =
      (step controls binding (run controls binding events) event).1 := by
  rw [run, List.foldl_append]
  rfl

theorem Orderly.init {events : List (Event κ ρ)} {event : Event κ ρ}
    (orderly : Orderly controls binding (events ++ [event])) : Orderly controls binding events := by
  intro before other after same
  refine orderly before other (after ++ [event]) ?_
  rw [same, List.append_assoc, List.cons_append]

theorem Orderly.last {events : List (Event κ ρ)} {event : Event κ ρ}
    (orderly : Orderly controls binding (events ++ [event])) :
    StepOk controls binding (run controls binding events) events event :=
  orderly events event [] rfl

theorem Orderly.concat {events : List (Event κ ρ)} {event : Event κ ρ}
    (orderly : Orderly controls binding events)
    (right : StepOk controls binding (run controls binding events) events event) :
    Orderly controls binding (events ++ [event]) := by
  intro before other after same
  rcases List.eq_nil_or_concat after with none_left | ⟨left, final, ends⟩
  · rw [none_left] at same
    obtain ⟨events_same, event_same⟩ := List.append_inj' same rfl
    rw [← events_same, ← List.singleton_inj.mp event_same]
    exact right
  · rw [ends, List.concat_eq_append, ← List.cons_append, ← List.append_assoc] at same
    exact orderly before other left (List.append_inj' same rfl).1

@[simp] theorem RunState.discard_budget (state : RunState κ ρ) (callback : κ) (runId : Option ρ) :
    (state.discard callback runId).budget = state.budget := by
  cases runId <;> rfl

theorem RunState.mem_discard {state : RunState κ ρ} {callback other : κ} {runId : Option ρ} {id : ρ}
    (member : id ∈ (state.discard callback runId).started other) :
    id ∈ state.started other ∧ (other = callback → runId ≠ some id) := by
  cases runId with
  | none => exact ⟨member, fun _ => Option.some_ne_none id |>.symm⟩
  | some given =>
      simp only [discard] at member
      by_cases same : other = callback
      · subst same
        rw [Function.update_self, List.mem_filter, decide_eq_true_eq] at member
        obtain ⟨held, different⟩ := member
        exact ⟨held, fun _ ends => different (Option.some.inj ends).symm⟩
      · rw [Function.update_of_ne same] at member
        exact ⟨member, fun here => absurd here same⟩

omit [DecidableEq κ] [DecidableEq ρ] in
/-- What an end adds to the ledger. -/
theorem recordResponse_entries {state : RunState κ ρ} {callback : κ} {response : LLMResult}
    (fresh : ∀ usage, extracted controls binding callback response = some usage →
      usage.key ∉ state.budget.ledger.entries.map ModelUsage.key) :
    (state.recordResponse controls binding callback response).1.budget.ledger.entries =
        state.budget.ledger.entries ++ (extracted controls binding callback response).toList ∧
      (state.recordResponse controls binding callback response).1.budget.attempts =
        state.budget.attempts ∧
      (state.recordResponse controls binding callback response).1.started = state.started := by
  unfold RunState.recordResponse
  cases found : extracted controls binding callback response with
  | none => exact ⟨(List.append_nil _).symm, rfl, rfl⟩
  | some usage =>
      obtain ⟨after, added, entries⟩ := ModelUsageLedger.add_fresh (fresh usage found)
      dsimp only
      rw [AgentUsageBudget.record, added]
      exact ⟨entries, rfl, rfl⟩

variable (controls) in
theorem startCall_budget (budget : AgentUsageBudget) :
    (budget.startCall controls).1 = { budget with attempts := budget.attempts + 1 } := by
  unfold AgentUsageBudget.startCall
  dsimp only
  split <;> rfl

variable (controls) in
/-- A start hook of a new run counts one attempt, also when it is refused. -/
theorem startRun_new {state : RunState κ ρ} {callback : κ} {id : ρ}
    (absent : id ∉ state.started callback) :
    (state.startRun controls callback (some id)).1.budget.ledger = state.budget.ledger ∧
      (state.startRun controls callback (some id)).1.budget.attempts = state.budget.attempts + 1 ∧
      ∀ other given, given ∈ (state.startRun controls callback (some id)).1.started other →
        given ∈ state.started other ∨ (other, given) = (callback, id) := by
  have entered (other : κ) (given : ρ)
      (member : given ∈ Function.update state.started callback (id :: state.started callback) other) :
      given ∈ state.started other ∨ (other, given) = (callback, id) := by
    by_cases same : other = callback
    · subst same
      rw [Function.update_self] at member
      rcases List.mem_cons.mp member with rfl | before
      · exact Or.inr rfl
      · exact Or.inl before
    · rw [Function.update_of_ne same] at member
      exact Or.inl member
  have called := startCall_budget controls state.budget
  unfold RunState.startRun
  dsimp only
  rw [if_neg absent]
  generalize state.budget.startCall controls = outcome at called
  obtain ⟨budget, outcome⟩ := outcome
  dsimp only at called
  rw [called]
  cases outcome with
  | ok u => exact ⟨rfl, rfl, entered⟩
  | error failure =>
      refine ⟨rfl, rfl, fun other given member => ?_⟩
      dsimp only at member
      exact entered other given (RunState.mem_discard member).1

/-- The state of a run beside the hooks that led to it. -/
structure Counted (controls : AgentRuntimeControlConfiguration) (binding : κ → Binding)
    (events : List (Event κ ρ)) (state : RunState κ ρ) : Prop where
  entries : state.budget.ledger.entries =
    (endedResponses events).filterMap fun ended => extracted controls binding ended.1 ended.2
  attempts : state.budget.attempts = providerRuns events
  started : ∀ callback, ∀ id ∈ state.started callback, (callback, id) ∈ unfinished events

omit [DecidableEq κ] [DecidableEq ρ] in
theorem endedResponses_concat (events : List (Event κ ρ)) (event : Event κ ρ) :
    endedResponses (events ++ [event]) = endedResponses events ++ endedResponses [event] :=
  List.filterMap_append

theorem unfinished_concat (events : List (Event κ ρ)) (event : Event κ ρ) :
    unfinished (events ++ [event]) = unfinishedAfter (unfinished events) event := by
  simp [unfinished, List.foldl_append]

theorem providerRunsFrom_concat (going : List (κ × ρ)) (events : List (Event κ ρ))
    (event : Event κ ρ) :
    providerRunsFrom going (events ++ [event]) = providerRunsFrom going events +
      (begins (events.foldl unfinishedAfter going) event).toNat := by
  induction events generalizing going with
  | nil => simp [providerRunsFrom]
  | cons first later ih =>
      simp only [List.cons_append, providerRunsFrom, List.foldl_cons, ih]
      omega

theorem providerRuns_concat (events : List (Event κ ρ)) (event : Event κ ρ) :
    providerRuns (events ++ [event]) =
      providerRuns events + (begins (unfinished events) event).toNat :=
  providerRunsFrom_concat [] events event

/-- An end leaves the starts of other callbacks and of other runs unfinished. -/
theorem mem_unfinished_of_end {events : List (Event κ ρ)} {callback other : κ} {runId : Option ρ}
    {given : ρ} (before : (other, given) ∈ unfinished events)
    (different : other = callback → runId ≠ some given) {event : Event κ ρ}
    (ends : event = .failed callback runId ∨ ∃ response, event = .finish callback runId response) :
    (other, given) ∈ unfinished (events ++ [event]) := by
  rw [unfinished_concat]
  have kept : ∀ id, runId = some id → (other, given) ≠ (callback, id) := by
    rintro id rfl same
    obtain ⟨here, there⟩ := Prod.mk.inj same
    exact different here (congrArg some there.symm)
  rcases ends with rfl | ⟨response, rfl⟩
  all_goals
    cases runId with
    | none => exact before
    | some id => exact List.mem_filter.mpr ⟨before, decide_eq_true (kept id rfl)⟩

/-- One hook keeps the counts right. -/
theorem Counted.step {events : List (Event κ ρ)} {state : RunState κ ρ} {event : Event κ ρ}
    (counted : Counted controls binding events state)
    (right : StepOk controls binding state events event) :
    Counted controls binding (events ++ [event]) (step controls binding state event).1 := by
  have unended {other : Event κ ρ} (no_response : endedResponses [other] = []) :
      endedResponses (events ++ [other]) = endedResponses events := by
    rw [endedResponses_concat, no_response, List.append_nil]
  cases event with
  | start callback runId =>
      cases runId with
      | none =>
          have called := startCall_budget controls state.budget
          refine ⟨?_, ?_, ?_⟩
          · rw [unended rfl, ← counted.entries]
            exact congrArg (fun budget => budget.ledger.entries) called
          · rw [providerRuns_concat, ← counted.attempts]
            exact congrArg AgentUsageBudget.attempts called
          · rw [unfinished_concat]
            exact counted.started
      | some id =>
          have begun {other : κ} {given : ρ}
              (member : given ∈ state.started other ∨ (other, given) = (callback, id)) :
              (other, given) ∈ unfinished (events ++ [.start callback (some id)]) := by
            rw [unfinished_concat, unfinishedAfter, List.mem_cons]
            exact member.symm.imp_right fun before => counted.started other given before
          by_cases running : id ∈ state.started callback
          · have same : (AgentRuntime.step controls binding state (.start callback (some id))).1 =
                state := congrArg Prod.fst (if_pos running)
            have known : id ∈ (unfinished events).map Prod.snd :=
              List.mem_map.mpr ⟨_, counted.started callback id running, rfl⟩
            rw [same]
            refine ⟨?_, ?_, fun other given member => begun (Or.inl member)⟩
            · rw [unended rfl, counted.entries]
            · rw [providerRuns_concat, counted.attempts]
              simp [begins, known]
          · have fresh := right.resolve_left running
            obtain ⟨ledger, attempts, started⟩ := startRun_new controls running
            refine ⟨?_, ?_, fun other given member => begun (started other given member)⟩
            · rw [unended rfl, ← counted.entries]
              exact congrArg (fun ledger => ledger.entries) ledger
            · rw [providerRuns_concat, ← counted.attempts, begins, decide_eq_true fresh]
              exact attempts
  | finish callback runId response =>
      obtain ⟨entries, attempts, started⟩ := recordResponse_entries right.2
      refine ⟨?_, ?_, fun other given member => ?_⟩
      · refine (congrArg (fun budget => budget.ledger.entries)
          (RunState.discard_budget _ callback runId)).trans ?_
        change (state.recordResponse controls binding callback response).1.budget.ledger.entries = _
        rw [entries, counted.entries, endedResponses_concat, List.filterMap_append]
        congr 1
      · rw [providerRuns_concat, ← counted.attempts, ← attempts]
        exact congrArg AgentUsageBudget.attempts (RunState.discard_budget _ callback runId)
      · obtain ⟨before, different⟩ := RunState.mem_discard member
        change given ∈ (state.recordResponse controls binding callback response).1.started other
          at before
        rw [started] at before
        exact mem_unfinished_of_end (counted.started other given before) different
          (Or.inr ⟨response, rfl⟩)
  | failed callback runId =>
      refine ⟨?_, ?_, fun other given member => ?_⟩
      · rw [unended rfl, ← counted.entries]
        exact congrArg (fun budget => budget.ledger.entries)
          (RunState.discard_budget _ callback runId)
      · rw [providerRuns_concat, ← counted.attempts]
        exact congrArg AgentUsageBudget.attempts (RunState.discard_budget _ callback runId)
      · obtain ⟨before, different⟩ := RunState.mem_discard member
        exact mem_unfinished_of_end (counted.started other given before) different (Or.inl rfl)

/-- The counts are right after every run whose steps are. -/
theorem Orderly.counted {events : List (Event κ ρ)} (orderly : Orderly controls binding events) :
    Counted controls binding events (run controls binding events) := by
  induction events using List.reverseRecOn with
  | nil => exact ⟨rfl, rfl, fun callback id member => absurd member List.not_mem_nil⟩
  | append_singleton events event ih =>
      rw [run_concat]
      exact (ih orderly.init).step orderly.last

/-- Each end of the run was a right step. -/
theorem Orderly.finish {events : List (Event κ ρ)} (orderly : Orderly controls binding events)
    {callback : κ} {response : LLMResult} (ended : (callback, response) ∈ endedResponses events) :
    ∃ (before : List (Event κ ρ)) (runId : Option ρ),
      StepOk controls binding (run controls binding before) before
        (.finish callback runId response) := by
  obtain ⟨event, member, found⟩ := List.mem_filterMap.mp ended
  obtain ⟨before, after, whole⟩ := List.append_of_mem member
  have right := orderly before event after whole
  cases event with
  | finish other runId given =>
      cases found
      exact ⟨before, runId, right⟩
  | start other runId => cases found
  | failed other runId => cases found

omit [DecidableEq κ] in
/-- The first place that carries usage is the one whose usage is recorded. -/
theorem FirstCarrying.extracted {callback : κ} {response : LLMResult} {earlier : List Candidate}
    {candidate : Candidate} (first : FirstCarrying controls response earlier candidate)
    (counted : controls.usageRequired = true ∨
      ∀ other ∈ earlier, (rawCounts other.value).missing = false)
    (rate : (rateOf (binding callback).modelRole (binding callback).modelName controls).isSome)
    (role : IsLabel (binding callback).modelRole) (name : IsLabel (binding callback).modelName) :
    ∃ entry, AgentRuntime.extracted controls binding callback response = some entry ∧
      EntryOf controls (binding callback) candidate entry := by
  obtain ⟨after, whole⟩ := first.place
  obtain ⟨entry, made, of_candidate⟩ := extract_carried first.carries rate role name
  refine ⟨entry, ?_, of_candidate⟩
  have refused : earlier.findSome? (fun other =>
      (extractModelUsage (binding callback).modelRole (binding callback).modelName controls
        other).toOption) = none := by
    rw [List.findSome?_eq_none_iff]
    intro other member
    exact extract_refused (first.first other member) (counted.imp_right fun all => all other member)
  rw [AgentRuntime.extracted, whole, List.findSome?_append, refused, Option.none_or,
    List.findSome?_cons, made]
  rfl

/-- The totals of a ledger are those of its entries, in whatever order they stand. -/
theorem ModelUsageLedger.totals_of_perm {one other : ModelUsageLedger}
    (same : one.entries.Perm other.entries) :
    one.inputTokens = other.inputTokens ∧ one.cachedInputTokens = other.cachedInputTokens ∧
      one.outputTokens = other.outputTokens ∧ one.totalTokens = other.totalTokens ∧
      one.costMicros = other.costMicros := by
  obtain ⟨input, cached, output, total, cost⟩ := one.totals_match
  obtain ⟨input', cached', output', total', cost'⟩ := other.totals_match
  rw [← input, ← cached, ← output, ← total, ← cost, ← input', ← cached', ← output', ← total',
    ← cost']
  exact ⟨(same.map _).sum_eq, (same.map _).sum_eq, (same.map _).sum_eq, (same.map _).sum_eq,
    (same.map _).sum_eq⟩

/-- **Exact accounting**: in a run whose steps are all right the ledger passes its checks, each
response with usage has exactly one entry, the order in which responses ended does not matter, and
each provider run is one attempt. -/
theorem usage_exact (priced : ∀ callback,
    (rateOf (binding callback).modelRole (binding callback).modelName controls).isSome)
    {events : List (Event κ ρ)} (orderly : Orderly controls binding events) :
    Exact controls binding events := by
  have counted := orderly.counted
  refine ⟨⟨ModelUsageLedger.consistent _, ModelUsageLedger.totals_match _,
    ModelUsageLedger.identities _⟩, ?_, ?_, counted.attempts⟩
  · intro callback response ended earlier candidate first
    obtain ⟨before, runId, right⟩ := orderly.finish ended
    obtain ⟨located, role, name⟩ := right.1 earlier candidate first
    obtain ⟨entry, found, of_candidate⟩ :=
      first.extracted located (priced callback) role name
    refine ⟨entry, of_candidate, ?_⟩
    have member : entry ∈ (run controls binding events).budget.ledger.entries := by
      rw [counted.entries]
      exact List.mem_filterMap.mpr ⟨(callback, response), ended, found⟩
    have distinct : (run controls binding events).budget.ledger.entries.Nodup :=
      (ModelUsageLedger.identities _).of_map
    exact List.count_eq_one_of_mem distinct member
  · intro others orderly_others same
    have perm : (run controls binding others).budget.ledger.entries.Perm
        (run controls binding events).budget.ledger.entries := by
      rw [counted.entries, orderly_others.counted.entries]
      exact same.filterMap _
    exact ⟨perm, ModelUsageLedger.totals_of_perm perm⟩

end Runs

section Sample

def sampleControls : AgentRuntimeControlConfiguration where
  maxModelCalls := 8
  maxInputTokens := 100000
  maxOutputTokens := 100000
  maxTotalTokens := 200000
  maxEstimatedCostMicros := 1000000
  maxExecutionDurationSeconds := 60
  usageRequired := false
  ratesByModel := Dict.empty.set "model" ⟨400, 100, 1600, by decide⟩
  ratesByRole := Dict.empty
  limits_pos := by decide
  total_covers := by decide
  keys_filled := by decide

/-- A response whose metadata has counts and no identity, at an address. -/
def sampleCandidate (input output : Int) (address : BitVec 64) : Candidate where
  value := .object [("usage_metadata",
    .mapping [("input_tokens", .int input), ("output_tokens", .int output)])]
  address := address

def sampleResponse (input output : Int) (address : BitVec 64) : LLMResult where
  generations := [.many [⟨sampleCandidate input output address, none, none⟩]]
  llmOutput := none

/-- Two runs, one after the other, with their responses at given addresses. -/
def sampleRun (address other : BitVec 64) : List (Event Unit Nat) :=
  [.start () (some 1), .finish () (some 1) (sampleResponse 10 5 address),
    .start () (some 2), .finish () (some 2) (sampleResponse 7 3 other)]

def sampleBinding (_ : Unit) : Binding := ⟨"role", "model"⟩

theorem sample_priced (callback : Unit) :
    (rateOf (sampleBinding callback).modelRole (sampleBinding callback).modelName
      sampleControls).isSome := by
  decide +revert

theorem sampleCandidate_carries (input output : Nat) (address : BitVec 64) :
    CarriesUsage sampleControls (sampleCandidate input output address) :=
  ⟨rfl, ⟨_, rfl⟩, fun required => by cases required⟩

theorem sample_finish {state : RunState Unit Nat} {before : List (Event Unit Nat)} {id : Nat}
    {input output : Nat} {address : BitVec 64}
    (fresh : (extracted sampleControls sampleBinding () (sampleResponse input output address)).all
      fun usage => decide (usage.key ∉ state.budget.ledger.entries.map ModelUsage.key)) :
    StepOk sampleControls sampleBinding state before
      (.finish () (some id) (sampleResponse input output address)) := by
  refine ⟨fun earlier candidate first => ⟨Or.inr fun other member => ?_, by decide, by decide⟩,
    fun usage found => ?_⟩
  · obtain ⟨after, whole⟩ := first.place
    have only : other ∈ [sampleCandidate input output address] := by
      change other ∈ (sampleResponse input output address).candidates
      rw [whole]
      exact List.mem_append_left _ member
    rw [List.mem_singleton.mp only]
    rfl
  · rw [found] at fresh
    exact of_decide_eq_true fresh

/-- An id that is started again after its run has ended, with both start hooks. -/
def restartedRun : List (Event Unit Nat) :=
  [.start () (some 1), .finish () (some 1) (sampleResponse 10 5 4096), .start () (some 1),
    .start () (some 1), .finish () (some 1) (sampleResponse 7 3 8192)]

/-- The two runs of the id are two attempts, and their responses at two addresses have an entry
each. -/
theorem usage_exact_sample : Exact sampleControls sampleBinding restartedRun ∧
    (run sampleControls sampleBinding restartedRun).budget.attempts = 2 := by
  have none_yet : Orderly sampleControls sampleBinding ([] : List (Event Unit Nat)) := by
    intro before event after same
    cases before <;> cases same
  have orderly : Orderly sampleControls sampleBinding restartedRun := by
    refine ((((none_yet.concat ?_).concat ?_).concat ?_).concat ?_).concat ?_
    · exact Or.inr List.not_mem_nil
    · exact sample_finish (by decide +kernel)
    · exact Or.inr (by decide)
    · exact Or.inl (by decide)
    · exact sample_finish (by decide +kernel)
  have accounting := usage_exact sample_priced orderly
  exact ⟨accounting, accounting.attempts⟩

/-- The second response stands at the address of the first, which was freed: both get one identity
from it, and the usage of the second is in no entry. -/
theorem reused_address_loses_usage :
    (∀ ended ∈ endedResponses (sampleRun 4096 4096), ∀ candidate ∈ ended.2.candidates,
      stableIdentity candidate.value = none) ∧
    (startedIds (sampleRun 4096 4096)).Nodup ∧
    ((), sampleResponse 7 3 4096) ∈ endedResponses (sampleRun 4096 4096) ∧
    FirstCarrying sampleControls (sampleResponse 7 3 4096) [] (sampleCandidate 7 3 4096) ∧
    ∀ entry ∈ (run sampleControls sampleBinding (sampleRun 4096 4096)).budget.ledger.entries,
      ¬EntryOf sampleControls (sampleBinding ()) (sampleCandidate 7 3 4096) entry := by
  refine ⟨?_, by decide, by simp [endedResponses, sampleRun],
    ⟨⟨[], rfl⟩, sampleCandidate_carries 7 3 4096, fun other member => by cases member⟩, ?_⟩
  · have none_offered : ∀ input output : Int, ∀ candidate ∈
        (sampleResponse input output 4096).candidates, stableIdentity candidate.value = none := by
      intro input output candidate member
      rw [List.mem_singleton.mp member]
      rfl
    have both : endedResponses (sampleRun 4096 4096) =
        [((), sampleResponse 10 5 4096), ((), sampleResponse 7 3 4096)] := rfl
    rw [both]
    exact List.forall_mem_cons.mpr
      ⟨none_offered 10 5, List.forall_mem_singleton.mpr (none_offered 7 3)⟩
  · intro entry member of_second
    have first : ∀ entry ∈
        (run sampleControls sampleBinding (sampleRun 4096 4096)).budget.ledger.entries,
        entry.inputTokens = 10 := by
      decide +kernel
    obtain ⟨counts, read, input, -⟩ := of_second.counts
    have seven : (rawCounts (sampleCandidate 7 3 4096).value).read =
        .ok ⟨7, 3, 0, Nat.zero_le 7⟩ := rfl
    rw [seven] at read
    cases read
    rw [first entry member] at input
    cases input

end Sample

end Cinegraph.AgentRuntime
