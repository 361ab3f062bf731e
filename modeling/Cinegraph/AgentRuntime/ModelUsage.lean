import Cinegraph.Library.Dict
import Mathlib.Logic.Function.Basic

/-!
Accounting of model usage in an agent run: what the metadata of a response says, the ledger of the
run, and the callbacks that count the calls and record their usage.
-/

namespace Cinegraph.AgentRuntime

open Library

/-- What the accounting raises. -/
inductive UsageFailure where
  | metadata (message : String)
  | budgetExceeded
  deriving DecidableEq, Repr

structure ModelTokenRate where
  inputMicrosPerMillion : Nat
  cachedInputMicrosPerMillion : Nat
  outputMicrosPerMillion : Nat
  rates_pos : 0 < inputMicrosPerMillion ∧ 0 < cachedInputMicrosPerMillion ∧
    0 < outputMicrosPerMillion

structure AgentRuntimeControlConfiguration where
  maxModelCalls : Nat
  maxInputTokens : Nat
  maxOutputTokens : Nat
  maxTotalTokens : Nat
  maxEstimatedCostMicros : Nat
  maxExecutionDurationSeconds : Nat
  usageRequired : Bool
  ratesByModel : Dict String ModelTokenRate
  ratesByRole : Dict String ModelTokenRate
  limits_pos : 0 < maxModelCalls ∧ 0 < maxInputTokens ∧ 0 < maxOutputTokens ∧
    0 < maxTotalTokens ∧ 0 < maxEstimatedCostMicros ∧ 0 < maxExecutionDurationSeconds
  total_covers : max maxInputTokens maxOutputTokens ≤ maxTotalTokens
  keys_filled : "" ∉ ratesByModel.keys ∧ "" ∉ ratesByRole.keys

/-- The values that are looked at in the metadata of a response. -/
inductive PyValue where
  | none
  | bool (value : Bool)
  | int (value : Int)
  | str (value : String)
  | other (truthy : Bool)
  | mapping (items : List (String × PyValue))
  | object (attributes : List (String × PyValue))

namespace PyValue

def truthy : PyValue → Bool
  | .none => false
  | .bool b => b
  | .int n => n ≠ 0
  | .str s => s ≠ ""
  | .other truthy => truthy
  | .mapping items => !items.isEmpty
  | .object _ => true

/-- `a or b` -/
def orElse (a b : PyValue) : PyValue := if a.truthy then a else b

def isNone : PyValue → Bool
  | .none => true
  | _ => false

/-- `_get` -/
def get : PyValue → String → PyValue
  | .mapping items, key | .object items, key => (items.lookup key).getD .none
  | _, _ => .none

/-- `_count` -/
def count (value : PyValue) (label : String) : Except UsageFailure Nat :=
  match value with
  | .int n => if n < 0 then .error (.metadata ("invalid " ++ label)) else .ok n.toNat
  | _ => .error (.metadata ("invalid " ++ label))

end PyValue

/-- `isinstance(value, str) and value and len(value) <= 256` -/
def IsLabel (text : String) : Prop := text ≠ "" ∧ text.length ≤ 256

instance (text : String) : Decidable (IsLabel text) := instDecidableAnd

/-- The arguments of `ModelUsage`. -/
structure UsageFields where
  inputTokens : Nat
  cachedInputTokens : Nat
  outputTokens : Nat
  totalTokens : Nat
  costMicros : Nat
  modelRole : String
  modelName : String
  responseIdentity : String
  deriving DecidableEq

structure ModelUsage extends UsageFields where
  totals : cachedInputTokens ≤ inputTokens ∧ totalTokens = inputTokens + outputTokens
  role_label : IsLabel modelRole
  name_label : IsLabel modelName
  identity_label : IsLabel responseIdentity
  deriving DecidableEq

def UsageFields.create (fields : UsageFields) : Except UsageFailure ModelUsage :=
  if totals : fields.cachedInputTokens ≤ fields.inputTokens ∧
      fields.totalTokens = fields.inputTokens + fields.outputTokens then
    if role : IsLabel fields.modelRole then
      if name : IsLabel fields.modelName then
        if identity : IsLabel fields.responseIdentity then .ok ⟨fields, totals, role, name, identity⟩
        else .error (.metadata "invalid response_identity")
      else .error (.metadata "invalid model_name")
    else .error (.metadata "invalid model_role")
  else .error (.metadata "inconsistent token totals")

/-- Entries of one response: its role, its model and its identity. -/
def ModelUsage.key (usage : ModelUsage) : String × String × String :=
  (usage.modelRole, usage.modelName, usage.responseIdentity)

/-- The arguments of `ModelUsageLedger`. -/
structure LedgerFields where
  entries : List ModelUsage := []
  inputTokens : Nat := 0
  cachedInputTokens : Nat := 0
  outputTokens : Nat := 0
  totalTokens : Nat := 0
  costMicros : Nat := 0

namespace LedgerFields

def TotalsConsistent (fields : LedgerFields) : Prop :=
  fields.totalTokens = fields.inputTokens + fields.outputTokens ∧
    fields.cachedInputTokens ≤ fields.inputTokens

def TotalsMatch (fields : LedgerFields) : Prop :=
  (fields.entries.map fun item => item.inputTokens).sum = fields.inputTokens ∧
    (fields.entries.map fun item => item.cachedInputTokens).sum = fields.cachedInputTokens ∧
    (fields.entries.map fun item => item.outputTokens).sum = fields.outputTokens ∧
    (fields.entries.map fun item => item.totalTokens).sum = fields.totalTokens ∧
    (fields.entries.map fun item => item.costMicros).sum = fields.costMicros

def IdentitiesDistinct (fields : LedgerFields) : Prop := (fields.entries.map ModelUsage.key).Nodup

instance (fields : LedgerFields) : Decidable fields.TotalsConsistent := instDecidableAnd

instance (fields : LedgerFields) : Decidable fields.TotalsMatch :=
  inferInstanceAs (Decidable (_ ∧ _ ∧ _ ∧ _ ∧ _))

instance (fields : LedgerFields) : Decidable fields.IdentitiesDistinct :=
  inferInstanceAs (Decidable (List.Nodup _))

end LedgerFields

structure ModelUsageLedger extends LedgerFields where
  consistent : toLedgerFields.TotalsConsistent
  totals_match : toLedgerFields.TotalsMatch
  identities : toLedgerFields.IdentitiesDistinct

def LedgerFields.create (fields : LedgerFields) : Except UsageFailure ModelUsageLedger :=
  if consistent : fields.TotalsConsistent then
    if totals : fields.TotalsMatch then
      if identities : fields.IdentitiesDistinct then .ok ⟨fields, consistent, totals, identities⟩
      else .error (.metadata "duplicate ledger response metadata")
    else .error (.metadata "ledger totals do not match entries")
  else .error (.metadata "inconsistent ledger totals")

def ModelUsageLedger.empty : ModelUsageLedger :=
  ⟨{}, by decide, by decide, by decide⟩

def ModelUsageLedger.add (ledger : ModelUsageLedger) (usage : ModelUsage) :
    Except UsageFailure ModelUsageLedger :=
  match ledger.entries.find? fun existing => existing.key = usage.key with
  | some existing =>
      if existing ≠ usage then .error (.metadata "conflicting duplicate response metadata")
      else .ok ledger
  | none => LedgerFields.create {
      entries := ledger.entries ++ [usage]
      inputTokens := ledger.inputTokens + usage.inputTokens
      cachedInputTokens := ledger.cachedInputTokens + usage.cachedInputTokens
      outputTokens := ledger.outputTokens + usage.outputTokens
      totalTokens := ledger.totalTokens + usage.totalTokens
      costMicros := ledger.costMicros + usage.costMicros }

/-! ### The usage of a response -/

/-- A place of a response where metadata is looked for, with the address of its object. -/
structure Candidate where
  value : PyValue
  address : BitVec 64

section Extract

/-- The identity that the metadata offers, of whatever type. -/
def offeredIdentity (response : PyValue) : PyValue :=
  (response.get "id").orElse (((response.get "response_metadata").get "id").orElse
    ((response.get "response_metadata").get "response_id"))

def stableIdentity (response : PyValue) : Option String :=
  match offeredIdentity response with
  | .str identity => if IsLabel identity then some identity else none
  | _ => none

def metadataOf (response : PyValue) : PyValue :=
  (response.get "usage_metadata").orElse (response.get "response_metadata")

/-- `_get(metadata, "usage_metadata") or metadata` -/
def usageOf (response : PyValue) : PyValue :=
  ((metadataOf response).get "usage_metadata").orElse (metadataOf response)

/-- The input, output and cached counts as they stand in the metadata. -/
structure RawCounts where
  input : PyValue
  output : PyValue
  cached : PyValue

/-- The counts under their first names, or under those of `token_usage`. -/
def namedCounts (response : PyValue) : RawCounts :=
  let usage := usageOf response
  let direct : RawCounts :=
    ⟨usage.get "input_tokens", usage.get "output_tokens", usage.get "cached_input_tokens"⟩
  if direct.input.isNone || direct.output.isNone then
    let tokenUsage := (metadataOf response).get "token_usage"
    { input := tokenUsage.get "prompt_tokens"
      output := tokenUsage.get "completion_tokens"
      cached := if direct.cached.isNone then
          (tokenUsage.get "prompt_tokens_details").get "cached_tokens"
        else direct.cached }
  else direct

def rawCounts (response : PyValue) : RawCounts :=
  let named := namedCounts response
  if named.cached.isNone then
    { named with cached := ((usageOf response).get "input_token_details").get "cache_read" }
  else named

def RawCounts.missing (raw : RawCounts) : Bool := raw.input.isNone || raw.output.isNone

/-- The counts as numbers, cached input within the input. -/
structure TokenCounts where
  input : Nat
  output : Nat
  cached : Nat
  cached_le : cached ≤ input

def RawCounts.read (raw : RawCounts) : Except UsageFailure TokenCounts := do
  let input ← raw.input.count "input_tokens"
  let output ← raw.output.count "output_tokens"
  let cached ← (raw.cached.orElse (.int 0)).count "cached_input_tokens"
  if cached_le : cached ≤ input then return ⟨input, output, cached, cached_le⟩
  else .error (.metadata "cached input exceeds input")

variable (modelRole modelName : String) (controls : AgentRuntimeControlConfiguration)

/-- `rates_by_model.get(model_name) or rates_by_role.get(model_role)` -/
def rateOf : Option ModelTokenRate :=
  (controls.ratesByModel.get? modelName).or (controls.ratesByRole.get? modelRole)

def costOf (rate : ModelTokenRate) (counts : TokenCounts) : Nat :=
  ((counts.input - counts.cached) * rate.inputMicrosPerMillion +
    counts.cached * rate.cachedInputMicrosPerMillion +
    counts.output * rate.outputMicrosPerMillion + 999999) / 1000000

/-- The usage record of read counts. -/
def priced (counts : TokenCounts) (identity : String) : Except UsageFailure ModelUsage :=
  match rateOf modelRole modelName controls with
  | none => .error (.metadata "model pricing is not configured")
  | some rate => UsageFields.create {
      inputTokens := counts.input
      cachedInputTokens := counts.cached
      outputTokens := counts.output
      totalTokens := counts.input + counts.output
      costMicros := costOf rate counts
      modelRole, modelName
      responseIdentity := identity }

/-- The stable identity, or the address of the object where none is required. -/
def responseIdentity (response : Candidate) : Except UsageFailure String :=
  match stableIdentity response.value with
  | some identity => .ok identity
  | none =>
      if controls.usageRequired then .error (.metadata "stable response identity is required")
      else .ok ("ephemeral:" ++ toString response.address.toNat)

def extractModelUsage (response : Candidate) : Except UsageFailure ModelUsage := do
  let identity ← responseIdentity controls response
  let raw := rawCounts response.value
  if (usageOf response.value).isNone && controls.usageRequired then
    .error (.metadata "usage metadata is required")
  else if raw.missing then
    if controls.usageRequired then .error (.metadata "input/output usage is required")
    else priced modelRole modelName controls ⟨0, 0, 0, Nat.le_refl 0⟩ identity
  else do
    let counts ← raw.read
    priced modelRole modelName controls counts identity

end Extract

/-! ### The callbacks -/

/-- A generation of a response; its message stands for it where it has one. -/
structure Generation where
  itself : Candidate
  message : Option Candidate
  generationInfo : Option Candidate

/-- A row of generations, or a single one in its place. -/
inductive GenerationRow where
  | many (generations : List Generation)
  | one (generation : Generation)

def GenerationRow.generations : GenerationRow → List Generation
  | .many generations => generations
  | .one generation => [generation]

structure LLMResult where
  generations : List GenerationRow
  llmOutput : Option Candidate

/-- The places that are inspected, in their order. -/
def LLMResult.candidates (response : LLMResult) : List Candidate :=
  (response.generations.flatMap fun row => row.generations.flatMap fun generation =>
    generation.message.getD generation.itself :: generation.generationInfo.toList) ++
  response.llmOutput.toList

structure AgentUsageBudget where
  ledger : ModelUsageLedger
  attempts : Nat

section Budget

variable (controls : AgentRuntimeControlConfiguration)

def AgentUsageBudget.startCall (budget : AgentUsageBudget) :
    AgentUsageBudget × Except UsageFailure Unit :=
  let counted := { budget with attempts := budget.attempts + 1 }
  if controls.maxModelCalls ≠ 0 ∧ controls.maxModelCalls < counted.attempts then
    (counted, .error .budgetExceeded)
  else (counted, .ok ())

def ModelUsageLedger.exceeds (ledger : ModelUsageLedger) : Prop :=
  controls.maxInputTokens < ledger.inputTokens ∨ controls.maxOutputTokens < ledger.outputTokens ∨
    controls.maxTotalTokens < ledger.totalTokens ∨
    controls.maxEstimatedCostMicros < ledger.costMicros

instance (ledger : ModelUsageLedger) : Decidable (ledger.exceeds controls) :=
  inferInstanceAs (Decidable (_ ∨ _ ∨ _ ∨ _))

/-- The usage is kept even when the response is rejected at the boundary. -/
def AgentUsageBudget.record (budget : AgentUsageBudget) (usage : ModelUsage) :
    AgentUsageBudget × Except UsageFailure Unit :=
  match budget.ledger.add usage with
  | .error failure => (budget, .error failure)
  | .ok candidate =>
      ({ budget with ledger := candidate },
        if candidate.exceeds controls then .error .budgetExceeded else .ok ())

end Budget

/-- The role and the model a callback is bound to. -/
structure Binding where
  modelRole : String
  modelName : String

section Callbacks

variable {κ ρ : Type} [DecidableEq κ] [DecidableEq ρ] (controls : AgentRuntimeControlConfiguration)
  (binding : κ → Binding)

/-- The budget of a run with the runs each callback has started and not finished. -/
structure RunState (κ ρ : Type) where
  budget : AgentUsageBudget := ⟨.empty, 0⟩
  started : κ → List ρ := fun _ => []

/-- A hook that is called: either start hook, the end with its response, or the error. -/
inductive Event (κ ρ : Type) where
  | start (callback : κ) (runId : Option ρ)
  | finish (callback : κ) (runId : Option ρ) (response : LLMResult)
  | failed (callback : κ) (runId : Option ρ)

def RunState.discard (state : RunState κ ρ) (callback : κ) (runId : Option ρ) : RunState κ ρ :=
  match runId with
  | none => state
  | some runId =>
      let left := (state.started callback).filter (· ≠ runId)
      { state with started := Function.update state.started callback left }

/-- `_start` -/
def RunState.startRun (state : RunState κ ρ) (callback : κ) (runId : Option ρ) :
    RunState κ ρ × Except UsageFailure Unit :=
  match runId with
  | none =>
      let (budget, outcome) := state.budget.startCall controls
      ({ state with budget }, outcome)
  | some id =>
      if id ∈ state.started callback then (state, .ok ())
      else
        let begun := id :: state.started callback
        let entered : RunState κ ρ :=
          { state with started := Function.update state.started callback begun }
        match entered.budget.startCall controls with
        | (budget, .ok ()) => ({ entered with budget }, .ok ())
        | (budget, .error failure) =>
            (({ entered with budget } : RunState κ ρ).discard callback (some id), .error failure)

/-- The first place whose usage can be extracted. -/
def extracted (callback : κ) (response : LLMResult) : Option ModelUsage :=
  response.candidates.findSome? fun candidate =>
    (extractModelUsage (binding callback).modelRole (binding callback).modelName controls
      candidate).toOption

/-- `on_llm_end`, before its `finally` -/
def RunState.recordResponse (state : RunState κ ρ) (callback : κ) (response : LLMResult) :
    RunState κ ρ × Except UsageFailure Unit :=
  match extracted controls binding callback response with
  | some usage =>
      let (budget, outcome) := state.budget.record controls usage
      ({ state with budget }, outcome)
  | none =>
      (state, if controls.usageRequired then .error (.metadata "usage metadata is required")
        else .ok ())

def step (state : RunState κ ρ) : Event κ ρ → RunState κ ρ × Except UsageFailure Unit
  | .start callback runId => state.startRun controls callback runId
  | .finish callback runId response =>
      let (recorded, outcome) := state.recordResponse controls binding callback response
      (recorded.discard callback runId, outcome)
  | .failed callback runId => (state.discard callback runId, .ok ())

/-- The state after the hooks of a run; what a hook raises goes to its caller. -/
def run (events : List (Event κ ρ)) : RunState κ ρ :=
  events.foldl (fun state event => (step controls binding state event).1) {}

end Callbacks

end Cinegraph.AgentRuntime
