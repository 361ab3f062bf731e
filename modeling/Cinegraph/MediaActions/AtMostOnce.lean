import Cinegraph.Library.WholeFloats
import Cinegraph.MediaActions.Service

/-!
How often a provider takes the effect of a command: the mock provider once for each key, the
Jellyfin provider once unless a request that took effect is not remembered and repeated.
-/

namespace Cinegraph.MediaActions

open Library Identity MediaActionService

/-- How often effects for an idempotency key are visible. -/
def effectsFor (key : String) (effects : List MediaCommand) : Nat :=
  effects.countP fun command => command.idempotencyKey = key

theorem effectsFor_replicate (key : String) (count : Nat) (command : MediaCommand)
    (effects : List MediaCommand) :
    effectsFor key (List.replicate count command ++ effects) =
      (if command.idempotencyKey = key then count else 0) + effectsFor key effects := by
  rw [effectsFor, List.countP_append, List.countP_replicate]
  simp only [decide_eq_true_eq]
  rfl

namespace MockMediaProvider

variable [Floats] [Sha256] {configuration : MockMediaProviderConfiguration} {p : State}

omit [Floats] [Sha256] in
theorem post_requireCommand {command : MediaCommand} {Q : ProfileState → State → Prop}
    {E : Raised → State → Prop} (returns : ∀ state, Q state p) (raises : ∀ e, E e p) :
    Exec.Post (requireCommand command) Q E p := by
  simp [requireCommand, requireReady, requireConnection, requireProfile, requireEpisodes,
    Exec.post_lift, Exec.post_require, Exec.post_map, returns, raises]

/-- Every effect is remembered, and none is repeated. -/
structure Remembered (p : State) : Prop where
  remembered : ∀ command ∈ p.applied, p.executions.get? command.idempotencyKey ≠ none
  once : ∀ key, effectsFor key p.applied ≤ 1

/-- What an execution does to the effects: it leaves them alone, or takes the effect of a command
whose key is not remembered, and remembers it. -/
theorem execute_cases (configuration : MockMediaProviderConfiguration) (command : MediaCommand)
    (p : State) :
    let after := (Exec.run (execute configuration command) p).2
    (after.applied = p.applied ∧ ∀ key, p.executions.get? key ≠ none → after.executions.get? key ≠ none) ∨
      (p.executions.get? command.idempotencyKey = none ∧ after.applied = command :: p.applied ∧
        ∃ execution, after.executions = p.executions.set command.idempotencyKey execution) := by
  let R (after : State) : Prop :=
    (after.applied = p.applied ∧ ∀ key, p.executions.get? key ≠ none → after.executions.get? key ≠ none) ∨
      (p.executions.get? command.idempotencyKey = none ∧ after.applied = command :: p.applied ∧
        ∃ execution, after.executions = p.executions.set command.idempotencyKey execution)
  have same : R p := .inl ⟨rfl, fun _ found => found⟩
  have kept (key : String) (execution : String × MediaActionResult) (q : String)
      (found : p.executions.get? q ≠ none) : (p.executions.set key execution).get? q ≠ none := by
    rw [Dict.get?_set]
    split
    · exact Option.some_ne_none _
    · exact found
  change R _
  rw [← Exec.post_state (R := R), execute, Exec.post_bind]
  apply post_requireCommand
  · intro state
    dsimp only
    rw [Exec.post_ite]
    refine ⟨fun _ => same, fun _ => ?_⟩
    rw [Exec.post_bind, Exec.post_get]
    split
    · rw [Exec.post_bind, Exec.post_lift]
      exact ⟨fun _ _ => same, fun _ _ => same⟩
    · rename_i absent
      cases configuration.staleWrites with
      | true => exact .inl ⟨rfl, kept _ _⟩
      | false => exact .inr ⟨absent, rfl, _, rfl⟩
  · exact fun _ => same

theorem remembered_execute (command : MediaCommand) (before : Remembered p) :
    Remembered (Exec.run (execute configuration command) p).2 := by
  rcases execute_cases configuration command p with ⟨same, kept⟩ | ⟨absent, applied, execution, set⟩
  · constructor
    · rw [same]
      exact fun other member => kept _ (before.remembered other member)
    · rw [same]
      exact before.once
  · constructor
    · rw [applied, set]
      intro other member
      rw [Dict.get?_set]
      split
      · exact Option.some_ne_none _
      · rename_i different
        rcases List.mem_cons.mp member with rfl | older
        · exact absurd rfl different
        · exact before.remembered other older
    · intro key
      rw [applied]
      have count := effectsFor_replicate key 1 command p.applied
      simp only [List.replicate_one, List.singleton_append] at count
      rw [count]
      split
      · rename_i same
        subst same
        have none_before : effectsFor command.idempotencyKey p.applied = 0 := by
          apply List.countP_eq_zero.mpr
          intro other member same
          simp only [decide_eq_true_eq] at same
          apply before.remembered other member
          rw [same]
          exact absent
        omega
      · have := before.once key
        omega

omit [Floats] [Sha256] in
theorem run_connectionRevision (connectionId : UUID) (p : State) :
    (Exec.run (connectionRevision connectionId) p).2 = p := by
  rw [← Exec.post_state (R := fun t => t = p)]
  simp [connectionRevision, requireReady, requireConnection, Exec.post_lift, Exec.post_map]

omit [Floats] [Sha256] in
theorem run_verify (command : MediaCommand) (result : MediaActionResult) (p : State) :
    (Exec.run (verify configuration command result) p).2 = p := by
  rw [← Exec.post_state (R := fun t => t = p), verify, Exec.post_bind]
  apply post_requireCommand
  · intro state
    rw [Exec.post_bind, Exec.post_get]
    split
    · rfl
    · rw [Exec.post_bind, Exec.post_lift]
      refine ⟨fun _ _ => ?_, fun _ _ => rfl⟩
      split
      · rfl
      · split <;> rfl
  · exact fun _ => rfl

theorem lawful (configuration : MockMediaProviderConfiguration) : Lawful (provider configuration) where
  revision _ connectionId p := by
    change (Exec.run (connectionRevision connectionId) p).2.applied = p.applied
    rw [run_connectionRevision]
  execute _ command p := by
    rcases execute_cases configuration command p with ⟨same, _⟩ | ⟨_, applied, _⟩
    · exact ⟨0, same⟩
    · exact ⟨1, applied⟩
  verify _ command result p := by
    change (Exec.run (verify configuration command result) p).2.applied = p.applied
    rw [run_verify]
  outside change p := by
    cases change <;> rfl

omit [Floats] [Sha256] in
theorem remembered_outside (change : Change) (before : Remembered p) :
    Remembered (outside change p) := by
  cases change <;> exact ⟨before.remembered, before.once⟩

end MockMediaProvider

namespace MediaActionService

section Remembering

variable {σ ω δ : Type} [Floats] [Sha256] {provider : MediaProvider σ ω δ}
  {configuration : MediaActionConfiguration} {executions : σ → Executions}

/-- Only an execution is remembered, the first of its key, and a later one replays it. -/
structure Remembering (provider : MediaProvider σ ω δ) (executions : σ → Executions) : Prop where
  revision : ∀ world connectionId p,
    executions (Exec.run (provider.connectionRevision world connectionId) p).2 = executions p
  verify : ∀ world command result p,
    executions (Exec.run (provider.verify world command result) p).2 = executions p
  outside : ∀ change p, executions (provider.outside change p) = executions p
  replays : ∀ world command p commandSha256 first,
    (executions p).get? command.idempotencyKey = some (commandSha256, first) →
      Exec.Post (provider.execute world command)
        (fun result q => executions q = executions p ∧ provider.effects q = provider.effects p ∧
          commandSha256 = command.parameterSha256 ∧ result = { first with idempotentReplay := true })
        (fun _ q => executions q = executions p) p
  remembers : ∀ world command p, (executions p).get? command.idempotencyKey = none →
    Exec.Post (provider.execute world command)
      (fun result q => result.idempotentReplay = false ∧
        executions q = (executions p).set command.idempotencyKey (command.parameterSha256, result))
      (fun _ q => executions q = executions p) p

/-- An execution leaves what is remembered alone, or remembers a first result under a new key. -/
theorem Remembering.cases (remembering : Remembering provider executions) (world : ω)
    (command : MediaCommand) (p : σ) :
    let after := (Exec.run (provider.execute world command) p).2
    executions after = executions p ∨ (executions p).get? command.idempotencyKey = none ∧
      ∃ result, result.idempotentReplay = false ∧ executions after =
        (executions p).set command.idempotencyKey (command.parameterSha256, result) := by
  rcases known : (executions p).get? command.idempotencyKey with _ | ⟨commandSha256, first⟩
  · apply (remembering.remembers world command p known).leaves
      (R := fun q => executions q = executions p ∨ _ ∧ ∃ result, result.idempotentReplay = false ∧
        executions q = (executions p).set command.idempotencyKey (command.parameterSha256, result))
    · exact fun result q fresh => Or.inr ⟨rfl, result, fresh⟩
    · exact fun _ _ same => Or.inl same
  · left
    apply (remembering.replays world command p commandSha256 first known).leaves
      (R := fun q => executions q = executions p)
    · exact fun _ _ replay => replay.1
    · exact fun _ _ same => same

/-- An execution keeps what is remembered. -/
theorem Remembering.kept (remembering : Remembering provider executions) (world : ω)
    (command : MediaCommand) {p : σ} {key : String} {execution : String × MediaActionResult}
    (found : (executions p).get? key = some execution) :
    (executions (Exec.run (provider.execute world command) p).2).get? key = some execution := by
  rcases remembering.cases world command p with same | ⟨absent, result, _, set⟩
  · rw [same]
    exact found
  · rw [set, Dict.get?_set, if_neg]
    · exact found
    · rintro rfl
      cases absent.symm.trans found

/-- An execution that returned is remembered. -/
theorem Remembering.returned (remembering : Remembering provider executions) {world : ω}
    {command : MediaCommand} {p q : σ} {result : MediaActionResult}
    (ran : Exec.run (provider.execute world command) p = (.ok result, q)) :
    ∃ execution, (executions q).get? command.idempotencyKey = some execution := by
  rcases known : (executions p).get? command.idempotencyKey with _ | ⟨commandSha256, first⟩
  · obtain ⟨_, set⟩ := (remembering.remembers world command p known).of_ok ran
    rw [set, Dict.get?_set_self]
    exact ⟨_, rfl⟩
  · obtain ⟨same, _⟩ := (remembering.replays world command p commandSha256 first known).of_ok ran
    rw [same]
    exact ⟨_, known⟩

/-- What is remembered stays remembered in every run. -/
theorem Remembering.kept_of_run (remembering : Remembering provider executions)
    {C : State σ → Action ω δ → Prop} {s t : State σ}
    (run : Run (step provider configuration) C s t) {key : String}
    {execution : String × MediaActionResult}
    (found : (executions s.provider).get? key = some execution) :
    (executions t.provider).get? key = some execution := by
  apply provider_of_run (P := fun p => (executions p).get? key = some execution) run found
  · intro world connectionId p before
    rw [remembering.revision]
    exact before
  · intro world command result p before
    rw [remembering.verify]
    exact before
  · intro change p before
    rw [remembering.outside]
    exact before
  · exact fun _ _ world _ _ command _ _ _ before => remembering.kept world command before

end Remembering

end MediaActionService

namespace JellyfinMediaProvider

variable [Floats] [Sha256] {connection : JellyfinConnectionSettings}
  {configuration : JellyfinProviderConfiguration} {p : State}

/-- What a request leaves: the executions, and at most its own effects at the server. -/
def Left (effects : List MediaCommand) (p after : State) : Prop :=
  after.executions = p.executions ∧ (after.server = p.server ∨ after.server = effects ++ p.server)

omit [Floats] [Sha256] in
theorem Left.server_eq {after : State} (left : Left [] p after) : after.server = p.server := by
  rcases left.2 with same | same <;> exact same

omit [Floats] [Sha256] in
theorem post_request {exchange : Exchange} {retrySafe : Bool} {effects : List MediaCommand}
    {Q : Option Json → State → Prop} {E : Raised → State → Prop}
    (returns : ∀ body after, Left effects p after → Q body after)
    (raises : ∀ e after, Left effects p after → E e after) :
    Exec.Post (request configuration exchange retrySafe effects) Q E p := by
  rw [request, Exec.post_bind, Exec.post_get]
  dsimp only
  rw [Exec.post_ite]
  refine ⟨fun _ => raises _ p ⟨rfl, .inl rfl⟩, fun _ => ?_⟩
  rw [Exec.post_bind, Exec.post_modify]
  split
  · exact returns _ _ ⟨rfl, .inr rfl⟩
  · exact raises _ _ ⟨rfl, .inr rfl⟩
  · exact raises _ _ ⟨rfl, .inr rfl⟩

omit [Floats] [Sha256] in
theorem post_requestJson {exchange : Exchange} {retrySafe : Bool} {effects : List MediaCommand}
    {Q : Json → State → Prop} {E : Raised → State → Prop}
    (returns : ∀ payload after, Left effects p after → Q payload after)
    (raises : ∀ e after, Left effects p after → E e after) :
    Exec.Post (requestJson configuration exchange retrySafe effects) Q E p := by
  rw [requestJson, Exec.post_bind]
  apply post_request
  · intro body after left
    split
    · exact returns _ after left
    · exact returns _ after left
    · exact raises _ after left
  · exact raises

theorem post_connectionRevision {exchange : Exchange} {connectionId : UUID}
    {Q : String → State → Prop} {E : Raised → State → Prop}
    (returns : ∀ revision after, Left [] p after → Q revision after)
    (raises : ∀ e after, Left [] p after → E e after) :
    Exec.Post (connectionRevision connection configuration exchange connectionId) Q E p := by
  rw [connectionRevision, Exec.post_bind, Exec.post_lift]
  refine ⟨fun _ _ => ?_, fun e _ => raises e p ⟨rfl, .inl rfl⟩⟩
  rw [Exec.post_bind]
  apply post_requestJson
  · intro info after left
    simp only [Exec.post_bind, Exec.post_lift, Exec.post_modify, Exec.post_pure]
    refine ⟨fun serverId _ => ⟨fun serverVersion _ => ⟨fun _ _ => ?_, fun e _ => raises e after left⟩,
      fun e _ => raises e after left⟩, fun e _ => raises e after left⟩
    exact returns _ _ left
  · exact raises

theorem post_executeOnce {exchange : Exchange} {command : MediaCommand}
    {Q : MediaActionResult → State → Prop} {E : Raised → State → Prop}
    (returns : ∀ result after,
      Left (List.replicate (visibleEffects configuration command.kind exchange) command) p after →
        Q result after)
    (raises : ∀ e after,
      Left (List.replicate (visibleEffects configuration command.kind exchange) command) p after →
        E e after) :
    Exec.Post (executeOnce connection configuration exchange command) Q E p := by
  rw [executeOnce, Exec.post_bind, Exec.post_require]
  refine ⟨fun itemId _ => ?_, fun _ => raises _ p ⟨rfl, .inl rfl⟩⟩
  dsimp only
  generalize List.replicate (visibleEffects configuration command.kind exchange) command = effects
    at returns raises ⊢
  split
  · rw [Exec.post_bind]
    exact post_requestJson (fun _ after left => returns _ after left) raises
  · rw [Exec.post_bind]
    exact post_requestJson (fun _ after left => returns _ after left) raises
  · rw [Exec.post_bind]
    apply post_requestJson
    · intro payload after left
      rw [Exec.post_bind, Exec.post_lift]
      exact ⟨fun _ _ => returns _ after left, fun e _ => raises e after left⟩
    · exact raises
  · rw [Exec.post_bind, Exec.post_require]
    refine ⟨fun session _ => ?_, fun _ => raises _ p ⟨rfl, .inl rfl⟩⟩
    rw [Exec.post_bind, Exec.post_discard]
    exact post_request (fun _ after left => returns _ after left) raises

variable (connection configuration) in
/-- What an execution does at the server: nothing where the key is remembered, and otherwise at
most the visible effects of its own request. -/
theorem execute_server (environment : Environment) (command : MediaCommand) (p : State) :
    let after := (Exec.run (execute connection configuration environment command) p).2
    after.server = p.server ∨
      (p.executions.get? command.idempotencyKey = none ∧
        after.server = List.replicate
          (visibleEffects configuration command.kind environment.request) command ++ p.server) := by
  let R (after : State) : Prop :=
    after.server = p.server ∨
      (p.executions.get? command.idempotencyKey = none ∧
        after.server = List.replicate
          (visibleEffects configuration command.kind environment.request) command ++ p.server)
  have same : ∀ after, Left [] p after → R after := by
    rintro after ⟨_, unchanged | unchanged⟩ <;> exact .inl unchanged
  have untouched : R p := .inl rfl
  change R _
  rw [← Exec.post_state (R := R), execute, Exec.post_bind, Exec.post_lift]
  refine ⟨fun _ _ => ?_, fun _ _ => untouched⟩
  rw [Exec.post_bind]
  apply post_connectionRevision
  · intro current middle left
    dsimp only
    rw [Exec.post_ite]
    refine ⟨fun _ => same middle left, fun _ => ?_⟩
    rw [Exec.post_bind, Exec.post_get]
    obtain ⟨executions, server⟩ := left
    rw [List.nil_append, or_self] at server
    split
    · rw [Exec.post_bind, Exec.post_lift]
      exact ⟨fun _ _ => .inl server, fun _ _ => .inl server⟩
    · rename_i absent
      rw [executions] at absent
      have after : ∀ last, Left (List.replicate
          (visibleEffects configuration command.kind environment.request) command) middle last →
            R last := by
        rintro last ⟨_, unchanged | added⟩
        · exact .inl (unchanged.trans server)
        · rw [server] at added
          exact .inr ⟨absent, added⟩
      rw [Exec.post_bind]
      exact post_executeOnce (fun _ last left => after last left) fun _ last left => after last left
  · exact fun _ => same

theorem revision_left (environment : Environment) (connectionId : UUID) (p : State) :
    Left [] p
      (Exec.run (connectionRevision connection configuration environment.info connectionId) p).2 := by
  apply Exec.post_state.mp
  apply post_connectionRevision
  · exact fun _ _ left => left
  · exact fun _ _ left => left

omit [Floats] [Sha256] in
/-- A verification that reads one answer of the server leaves the state as reading left it. -/
theorem post_reading {α : Type} {exchange : Exchange} {read : Json → Except Raised α} {answer : α → Bool}
    {R : State → Prop} (kept : ∀ after, Left [] p after → R after) :
    Exec.Post (do
      let payload ← requestJson configuration exchange true []
      let value ← Exec.lift (read payload)
      return answer value) (fun _ => R) (fun _ => R) p := by
  rw [Exec.post_bind]
  apply post_requestJson
  · intro payload after left
    rw [Exec.post_bind, Exec.post_lift]
    exact ⟨fun _ _ => kept after left, fun _ _ => kept after left⟩
  · exact fun _ => kept

omit [Floats] [Sha256] in
/-- A verification remembers no execution and takes no effect. -/
theorem verify_left (environment : Environment) (command : MediaCommand) (result : MediaActionResult)
    (p : State) :
    Left [] p (Exec.run (verify connection configuration environment command result) p).2 := by
  have untouched : Left [] p p := ⟨rfl, .inl rfl⟩
  apply Exec.post_state.mp
  rw [verify, Exec.post_bind, Exec.post_lift]
  refine ⟨fun _ _ => ?_, fun _ _ => untouched⟩
  rw [Exec.post_bind, Exec.post_get, Exec.post_bind, Exec.post_lift]
  refine ⟨fun _ _ => ?_, fun _ _ => untouched⟩
  rw [Exec.post_bind, Exec.post_require]
  refine ⟨fun itemId _ => ?_, fun _ => untouched⟩
  split
  · exact post_reading fun _ left => left
  · exact post_reading fun _ left => left
  · exact post_reading fun _ left => left
  · split
    · exact untouched
    · rw [Exec.post_bind]
      apply post_requestJson
      · intro payload after left
        dsimp only
        rw [Exec.post_ite]
        exact ⟨fun _ => left, fun _ => left⟩
      · exact fun _ _ left => left

theorem lawful (connection : JellyfinConnectionSettings) (configuration : JellyfinProviderConfiguration) :
    Lawful (provider connection configuration) where
  revision environment connectionId p := (revision_left environment connectionId p).server_eq
  execute environment command p := by
    rcases execute_server connection configuration environment command p with same | ⟨_, added⟩
    · exact ⟨0, same⟩
    · exact ⟨_, added⟩
  verify environment command result p := (verify_left environment command result p).server_eq
  outside _ _ := rfl

/-- A request that is sent gives a first result. -/
theorem executeOnce_first (exchange : Exchange) (command : MediaCommand) :
    Exec.Post (executeOnce connection configuration exchange command)
      (fun result _ => result.idempotentReplay = false) (fun _ _ => True) p := by
  rw [executeOnce]
  refine Exec.post_bind_of_forall (fun itemId q => ?_) fun _ _ => trivial
  dsimp only
  split
  · exact Exec.post_bind_of_forall (fun _ _ => rfl) fun _ _ => trivial
  · exact Exec.post_bind_of_forall (fun _ _ => rfl) fun _ _ => trivial
  · refine Exec.post_bind_of_forall (fun payload r => ?_) fun _ _ => trivial
    exact Exec.post_bind_of_forall (fun _ _ => rfl) fun _ _ => trivial
  · refine Exec.post_bind_of_forall (fun session r => ?_) fun _ _ => trivial
    exact Exec.post_bind_of_forall (fun _ _ => rfl) fun _ _ => trivial

theorem remembering (connection : JellyfinConnectionSettings)
    (configuration : JellyfinProviderConfiguration) :
    Remembering (provider connection configuration) State.executions where
  revision environment connectionId p := (revision_left environment connectionId p).1
  verify environment command result p := (verify_left environment command result p).1
  outside _ _ := rfl
  replays environment command p commandSha256 first known := by
    change Exec.Post (execute connection configuration environment command) _ _ p
    rw [execute, Exec.post_bind, Exec.post_lift]
    refine ⟨fun _ _ => ?_, fun _ _ => rfl⟩
    rw [Exec.post_bind]
    apply post_connectionRevision
    · intro current q left
      dsimp only
      rw [Exec.post_ite]
      refine ⟨fun _ => left.1, fun _ => ?_⟩
      rw [Exec.post_bind, Exec.post_get, left.1, known]
      dsimp only
      rw [Exec.post_bind, Exec.post_lift]
      refine ⟨fun _ accepted => ?_, fun _ _ => left.1⟩
      exact ⟨left.1, left.server_eq, not_not.mp (reject_eq_ok.mp accepted), rfl⟩
    · exact fun _ _ left => left.1
  remembers environment command p absent := by
    change Exec.Post (execute connection configuration environment command) _ _ p
    rw [execute, Exec.post_bind, Exec.post_lift]
    refine ⟨fun _ _ => ?_, fun _ _ => rfl⟩
    rw [Exec.post_bind]
    apply post_connectionRevision
    · intro current q left
      dsimp only
      rw [Exec.post_ite]
      refine ⟨fun _ => left.1, fun _ => ?_⟩
      rw [Exec.post_bind, Exec.post_get, left.1, absent]
      dsimp only
      rw [Exec.post_bind]
      have executed : Exec.Post (executeOnce connection configuration environment.request command)
          (fun _ after => after.executions = p.executions)
          (fun _ after => after.executions = p.executions) q := by
        apply post_executeOnce
        · exact fun _ after kept => kept.1.trans left.1
        · exact fun _ after kept => kept.1.trans left.1
      refine (executed.and (executeOnce_first environment.request command)).mono ?_ ?_
      · rintro result after ⟨kept, flag⟩
        rw [Exec.post_bind, Exec.post_modify, Exec.post_pure]
        refine ⟨flag, ?_⟩
        change after.executions.set _ _ = _
        rw [kept]
      · exact fun _ _ kept => kept.1
    · exact fun _ _ left => left.1

/-- The step repeats no effect that is not remembered: where the execution of the key is not
remembered, the visible effects of this request and those so far are at most one. -/
def Unrepeated (configuration : JellyfinProviderConfiguration) (s : MediaActions.State State) :
    Action Environment Change → Prop
  | .execute thread environment fault =>
      match s.calls thread, fault with
      | some (.executing _ command), .none | some (.executing _ command), .after =>
          s.provider.executions.get? command.idempotencyKey = none →
            visibleEffects configuration command.kind environment.request +
              effectsFor command.idempotencyKey s.provider.server ≤ 1
      | _, _ => True
  | _ => True

omit [Floats] [Sha256] in
/-- The condition is met where the key is remembered. -/
theorem unrepeated_of_remembered {s : MediaActions.State State} {thread : Nat}
    {environment : Environment} {fault : Fault} {approval : ApprovalRequest} {command : MediaCommand}
    {execution : String × MediaActionResult}
    (waiting : s.calls thread = some (.executing approval command))
    (remembered : s.provider.executions.get? command.idempotencyKey = some execution) :
    Unrepeated configuration s (.execute thread environment fault) := by
  cases fault with
  | before => simp [Unrepeated]
  | none => simp [Unrepeated, waiting, remembered]
  | after => simp [Unrepeated, waiting, remembered]

/-- Once an execution returned, no run executes its key in a way that repeats an effect. -/
theorem unrepeated_of_returned (actions : MediaActionConfiguration)
    {C : MediaActions.State State → Action Environment Change → Prop} {s t : MediaActions.State State}
    {environment later : Environment} {command again : MediaCommand} {result : MediaActionResult}
    {thread : Nat} {fault : Fault} {approval : ApprovalRequest}
    (returned : Exec.run ((provider connection configuration).execute environment command) p =
      (.ok result, s.provider))
    (run : Run (step (provider connection configuration) actions) C s t)
    (waiting : t.calls thread = some (.executing approval again))
    (same : again.idempotencyKey = command.idempotencyKey) :
    Unrepeated configuration t (.execute thread later fault) := by
  have remembering := remembering connection configuration
  obtain ⟨execution, remembered⟩ := remembering.returned returned
  have kept := remembering.kept_of_run run remembered
  rw [← same] at kept
  exact unrepeated_of_remembered waiting kept

/-- An execution that repeats nothing keeps the effects of every key at most one. -/
theorem once_execute {environment : Environment} {command : MediaCommand}
    (once : ∀ key, effectsFor key p.server ≤ 1)
    (unrepeated : p.executions.get? command.idempotencyKey = none →
      visibleEffects configuration command.kind environment.request +
        effectsFor command.idempotencyKey p.server ≤ 1) (key : String) :
    effectsFor key (Exec.run (execute connection configuration environment command) p).2.server ≤ 1 := by
  rcases execute_server connection configuration environment command p with same | ⟨absent, added⟩
  · rw [same]
    exact once key
  · rw [added, effectsFor_replicate]
    split
    · rename_i same
      subst same
      exact unrepeated absent
    · have := once key
      omega

end JellyfinMediaProvider

/-! ### Every run -/

section Main

variable [Floats] [Sha256]

/-- In a state of a run, a step makes visible only effects of commands that an approval was
recorded for as approved, and an approval that is rejected or verified stays as it is. -/
def ApprovedFirst {σ ω δ : Type} (provider : MediaProvider σ ω δ)
    (configuration : MediaActionConfiguration) (s : State σ) : Prop :=
  (∀ action t, step provider configuration s action = some t →
    ∃ added, provider.effects t.provider = added ++ provider.effects s.provider ∧
      ∀ command ∈ added, Approved s.recorded command.parameterSha256) ∧
  ∀ approvalId approval, s.approvals.get approvalId = some approval → Settled approval.status →
    ∀ t, Run (step provider configuration) (fun _ _ => True) s t →
      t.approvals.get approvalId = some approval

theorem approvedFirst_of_run {σ ω δ : Type} {provider : MediaProvider σ ω δ}
    {configuration : MediaActionConfiguration} {C : State σ → Action ω δ → Prop} {p : σ} {s : State σ}
    (lawful : Lawful provider) (none_visible : provider.effects p = [])
    (run : Run (step provider configuration) C (start p) s) :
    ApprovedFirst provider configuration s := by
  have invariant := invariant_of_run lawful run (.at_start none_visible)
  constructor
  · exact fun action t taken => invariant.effects_of_step lawful taken
  · exact fun approvalId approval found settled t more => settled_of_run more found settled

/-- With either provider the effect of a command is taken only after an approval of this very
command was recorded as approved, and no approval leaves a settled status. The mock provider takes
the effects of a key at most once. The Jellyfin provider does in every run in which no execution
repeats an effect that is not remembered. -/
theorem approved_and_at_most_once (configuration : MediaActionConfiguration) :
    (∀ mock p s, p.applied = [] →
      Run (step (MockMediaProvider.provider mock) configuration) (fun _ _ => True) (start p) s →
        ApprovedFirst (MockMediaProvider.provider mock) configuration s ∧
          ∀ key, effectsFor key s.provider.applied ≤ 1) ∧
    ∀ connection jellyfin p s, p.server = [] →
      (Run (step (JellyfinMediaProvider.provider connection jellyfin) configuration)
          (fun _ _ => True) (start p) s →
        ApprovedFirst (JellyfinMediaProvider.provider connection jellyfin) configuration s) ∧
      (Run (step (JellyfinMediaProvider.provider connection jellyfin) configuration)
          (JellyfinMediaProvider.Unrepeated jellyfin) (start p) s →
        ∀ key, effectsFor key s.provider.server ≤ 1) := by
  constructor
  · intro mock p s fresh run
    have remembered : MockMediaProvider.Remembered s.provider := by
      apply provider_of_run run
      · refine ⟨fun command member => ?_, fun key => ?_⟩
        · rw [start, fresh] at member
          cases member
        · rw [start, fresh]
          exact Nat.zero_le 1
      · intro _ connectionId q before
        change MockMediaProvider.Remembered
          (Exec.run (MockMediaProvider.connectionRevision connectionId) q).2
        rw [MockMediaProvider.run_connectionRevision]
        exact before
      · intro _ command result q before
        change MockMediaProvider.Remembered
          (Exec.run (MockMediaProvider.verify mock command result) q).2
        rw [MockMediaProvider.run_verify]
        exact before
      · exact fun change q before => MockMediaProvider.remembered_outside change before
      · exact fun _ _ _ _ _ command _ _ _ before => MockMediaProvider.remembered_execute command before
    exact ⟨approvedFirst_of_run (MockMediaProvider.lawful mock) fresh run, remembered.once⟩
  · intro connection jellyfin p s fresh
    refine ⟨approvedFirst_of_run (JellyfinMediaProvider.lawful connection jellyfin) fresh, fun run => ?_⟩
    have lawful := JellyfinMediaProvider.lawful connection jellyfin
    let provider := JellyfinMediaProvider.provider connection jellyfin
    apply provider_of_run (P := fun q => ∀ key, effectsFor key (provider.effects q) ≤ 1) run
    · intro key
      change effectsFor key p.server ≤ 1
      rw [fresh]
      exact Nat.zero_le 1
    · intro environment connectionId q before
      rw [lawful.revision]
      exact before
    · intro environment command result q before
      rw [lawful.verify]
      exact before
    · exact fun _ _ before => before
    · intro s thread environment fault approval command unrepeated waiting ran before
      apply JellyfinMediaProvider.once_execute before
      cases fault with
      | before => exact absurd rfl ran
      | none => simpa [JellyfinMediaProvider.Unrepeated, waiting] using unrepeated
      | after => simpa [JellyfinMediaProvider.Unrepeated, waiting] using unrepeated

end Main

namespace MediaActionSamples

section Approved

variable {σ ω δ : Type} [Floats] [Sha256] {provider : MediaProvider σ ω δ}
  {configuration : MediaActionConfiguration} {world : ω} {principal : SessionPrincipal}
  {command : MediaCommand} {p : σ}

omit [Floats] [Sha256] in
/-- A provider that reports the revision of the command is ready for it. -/
theorem ready_of_read {middle : σ} (authorized : requireAuthorized configuration principal command = .ok ())
    (read : Exec.run (provider.connectionRevision world command.providerConnectionId) p =
      (.ok command.providerConnectionRevision, middle)) :
    Exec.run (requireReady provider configuration world principal command) p = (.ok (), middle) := by
  rw [requireReady, requireConnectionRevision, authorized, Exec.run_bind, Exec.run_lift_ok]
  dsimp only
  rw [Exec.run_bind, read]
  dsimp only
  rw [reject_of_not (not_not.mpr rfl)]
  rfl

omit [Floats] [Sha256] in
/-- A call begins where the checks succeed and the read gives what it needs. -/
theorem beginCall_eq {α : Type} {s : State σ} {q : σ} {thread : Nat} {read : Except Raised α} {a : α}
    {next : α → Option Call} (idle : s.calls thread = none)
    (ready : Exec.run (requireReady provider configuration world principal command) s.provider =
      (.ok (), q)) (found : read = .ok a) :
    beginCall s thread (requireReady provider configuration world principal command) read next =
      some (State.put { s with provider := q } thread (next a)) := by
  simp [beginCall, idle, callProvider, Exec.run_bind, ready, found]

/-- The approval of a command that was proposed and approved at once. -/
def approvedAt (configuration : MediaActionConfiguration) (command : MediaCommand) (userId : UUID)
    (now : DateTime) : ApprovalRequest :=
  { proposed configuration userId command.profileId ⟨9⟩ command now with
    status := .approved
    decidedAt := some now }

/-- The store that holds one approval. -/
def holding (command : MediaCommand) (approval : ApprovalRequest) : InMemoryApprovalRepository where
  items := Dict.empty.set ⟨9⟩ approval
  approvalIdByIdempotencyKey := Dict.empty.set command.idempotencyKey ⟨9⟩

/-- The state in which only thread 0 has a call. -/
def threadAt (p : σ) (approvals : InMemoryApprovalRepository) (recorded : List ApprovalRequest)
    (call : Option Call) : State σ :=
  State.put { approvals := approvals, provider := p, calls := fun _ => none, recorded := recorded } 0
    call

/-- The four steps that propose a command and approve it. -/
theorem approved_of_ready {C : State σ → Action ω δ → Prop} (userId : UUID)
    (user : principal.userId = some userId) (profile : principal.profileId = command.profileId)
    (ready : Exec.run (requireReady provider configuration world principal command) p = (.ok (), p))
    (meets : ∀ s action, (∀ thread world fault, action ≠ .execute thread world fault) → C s action)
    (now : DateTime) :
    ∃ recorded, Run (step provider configuration) C (start p)
      (threadAt p (holding command (approvedAt configuration command userId now)) recorded none) := by
  let pending := proposed configuration userId command.profileId ⟨9⟩ command now
  let approved := approvedAt configuration command userId now
  let proposing := threadAt p .empty [] (some (.proposing userId principal.profileId command))
  let added := threadAt p (holding command pending) [pending] none
  let deciding := threadAt p (holding command pending) [pending] (some (.deciding pending true))
  let decided := threadAt p (holding command approved) [approved, pending] none
  have propose : step provider configuration (start p) (.propose 0 principal command world) =
      some proposing := by
    have nothing : findExisting (start p).approvals command = .ok none := rfl
    rw [step, beginCall_eq rfl ready nothing, user]
    rfl
  have add : step provider configuration proposing (.add 0 ⟨9⟩ now .none) = some added := by
    have ok : InMemoryApprovalRepository.empty.add pending = .ok (holding command pending) := rfl
    rw [step]
    simp only [proposing, threadAt, put_calls, put_approvals, profile]
    change some (store _ 0 .none
      (do return (pending, ← InMemoryApprovalRepository.empty.add pending)) _) = _
    rw [ok]
    simp [store, put_with, added, threadAt]
  have decide : step provider configuration added
      (.decide 0 principal command ⟨⟨9⟩, command.parameterSha256, true⟩ world) = some deciding := by
    have exact : requireExactApproval added.approvals command ⟨⟨9⟩, command.parameterSha256, true⟩ =
        .ok pending := by
      have found : added.approvals.get ⟨9⟩ = some pending := Dict.get?_set_self _ _ _
      have agrees : ¬(command.parameterSha256 ≠ command.parameterSha256 ∨
          pending.commandSha256 ≠ command.parameterSha256 ∨ pending.commandId ≠ command.commandId ∨
          pending.profileId ≠ command.profileId ∨
          pending.providerConnectionId ≠ command.providerConnectionId) := by
        simp [pending, proposed]
      rw [requireExactApproval, found]
      dsimp only
      rw [reject_of_not agrees]
      rfl
    have idle : added.calls 0 = none := put_calls
    rw [step, beginCall_eq idle ready exact]
    simp [added, deciding, threadAt, State.put]
  have save : step provider configuration deciding (.saveDecision 0 now .none) = some decided := by
    have intime : ¬pending.expiresAt < now := by
      have positive := configuration.ttl_positive
      change ¬now.micros + configuration.approvalTtl < now.micros
      omega
    have ok : pending.decide true now = .ok approved := by
      have allowed : ¬(pending.status ≠ .pending ∨ pending.expiresAt < now) :=
        not_or.mpr ⟨fun different => different rfl, intime⟩
      rw [ApprovalRequest.decide, if_neg allowed]
      rfl
    have stored : (holding command pending).save approved .pending = .ok (holding command approved) :=
      rfl
    rw [step]
    simp only [deciding, threadAt, put_calls, put_approvals]
    rw [reject_of_not intime, ok_bind, ok, ok_bind, stored]
    simp [store, put_with, decided, threadAt]
  have first := Run.start.next (meets _ _ fun _ _ _ h => by cases h) propose
  have second := first.next (meets _ _ fun _ _ _ h => by cases h) add
  have third := second.next (meets _ _ fun _ _ _ h => by cases h) decide
  exact ⟨_, third.next (meets _ _ fun _ _ _ h => by cases h) save⟩

/-- The steps that execute an approved command, up to the call of the provider. -/
theorem executed_of_ready {C : State σ → Action ω δ → Prop} (userId : UUID) (now : DateTime)
    (recorded : List ApprovalRequest) {result : Except Raised MediaActionResult} {middle q : σ}
    (ready : Exec.run (requireReady provider configuration world principal command) p =
      (.ok (), middle))
    (called : Exec.run (provider.execute world command) middle = (result, q))
    (meets : ∀ s action, (∀ thread world fault, action ≠ .execute thread world fault) → C s action)
    (condition : C (threadAt middle (holding command (approvedAt configuration command userId now)) recorded
      (some (.executing (approvedAt configuration command userId now) command))) (.execute 0 world .none)) :
    Run (step provider configuration) C
      (threadAt p (holding command (approvedAt configuration command userId now)) recorded none)
      (threadAt q (holding command (approvedAt configuration command userId now)) recorded
        (result.toOption.map (.executed (approvedAt configuration command userId now) command ·))) := by
  let approved := approvedAt configuration command userId now
  let idle := threadAt p (holding command approved) recorded none
  let executing :=
    threadAt middle (holding command approved) recorded (some (.executing approved command))
  have begin_execution : step provider configuration idle (.executeApproved 0 principal command ⟨9⟩ world) =
      some executing := by
    have read : requireApproved idle.approvals command ⟨9⟩ = .ok approved := by
      have found : idle.approvals.get ⟨9⟩ = some approved := Dict.get?_set_self _ _ _
      have agrees : ¬(approved.commandSha256 ≠ command.parameterSha256 ∨ approved.status ≠ .approved) := by
        simp [approved, approvedAt, proposed]
      rw [requireApproved, found]
      dsimp only
      rw [reject_of_not agrees]
      rfl
    have waits : idle.calls 0 = none := put_calls
    rw [step, beginCall_eq waits ready read]
    simp [idle, executing, threadAt, State.put]
  have execution : step provider configuration executing (.execute 0 world .none) =
      some (threadAt q (holding command approved) recorded
        (result.toOption.map (.executed approved command ·))) := by
    rw [step]
    simp only [executing, threadAt, put_calls]
    cases result with
    | error e => simp [callProvider, called, put_with, Except.toOption]
    | ok a => simp [callProvider, called, put_with, Except.toOption]
  have first := Run.start.next (meets _ _ fun _ _ _ h => by cases h) begin_execution
  exact first.next condition execution

end Approved

open JellyfinMediaProvider in
def connection : JellyfinConnectionSettings where
  connectionId := ⟨1⟩
  profileId := ⟨2⟩
  baseUrl := "https://media"
  userId := "viewer"
  playbackSessionId := some "tv"
  episodeMappings := [(⟨3⟩, "item")]

open JellyfinMediaProvider in
def jellyfin : JellyfinProviderConfiguration where
  maximumAttempts := 3
  retryableStatusCodes := [503]
  circuitFailureThreshold := 3
  circuitRecoverySeconds := 30
  attempts_positive := by decide
  codes_nonempty := by decide
  threshold_positive := by decide
  recovery_positive := by decide

def configuration : MediaActionConfiguration where
  approvalTtl := 900000000
  permittedCommandKinds := [.markWatched, .setFavorite, .createPlaylist, .requestPlayback]
  ttl_positive := by decide
  kinds_nonempty := by decide

def principal : SessionPrincipal := .authenticated ⟨2⟩ ⟨4⟩

/-- The instant at which everything happens. -/
def noon : DateTime := ⟨.utc, 0⟩

section Playback

variable [Floats] [Sha256]

/-- A request to play the episode, prepared for the server as it is. -/
def playback : MediaCommand where
  commandId := ⟨5⟩
  kind := .requestPlayback
  profileId := ⟨2⟩
  providerConnectionId := ⟨1⟩
  providerOwnerUserId := ⟨4⟩
  providerConnectionRevision := JellyfinMediaProvider.revision connection "server" "1"
  idempotencyKey := "play-3"
  episodeIds := [⟨3⟩]
  playlistName := none
  favorite := none
  revision_trimmed := trimmed_of_isDigest (Sha256.isDigest_hexdigest _)
  key_trimmed := by decide +kernel
  episodes_unique := by decide
  parameters := ⟨rfl, rfl, rfl⟩

open JellyfinMediaProvider in
/-- The server says who it is, then plays the episode; whether it answers the request is `answer`. -/
def world (answer : JellyfinMediaProvider.Answer) : Environment where
  info := {
    now := 0
    attempts := fun _ =>
      { answer := .response 200 (some (.obj
          [("Id", .str "server"), ("Version", .str "1"), ("ServerName", .str "Home")]))
        applied := false
        alreadySet := false }
    failedAt := 0 }
  request := {
    now := 0
    attempts := fun _ => { answer := answer, applied := true, alreadySet := false }
    failedAt := 0 }

/-- A provider that has read the revision of its server. -/
def waiting (server : List MediaCommand) (failures : Nat) : JellyfinMediaProvider.State :=
  { JellyfinMediaProvider.start with
    lastRevision := JellyfinMediaProvider.revision connection "server" "1"
    consecutiveFailures := failures
    server := server }

theorem revision_read (answer : JellyfinMediaProvider.Answer) (server : List MediaCommand)
    (failures : Nat) :
    Exec.run (JellyfinMediaProvider.connectionRevision connection jellyfin (world answer).info ⟨1⟩)
      (waiting server failures) =
        (.ok (JellyfinMediaProvider.revision connection "server" "1"), waiting server 0) := rfl

theorem ready (answer : JellyfinMediaProvider.Answer) (server : List MediaCommand) (failures : Nat) :
    Exec.run (requireReady (JellyfinMediaProvider.provider connection jellyfin) configuration
      (world answer) principal playback) (waiting server failures) = (.ok (), waiting server 0) :=
  ready_of_read rfl (revision_read answer server failures)

/-- The execution whose answer is lost: the server plays, and nothing is remembered. -/
theorem execute_lost (server : List MediaCommand) :
    Exec.run ((JellyfinMediaProvider.provider connection jellyfin).execute (world .requestError)
      playback) (waiting server 0) =
        (.error ⟨.connectionError, MediaProviderErrorMessages.PROVIDER_REQUEST_FAILED⟩,
          waiting (playback :: server) 1) := by
  have owned : JellyfinMediaProvider.requireCommand connection playback = .ok () := rfl
  have read : Exec.run (JellyfinMediaProvider.connectionRevision connection jellyfin
      (world .requestError).info playback.providerConnectionId) (waiting server 0) =
        (.ok playback.providerConnectionRevision, waiting server 0) :=
    revision_read .requestError server 0
  change Exec.run (JellyfinMediaProvider.execute connection jellyfin (world .requestError) playback) _ = _
  rw [JellyfinMediaProvider.execute, owned, Exec.run_bind, Exec.run_lift_ok]
  dsimp only
  rw [Exec.run_bind, read]
  dsimp only
  rw [if_neg (not_not.mpr rfl)]
  rfl

/-- The result of the playback. -/
def playedResult : MediaActionResult where
  commandId := playback.commandId
  externalReference := "tv" ++ ":" ++ "item"
  providerStateRevision := JellyfinMediaProvider.payloadRevision
    (.obj [("session_id", .str "tv"), ("item_id", .str "item")])
  idempotentReplay := false

/-- A provider that remembers the playback. -/
def played (server : List MediaCommand) (failures : Nat) : JellyfinMediaProvider.State :=
  { waiting server failures with
    executions := Dict.empty.set playback.idempotencyKey (playback.parameterSha256, playedResult) }

/-- The execution that is answered: the server plays, and the execution is remembered. -/
theorem execute_answered (server : List MediaCommand) :
    Exec.run ((JellyfinMediaProvider.provider connection jellyfin).execute
      (world (.response 204 none)) playback) (waiting server 0) =
        (.ok playedResult, played (playback :: server) 0) := by
  have owned : JellyfinMediaProvider.requireCommand connection playback = .ok () := rfl
  have read : Exec.run (JellyfinMediaProvider.connectionRevision connection jellyfin
      (world (.response 204 none)).info playback.providerConnectionId) (waiting server 0) =
        (.ok playback.providerConnectionRevision, waiting server 0) :=
    revision_read (.response 204 none) server 0
  change Exec.run (JellyfinMediaProvider.execute connection jellyfin
    (world (.response 204 none)) playback) _ = _
  rw [JellyfinMediaProvider.execute, owned, Exec.run_bind, Exec.run_lift_ok]
  dsimp only
  rw [Exec.run_bind, read]
  dsimp only
  rw [if_neg (not_not.mpr rfl)]
  rfl

theorem ready_again (answer : JellyfinMediaProvider.Answer) (server : List MediaCommand) :
    Exec.run (requireReady (JellyfinMediaProvider.provider connection jellyfin) configuration
      (world answer) principal playback) (played server 0) = (.ok (), played server 0) :=
  ready_of_read rfl rfl

/-- The execution of the remembered key: the server is not asked to play again. -/
theorem execute_again (server : List MediaCommand) :
    Exec.run ((JellyfinMediaProvider.provider connection jellyfin).execute
      (world (.response 204 none)) playback) (played server 0) =
        (.ok { playedResult with idempotentReplay := true }, played server 0) := by
  have known : (played server 0).executions.get? playback.idempotencyKey =
      some (playback.parameterSha256, playedResult) := Dict.get?_set_self ..
  have owned : JellyfinMediaProvider.requireCommand connection playback = .ok () := rfl
  have read : Exec.run (JellyfinMediaProvider.connectionRevision connection jellyfin
      (world (.response 204 none)).info playback.providerConnectionId) (played server 0) =
        (.ok playback.providerConnectionRevision, played server 0) := rfl
  change Exec.run (JellyfinMediaProvider.execute connection jellyfin
    (world (.response 204 none)) playback) _ = _
  rw [JellyfinMediaProvider.execute, owned, Exec.run_bind, Exec.run_lift_ok]
  dsimp only
  rw [Exec.run_bind, read]
  dsimp only
  rw [if_neg (not_not.mpr rfl), Exec.run_bind, Exec.run_get]
  dsimp only
  rw [known]
  dsimp only
  rw [reject_of_not (not_not.mpr rfl)]
  rfl

def mock : MockMediaProvider.MockMediaProviderConfiguration where
  failingCommands := []
  staleWrites := false
  failVerification := false
  externalReferencePrefix := "mock-"
  stateRevisionPrefix := "revision-"

def mockState : MockMediaProvider.State where
  connectionId := ⟨1⟩
  episodes := [⟨3⟩]
  profiles := Dict.empty.set ⟨2⟩ ⟨∅, ∅, .empty, []⟩
  available := true
  connectionRevision := playback.providerConnectionRevision
  stateVersion := 1
  executions := .empty
  applied := []

theorem mock_ready {p : MockMediaProvider.State} (connected : p.connectionId = ⟨1⟩)
    (available : p.available = true)
    (revision : p.connectionRevision = playback.providerConnectionRevision) :
    Exec.run (requireReady (MockMediaProvider.provider mock) configuration () principal playback) p =
      (.ok (), p) := by
  obtain ⟨_, _, _, _, _, _, _, _⟩ := p
  cases connected
  cases available
  cases revision
  exact ready_of_read rfl rfl

/-- The result of the playback with the mock provider. -/
def mockResult : MediaActionResult where
  commandId := playback.commandId
  externalReference := mock.externalReferencePrefix ++ String.ofList (decimal 2)
  providerStateRevision := mock.stateRevisionPrefix ++ String.ofList (decimal 2)
  idempotentReplay := false

/-- The mock provider after the playback. -/
def mockPlayed : MockMediaProvider.State :=
  { mockState with
    profiles := mockState.profiles.set ⟨2⟩ ⟨∅, ∅, .empty, [(⟨5⟩, ⟨3⟩)]⟩
    stateVersion := 2
    executions := Dict.empty.set playback.idempotencyKey (playback.parameterSha256, mockResult)
    applied := [playback] }

theorem mock_executes :
    Exec.run ((MockMediaProvider.provider mock).execute () playback) mockState =
      (.ok mockResult, mockPlayed) := rfl

/-- The approval of the playback. -/
def approval : ApprovalRequest := approvedAt configuration playback ⟨4⟩ noon

/-- A call that has executed the playback. -/
def executed {σ : Type} (p : σ) (recorded : List ApprovalRequest) (result : MediaActionResult) :
    State σ :=
  threadAt p (holding playback approval) recorded (some (.executed approval playback result))

/-- A call stops where the save of the executed approval fails. -/
theorem stopped_at_save {σ ω δ : Type} (provider : MediaProvider σ ω δ)
    {C : State σ → Action ω δ → Prop} (p : σ) (recorded : List ApprovalRequest)
    (result : MediaActionResult) (meets : C (executed p recorded result) (.saveExecuted 0 noon .before)) :
    Run (step provider configuration) C (executed p recorded result)
      (threadAt p (holding playback approval) recorded none) := by
  have taken : step provider configuration (executed p recorded result)
      (.saveExecuted 0 noon .before) = some (threadAt p (holding playback approval) recorded none) := by
    simp [step, executed, threadAt, store, State.put]
  exact Run.start.next meets taken

end Playback

section Runs

attribute [local instance] wholeFloats Sha256.standard

/-- A playback request whose answer is lost, executed a second time. -/
theorem played_twice :
    ∃ s, Run (step (JellyfinMediaProvider.provider connection jellyfin) configuration)
        (fun _ _ => True) (start (waiting [] 0)) s ∧
      effectsFor "play-3" s.provider.server = 2 := by
  obtain ⟨recorded, approved⟩ := approved_of_ready (C := fun _ _ => True) ⟨4⟩ rfl rfl
    (ready .requestError [] 0) (fun _ _ _ => trivial) noon
  have first := executed_of_ready (C := fun _ _ => True) ⟨4⟩ noon recorded
    (ready .requestError [] 0) (execute_lost [])
    (fun _ _ _ => trivial) trivial
  have second := executed_of_ready (C := fun _ _ => True) ⟨4⟩ noon recorded
    (ready .requestError [playback] 1) (execute_lost [playback])
    (fun _ _ _ => trivial) trivial
  exact ⟨_, (approved.trans first).trans second, rfl⟩

/-- A playback request that is approved, executed and answered, with either provider. With the
Jellyfin provider the save after it fails, and the command is executed a second time. -/
theorem approved_and_at_most_once_sample :
    (∃ s, Run (step (MockMediaProvider.provider mock) configuration) (fun _ _ => True)
        (start mockState) s ∧ s.provider.applied = [playback] ∧
      ApprovedFirst (MockMediaProvider.provider mock) configuration s ∧
      ∀ key, effectsFor key s.provider.applied ≤ 1) ∧
    ∃ s, Run (step (JellyfinMediaProvider.provider connection jellyfin) configuration)
        (JellyfinMediaProvider.Unrepeated jellyfin) (start (waiting [] 0)) s ∧
      s.calls 0 = some (.executed approval playback { playedResult with idempotentReplay := true }) ∧
      s.provider.server = [playback] ∧
      ApprovedFirst (JellyfinMediaProvider.provider connection jellyfin) configuration s ∧
      ∀ key, effectsFor key s.provider.server ≤ 1 := by
  obtain ⟨withMock, withJellyfin⟩ := approved_and_at_most_once configuration
  constructor
  · obtain ⟨recorded, approved⟩ := approved_of_ready (C := fun _ _ => True) ⟨4⟩ rfl rfl
      (mock_ready (p := mockState) rfl rfl rfl) (fun _ _ _ => trivial) noon
    have executed := executed_of_ready (C := fun _ _ => True) ⟨4⟩ noon recorded
      (mock_ready (p := mockState) rfl rfl rfl) mock_executes (fun _ _ _ => trivial) trivial
    have run := approved.trans executed
    exact ⟨_, run, rfl, withMock mock mockState _ rfl run⟩
  · have meets : ∀ s action, (∀ thread world fault, action ≠ .execute thread world fault) →
        JellyfinMediaProvider.Unrepeated jellyfin s action := by
      intro s action other
      cases action with
      | execute thread world fault => exact absurd rfl (other thread world fault)
      | _ => trivial
    obtain ⟨recorded, approved⟩ := approved_of_ready ⟨4⟩ rfl rfl
      (ready (.response 204 none) [] 0) meets noon
    have executed := executed_of_ready ⟨4⟩ noon recorded
      (ready (.response 204 none) [] 0) (execute_answered []) meets (fun _ => Nat.le_refl 1)
    have stopped := stopped_at_save (JellyfinMediaProvider.provider connection jellyfin)
      (C := JellyfinMediaProvider.Unrepeated jellyfin) (played [playback] 0) recorded playedResult
      trivial
    -- the key is remembered, so the second execution meets the condition in every world
    have again := executed_of_ready ⟨4⟩ noon recorded (ready_again (.response 204 none) [playback])
      (execute_again [playback]) meets
      (JellyfinMediaProvider.unrepeated_of_returned (C := fun _ _ => True) configuration
        (execute_answered []) .start put_calls rfl)
    have run := ((approved.trans executed).trans stopped).trans again
    obtain ⟨first, once⟩ := withJellyfin connection jellyfin (waiting [] 0) _ rfl
    exact ⟨_, run, put_calls, rfl, first (run.mono fun _ _ _ => trivial), once run⟩

end Runs

end MediaActionSamples

end Cinegraph.MediaActions
