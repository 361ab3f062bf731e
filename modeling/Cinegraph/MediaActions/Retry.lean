import Cinegraph.MediaActions.AtMostOnce

/-!
A call of `execute_approved` that stopped after the provider applied its command, and the retry
of it. The service takes up no approval that is executed already, and the two providers recognise
a replayed result differently.
-/

namespace Cinegraph.MediaActions

open Library Identity MediaActionErrorMessages

namespace MediaActionService

/-- What the world answers the provider calls of one retry, and the clock at its saves. -/
structure Answering (ω : Type) where
  ready : ω
  execution : ω
  verification : ω
  executedAt : DateTime
  verifiedAt : DateTime

/-- What a call works on. -/
structure Held (σ : Type) where
  approvals : InMemoryApprovalRepository
  provider : σ

section Whole

variable {σ ω δ α : Type} [Floats] [Sha256] (provider : MediaProvider σ ω δ)
  (configuration : MediaActionConfiguration)

def ofProvider (call : Exec σ Raised α) : Exec (Held σ) Raised α :=
  Exec.within Held.provider (fun p held => { held with provider := p }) call

def saveApproval (approval : ApprovalRequest) (expectedStatus : ApprovalStatus) :
    Exec (Held σ) Raised Unit := do
  let held ← get
  let approvals ← Exec.lift (held.approvals.save approval expectedStatus)
  set { held with approvals := approvals }

/-- `execute_approved`, where no other call comes in between. -/
def executeApproved (world : Answering ω) (principal : SessionPrincipal) (command : MediaCommand)
    (approvalId : UUID) : Exec (Held σ) Raised (ApprovalRequest × MediaActionResult) := do
  ofProvider (requireReady provider configuration world.ready principal command)
  let held ← get
  let approval ← Exec.lift (requireApproved held.approvals command approvalId)
  let result ← ofProvider (provider.execute world.execution command)
  let executed ← Exec.lift (approval.markExecuted world.executedAt)
  saveApproval executed .approved
  let confirmed ← ofProvider (provider.verify world.verification command result)
  Exec.raiseIf (confirmed = false) ⟨.runtimeError, PROVIDER_VERIFICATION_FAILED⟩
  let verified ← Exec.lift (executed.markVerified world.verifiedAt)
  saveApproval verified .executed
  return (verified, result)

end Whole

section Parts

variable {σ ω δ α : Type} [Floats] [Sha256] {provider : MediaProvider σ ω δ}
  {configuration : MediaActionConfiguration} {world : Answering ω} {principal : SessionPrincipal}
  {command : MediaCommand} {approvalId : UUID} {held after : Held σ} {verified : ApprovalRequest}
  {result : MediaActionResult}

omit [Floats] [Sha256] in
theorem run_ofProvider_eq_ok {call : Exec σ Raised α} {a : α} :
    Exec.run (ofProvider call) held = (.ok a, after) ↔
      ∃ p, Exec.run call held.provider = (.ok a, p) ∧ after = { held with provider := p } := by
  rw [ofProvider, Exec.run_within]
  rcases Exec.run call held.provider with ⟨outcome, p⟩
  simp only [Prod.mk.injEq]
  constructor
  · rintro ⟨same, rfl⟩
    exact ⟨p, ⟨same, rfl⟩, rfl⟩
  · rintro ⟨q, ⟨same, rfl⟩, rfl⟩
    exact ⟨same, rfl⟩

omit [Floats] [Sha256] in
theorem run_saveApproval_eq_ok {approval : ApprovalRequest} {expectedStatus : ApprovalStatus}
    {u : Unit} :
    Exec.run (saveApproval approval expectedStatus) held = (.ok u, after) ↔
      ∃ approvals, held.approvals.save approval expectedStatus = .ok approvals ∧
        after = { held with approvals := approvals } := by
  rw [saveApproval, Exec.run_bind, Exec.run_get]
  dsimp only
  cases held.approvals.save approval expectedStatus with
  | error e => exact iff_of_false (fun h => by cases h) (fun ⟨_, h, _⟩ => by cases h)
  | ok approvals =>
      constructor
      · intro h
        cases h
        exact ⟨approvals, rfl, rfl⟩
      · rintro ⟨_, same, rfl⟩
        cases same
        rfl

/-- What a call that returns went through. -/
theorem executeApproved_eq_ok :
    Exec.run (executeApproved provider configuration world principal command approvalId) held =
        (.ok (verified, result), after) ↔
      ∃ ready executing approval executed approvals,
        Exec.run (requireReady provider configuration world.ready principal command) held.provider =
          (.ok (), ready) ∧
        requireApproved held.approvals command approvalId = .ok approval ∧
        Exec.run (provider.execute world.execution command) ready = (.ok result, executing) ∧
        approval.markExecuted world.executedAt = .ok executed ∧
        held.approvals.save executed .approved = .ok approvals ∧
        Exec.run (provider.verify world.verification command result) executing =
          (.ok true, after.provider) ∧
        executed.markVerified world.verifiedAt = .ok verified ∧
        approvals.save verified .executed = .ok after.approvals := by
  simp only [executeApproved, Exec.run_bind_eq_ok, Exec.run_lift_eq_ok, run_ofProvider_eq_ok,
    run_saveApproval_eq_ok, Exec.run_raiseIf_eq_ok, Exec.run_get]
  constructor
  · rintro ⟨_, _, ⟨ready, isReady, rfl⟩, _, _, got, approval, _, ⟨read, rfl⟩, _, _,
      ⟨executing, executes, rfl⟩, executed, _, ⟨marked, rfl⟩, _, _, ⟨approvals, saved, rfl⟩,
      confirmed, _, ⟨verifying, verifies, rfl⟩, _, _, ⟨confirms, rfl⟩, _, _, ⟨completed, rfl⟩, _, _,
      ⟨_, stored, rfl⟩, returned⟩
    cases got
    cases returned
    rw [Bool.not_eq_false] at confirms
    subst confirms
    exact ⟨ready, executing, approval, executed, approvals, isReady, read, executes, marked, saved,
      verifies, completed, stored⟩
  · rintro ⟨ready, executing, approval, executed, approvals, isReady, read, executes, marked, saved,
      verifies, completed, stored⟩
    exact ⟨_, _, ⟨ready, isReady, rfl⟩, _, _, rfl, approval, _, ⟨read, rfl⟩, _, _,
      ⟨executing, executes, rfl⟩, executed, _, ⟨marked, rfl⟩, (), _, ⟨approvals, saved, rfl⟩, true, _,
      ⟨_, verifies, rfl⟩, (), _, ⟨by simp, rfl⟩, _, _, ⟨completed, rfl⟩, (), _,
      ⟨_, stored, rfl⟩, rfl⟩

end Parts

/-! ### What every run keeps for a retry -/

section Kept

variable {σ ω δ : Type} [Floats] [Sha256] {provider : MediaProvider σ ω δ}
  {configuration : MediaActionConfiguration} {executions : σ → Executions} {s t : State σ}

/-- The store holds an approval of the same identity and command. -/
def Holds (approvals : InMemoryApprovalRepository) (approval : ApprovalRequest) : Prop :=
  ∃ current, approvals.items.get? approval.approvalId = some current ∧
    current.commandSha256 = approval.commandSha256

/-- What the call of a thread knows of the store and of the executions. -/
def Call.Traced (executions : Executions) (approvals : InMemoryApprovalRepository) : Call → Prop
  | .proposing _ _ _ => True
  | .deciding approval _ | .verifying approval _ _ | .verified approval => Holds approvals approval
  | .executing approval command =>
      Holds approvals approval ∧ approval.commandSha256 = command.parameterSha256
  | .executed approval command result =>
      Holds approvals approval ∧ approval.commandSha256 = command.parameterSha256 ∧
        executions.get? command.idempotencyKey =
          some (command.parameterSha256, { result with idempotentReplay := false })

/-- Stored approvals keep their identity and remembered results are first results. -/
structure Traced (executions : σ → Executions) (s : State σ) : Prop where
  keyed : ∀ approvalId approval, s.approvals.items.get? approvalId = some approval →
    approval.approvalId = approvalId
  first : ∀ key commandSha256 result,
    (executions s.provider).get? key = some (commandSha256, result) → result.idempotentReplay = false
  calls : ∀ thread call, s.calls thread = some call →
    Call.Traced (executions s.provider) s.approvals call

/-- A stored approval stays one for its command, and an execution stays remembered. -/
structure Later (executions : σ → Executions) (s t : State σ) : Prop where
  approvals : ∀ approvalId approval, s.approvals.items.get? approvalId = some approval →
    ∃ current, t.approvals.items.get? approvalId = some current ∧
      current.commandSha256 = approval.commandSha256
  executions : ∀ key execution, (executions s.provider).get? key = some execution →
    (executions t.provider).get? key = some execution

omit [Floats] [Sha256] in
theorem Later.refl (executions : σ → Executions) (s : State σ) : Later executions s s :=
  ⟨fun _ approval found => ⟨approval, found, rfl⟩, fun _ _ found => found⟩

omit [Floats] [Sha256] in
theorem Later.trans {u : State σ} (before : Later executions s t) (after : Later executions t u) :
    Later executions s u := by
  constructor
  · intro approvalId approval found
    obtain ⟨current, here, same⟩ := before.approvals approvalId approval found
    obtain ⟨last, there, again⟩ := after.approvals approvalId current here
    exact ⟨last, there, again.trans same⟩
  · exact fun key execution found => after.executions key execution (before.executions key execution found)

omit [Floats] [Sha256] in
theorem Holds.later {approval : ApprovalRequest} (later : Later executions s t)
    (holds : Holds s.approvals approval) : Holds t.approvals approval := by
  obtain ⟨current, found, same⟩ := holds
  obtain ⟨last, here, again⟩ := later.approvals _ current found
  exact ⟨last, here, again.trans same⟩

theorem Call.Traced.later {call : Call} (later : Later executions s t)
    (traced : Call.Traced (executions s.provider) s.approvals call) :
    Call.Traced (executions t.provider) t.approvals call := by
  cases call with
  | proposing => trivial
  | deciding | verifying | verified => exact Holds.later later traced
  | executing => exact ⟨traced.1.later later, traced.2⟩
  | executed approval command result =>
      obtain ⟨holds, digest, remembered⟩ := traced
      exact ⟨holds.later later, digest, later.executions _ _ remembered⟩

theorem Traced.put (traced : Traced executions s) (thread : Nat) {call : Option Call}
    (known : ∀ next ∈ call, Call.Traced (executions s.provider) s.approvals next) :
    Traced executions (State.put s thread call) where
  keyed := traced.keyed
  first := traced.first
  calls other next found := by
    rcases eq_or_ne other thread with rfl | different
    · simp only [State.put, Function.update_self] at found
      exact known next found
    · simp only [State.put, Function.update_of_ne different] at found
      exact traced.calls other next found

/-- What a step keeps, and how the state after it follows the state before it. -/
def Follows (executions : σ → Executions) (s t : State σ) : Prop :=
  Traced executions t ∧ Later executions s t

theorem follows_put (traced : Traced executions t) (later : Later executions s t) (thread : Nat)
    {call : Option Call}
    (known : ∀ next ∈ call, Call.Traced (executions t.provider) t.approvals next) :
    Follows executions s (State.put t thread call) :=
  ⟨traced.put thread known, later.approvals, later.executions⟩

theorem follows_end (traced : Traced executions t) (later : Later executions s t) (thread : Nat) :
    Follows executions s (State.put t thread none) :=
  follows_put traced later thread fun _ found => by cases found

/-- An approval is written under its own identity, over one for the same command or over none. -/
theorem follows_store (traced : Traced executions s) {thread : Nat} {fault : Fault}
    {write : Except Raised (ApprovalRequest × InMemoryApprovalRepository)}
    {next : ApprovalRequest → Option Call}
    (written : ∀ approval approvals, write = .ok (approval, approvals) →
      approvals.items = s.approvals.items.set approval.approvalId approval ∧
        (∀ current, s.approvals.items.get? approval.approvalId = some current →
          approval.commandSha256 = current.commandSha256) ∧
        ∀ call ∈ next approval, Holds approvals approval →
          Call.Traced (executions s.provider) approvals call) :
    Follows executions s (store s thread fault write next) := by
  have ended : Follows executions s (State.put s thread none) :=
    follows_end traced (.refl executions s) thread
  cases write with
  | error e => cases fault <;> exact ended
  | ok pair =>
      obtain ⟨approval, approvals⟩ := pair
      obtain ⟨items, same, known⟩ := written approval approvals rfl
      let u : State σ := { s with approvals := approvals, recorded := approval :: s.recorded }
      have later : Later executions s u := by
        constructor
        · intro approvalId stored found
          change ∃ current, approvals.items.get? approvalId = some current ∧ _
          rw [items, Dict.get?_set]
          split
          · rename_i here
            subst here
            exact ⟨approval, rfl, same stored found⟩
          · exact ⟨stored, found, rfl⟩
        · exact fun _ _ found => found
      have after : Traced executions u := by
        constructor
        · intro approvalId stored found
          change approvals.items.get? approvalId = some stored at found
          rw [items, Dict.get?_set] at found
          split at found
          · rename_i here
            cases found
            exact here.symm
          · exact traced.keyed approvalId stored found
        · exact traced.first
        · exact fun other call found => (traced.calls other call found).later later
      have holds : Holds approvals approval := by
        refine ⟨approval, ?_, rfl⟩
        rw [items, Dict.get?_set_self]
      cases fault with
      | none => exact follows_put after later thread fun call found => known call found holds
      | before => exact ended
      | after => exact follows_end after later thread

/-- A provider call that keeps what is remembered and adds only first results. -/
theorem follows_callProvider {α : Type} (traced : Traced executions s) {thread : Nat} {fault : Fault}
    {call : Exec σ Raised α} {next : α → Option Call}
    (kept : ∀ key execution, (executions s.provider).get? key = some execution →
      (executions (Exec.run call s.provider).2).get? key = some execution)
    (first : ∀ key commandSha256 result,
      (executions (Exec.run call s.provider).2).get? key = some (commandSha256, result) →
        result.idempotentReplay = false)
    (known : ∀ a p, Exec.run call s.provider = (.ok a, p) → ∀ c ∈ next a,
      Call.Traced (executions p) s.approvals c) :
    Follows executions s (callProvider s thread fault call next) := by
  have ended : Follows executions s (State.put s thread none) :=
    follows_end traced (.refl executions s) thread
  let u : State σ := { s with provider := (Exec.run call s.provider).2 }
  have later : Later executions s u := ⟨fun _ approval found => ⟨approval, found, rfl⟩, kept⟩
  have after : Traced executions u :=
    ⟨traced.keyed, first, fun other c found => (traced.calls other c found).later later⟩
  have stopped : Follows executions s (State.put u thread none) := follows_end after later thread
  unfold callProvider
  rcases ran : Exec.run call s.provider with ⟨e | a, p⟩
  all_goals
    simp only [u, ran] at after stopped later
  · cases fault with
    | before => exact ended
    | none => exact stopped
    | after => exact stopped
  · cases fault with
    | before => exact ended
    | none => exact follows_put after later thread (known a p ran)
    | after => exact stopped

/-- A call of the provider that leaves the executions as they are. -/
theorem follows_same {α : Type} (traced : Traced executions s) {thread : Nat} {fault : Fault}
    {call : Exec σ Raised α} {next : α → Option Call}
    (same : executions (Exec.run call s.provider).2 = executions s.provider)
    (known : ∀ a p, Exec.run call s.provider = (.ok a, p) → ∀ c ∈ next a,
      Call.Traced (executions s.provider) s.approvals c) :
    Follows executions s (callProvider s thread fault call next) := by
  apply follows_callProvider traced
  · rw [same]
    exact fun _ _ found => found
  · rw [same]
    exact traced.first
  · intro a p ran c member
    rw [ran] at same
    rw [same]
    exact known a p ran c member

end Kept

section Steps

variable {σ ω δ : Type} [Floats] [Sha256] {provider : MediaProvider σ ω δ}
  {configuration : MediaActionConfiguration} {executions : σ → Executions} {s t : State σ}

omit [Floats] [Sha256] in
/-- An approval that is saved is one the store holds, under its own identity. -/
theorem written_of_save {approval next : ApprovalRequest} {repository saved : InMemoryApprovalRepository}
    {expected : ApprovalStatus} (holds : Holds repository approval)
    (identity : next.approvalId = approval.approvalId)
    (digest : next.commandSha256 = approval.commandSha256)
    (stored : repository.save next expected = .ok saved) :
    saved.items = repository.items.set next.approvalId next ∧
      ∀ current, repository.items.get? next.approvalId = some current →
        next.commandSha256 = current.commandSha256 := by
  refine ⟨(InMemoryApprovalRepository.save_ok stored).2, fun current found => ?_⟩
  obtain ⟨known, here, same⟩ := holds
  rw [← identity, found] at here
  cases here
  exact digest.trans same.symm

/-- A call that begins reads the store and the revision of the provider. -/
theorem follows_beginCall {α : Type} {thread : Nat} {world : ω} {principal : SessionPrincipal}
    {command : MediaCommand} {read : Except Raised α} {next : α → Option Call}
    (traced : Traced executions s) (remembering : Remembering provider executions)
    (taken : beginCall s thread (requireReady provider configuration world principal command) read
      next = some t)
    (known : ∀ a, read = .ok a → ∀ c ∈ next a, Call.Traced (executions s.provider) s.approvals c) :
    Follows executions s t := by
  unfold beginCall at taken
  split at taken
  · cases taken
  · cases taken
    apply follows_same traced
    · exact ready_keeps (P := fun q => executions q = executions s.provider) rfl
        (remembering.revision world command.providerConnectionId s.provider)
    · intro a p ran
      obtain ⟨_, _, _, answered⟩ := Exec.run_bind_eq_ok.mp ran
      exact known a (Exec.run_lift_eq_ok.mp answered).1

theorem holds_of_get {approvalId : UUID} {approval : ApprovalRequest} (traced : Traced executions s)
    (found : s.approvals.get approvalId = some approval) : Holds s.approvals approval := by
  refine ⟨approval, ?_, rfl⟩
  rw [traced.keyed approvalId approval found]
  exact found

theorem requireApproved_eq_ok {approvals : InMemoryApprovalRepository} {command : MediaCommand}
    {approvalId : UUID} {approval : ApprovalRequest} :
    requireApproved approvals command approvalId = .ok approval ↔
      approvals.get approvalId = some approval ∧
        approval.commandSha256 = command.parameterSha256 ∧ approval.status = .approved := by
  unfold requireApproved
  cases approvals.get approvalId with
  | none => exact iff_of_false (fun h => by cases h) (fun h => by cases h.1)
  | some stored =>
      simp only [reject_bind_eq_ok, not_or, not_not]
      constructor
      · rintro ⟨⟨digest, status⟩, same⟩
        cases same
        exact ⟨rfl, digest, status⟩
      · rintro ⟨same, digest, status⟩
        cases same
        exact ⟨⟨digest, status⟩, rfl⟩

theorem requireExactApproval_ok {approvals : InMemoryApprovalRepository} {command : MediaCommand}
    {decision : ApprovalDecision} {approval : ApprovalRequest}
    (read : requireExactApproval approvals command decision = .ok approval) :
    approvals.get decision.approvalId = some approval := by
  unfold requireExactApproval at read
  split at read
  · cases read
  · rename_i stored found
    rw [reject_bind_eq_ok] at read
    cases read.2
    exact found

theorem follows_of_step {action : Action ω δ} (remembering : Remembering provider executions)
    (traced : Traced executions s) (taken : step provider configuration s action = some t) :
    Follows executions s t := by
  cases action with
  | propose thread principal command world =>
      apply follows_beginCall traced remembering taken
      intro existing _ call member
      cases existing with
      | some approval => cases member
      | none =>
          obtain ⟨userId, _, rfl⟩ := Option.map_eq_some_iff.mp member
          trivial
  | decide thread principal command decision world =>
      apply follows_beginCall traced remembering taken
      intro approval read call member
      cases member
      exact holds_of_get traced (requireExactApproval_ok read)
  | executeApproved thread principal command approvalId world =>
      apply follows_beginCall traced remembering taken
      intro approval read call member
      cases member
      obtain ⟨found, digest, _⟩ := requireApproved_eq_ok.mp read
      exact ⟨holds_of_get traced found, digest⟩
  | add thread approvalId now fault =>
      simp only [step] at taken
      split at taken
      · cases taken
        apply follows_store traced
        intro approval approvals written
        simp only [bind_eq_ok] at written
        obtain ⟨added, ok, pair⟩ := written
        cases pair
        obtain ⟨absent, items⟩ := InMemoryApprovalRepository.add_ok ok
        refine ⟨items, fun current found => ?_, fun _ member => by cases member⟩
        cases absent.symm.trans found
      · cases taken
  | saveDecision thread now fault =>
      simp only [step] at taken
      split at taken
      · rename_i approval approved waiting
        cases taken
        have holds : Holds s.approvals approval := traced.calls thread _ waiting
        apply follows_store traced
        intro updated approvals written
        simp only [bind_eq_ok] at written
        obtain ⟨_, _, decided, ok, saved, stored, pair⟩ := written
        cases pair
        obtain ⟨_, identity, digest, _⟩ := ApprovalRequest.decide_ok ok
        obtain ⟨items, same⟩ := written_of_save holds identity digest stored
        exact ⟨items, same, fun _ member => by cases member⟩
      · cases taken
  | execute thread world fault =>
      simp only [step] at taken
      split at taken
      · rename_i approval command waiting
        cases taken
        obtain ⟨holds, digest⟩ := traced.calls thread _ waiting
        apply follows_callProvider traced
        · exact fun key execution found => remembering.kept world command found
        · intro key sha result found
          rcases remembering.cases world command s.provider with same | ⟨_, fresh, flag, set⟩
          · rw [same] at found
            exact traced.first key sha result found
          · rw [set, Dict.get?_set] at found
            split at found
            · cases found
              exact flag
            · exact traced.first key sha result found
        · intro result p returned call member
          cases member
          refine ⟨holds, digest, ?_⟩
          rcases known : (executions s.provider).get? command.idempotencyKey with _ | ⟨sha, first⟩
          · obtain ⟨flag, set⟩ :=
              (remembering.remembers world command s.provider known).of_ok returned
            rw [set, Dict.get?_set_self, ← flag]
          · obtain ⟨kept, _, same, replay⟩ :=
              (remembering.replays world command s.provider sha first known).of_ok returned
            rw [kept, known, same, replay, ← traced.first _ _ _ known]
      · cases taken
  | saveExecuted thread now fault =>
      simp only [step] at taken
      split at taken
      · rename_i approval command result waiting
        cases taken
        obtain ⟨holds, _, _⟩ := traced.calls thread _ waiting
        apply follows_store traced
        intro executed approvals written
        simp only [bind_eq_ok] at written
        obtain ⟨marked, ok, saved, stored, pair⟩ := written
        cases pair
        obtain ⟨identity, digest, _⟩ := ApprovalRequest.markExecuted_ok ok
        obtain ⟨items, same⟩ := written_of_save holds identity digest stored
        refine ⟨items, same, fun call member here => ?_⟩
        cases member
        exact here
      · cases taken
  | verify thread world fault =>
      simp only [step] at taken
      split at taken
      · rename_i approval command result waiting
        cases taken
        have holds : Holds s.approvals approval := traced.calls thread _ waiting
        apply follows_same traced
        · exact remembering.verify world command result s.provider
        · intro verified p _ call member
          cases verified with
          | false => cases member
          | true =>
              cases member
              exact holds
      · cases taken
  | saveVerified thread now fault =>
      simp only [step] at taken
      split at taken
      · rename_i approval waiting
        cases taken
        have holds : Holds s.approvals approval := traced.calls thread _ waiting
        apply follows_store traced
        intro verified approvals written
        simp only [bind_eq_ok] at written
        obtain ⟨marked, ok, saved, stored, pair⟩ := written
        cases pair
        obtain ⟨identity, digest, _⟩ := ApprovalRequest.markVerified_ok ok
        obtain ⟨items, same⟩ := written_of_save holds identity digest stored
        exact ⟨items, same, fun _ member => by cases member⟩
      · cases taken
  | outside change =>
      cases taken
      have same := remembering.outside change s.provider
      refine ⟨⟨traced.keyed, ?_, fun thread call found => ?_⟩, ?_⟩
      · rw [same]
        exact traced.first
      · rw [same]
        exact traced.calls thread call found
      · refine ⟨fun _ approval found => ⟨approval, found, rfl⟩, fun key execution found => ?_⟩
        rw [same]
        exact found

theorem follows_of_run {C : State σ → Action ω δ → Prop} (remembering : Remembering provider executions)
    (traced : Traced executions s) (run : Run (step provider configuration) C s t) :
    Follows executions s t := by
  apply run.invariant (I := Follows executions s) ⟨traced, .refl executions s⟩
  intro middle last action before _ taken
  obtain ⟨after, later⟩ := follows_of_step remembering before.1 taken
  exact ⟨after, before.2.trans later⟩

theorem Traced.at_start {p : σ} (fresh : executions p = .empty) : Traced executions (start p) where
  keyed _ _ found := by cases found
  first key commandSha256 result found := by
    change (executions p).get? key = _ at found
    rw [fresh] at found
    cases found
  calls _ _ found := by cases found

end Steps

/-! ### A retry -/

section Retry

variable {σ ω δ : Type} [Floats] [Sha256] {provider : MediaProvider σ ω δ}
  {configuration : MediaActionConfiguration} {executions : σ → Executions} {s : State σ}
  {world : Answering ω} {principal : SessionPrincipal} {command : MediaCommand} {approvalId : UUID}
  {approval : ApprovalRequest} {first : MediaActionResult}

/-- The provider answers a retry: it is ready, it executes, and it confirms the result that it
first gave. -/
def Answers (provider : MediaProvider σ ω δ) (configuration : MediaActionConfiguration)
    (world : Answering ω) (principal : SessionPrincipal) (command : MediaCommand)
    (first : MediaActionResult) (p : σ) : Prop :=
  ∃ ready replay executing verifying,
    Exec.run (requireReady provider configuration world.ready principal command) p =
      (.ok (), ready) ∧
    Exec.run (provider.execute world.execution command) ready = (.ok replay, executing) ∧
    Exec.run (provider.verify world.verification command { first with idempotentReplay := false })
      executing = (.ok true, verifying)

/-- A retry reaches VERIFIED, takes no effect and returns the reference of the first result. -/
def Finishes (provider : MediaProvider σ ω δ) (configuration : MediaActionConfiguration)
    (world : Answering ω) (principal : SessionPrincipal) (command : MediaCommand) (approvalId : UUID)
    (first : MediaActionResult) (s : State σ) : Prop :=
  ∃ verified result after,
    Exec.run (executeApproved provider configuration world principal command approvalId)
      ⟨s.approvals, s.provider⟩ = (.ok (verified, result), after) ∧
    after.approvals.get approvalId = some verified ∧ verified.status = .verified ∧
    provider.effects after.provider = provider.effects s.provider ∧
    result.externalReference = first.externalReference

omit [Floats] [Sha256] in
theorem ready_state {P : σ → Prop} {p ready : σ} {world : ω} (before : P p)
    (revision : P (Exec.run (provider.connectionRevision world command.providerConnectionId) p).2)
    (isReady : Exec.run (requireReady provider configuration world principal command) p =
      (.ok (), ready)) : P ready := by
  have kept : P (Exec.run (requireReady provider configuration world principal command >>=
      fun _ => Exec.lift (.ok ())) p).2 := ready_keeps before revision
  rw [Exec.run_bind, isReady] at kept
  exact kept

/-- No retry finishes an approval that is not approved any more. -/
theorem not_finishes_of_status (found : s.approvals.get approvalId = some approval)
    (status : approval.status ≠ .approved) :
    ¬Finishes provider configuration world principal command approvalId first s := by
  rintro ⟨verified, result, after, returned, _⟩
  obtain ⟨_, _, read, _, _, _, approved, _⟩ := executeApproved_eq_ok.mp returned
  obtain ⟨same, _, status'⟩ := requireApproved_eq_ok.mp approved
  rw [found] at same
  cases same
  exact status status'

/-- A retry finishes where the approval is still approved and the replayed result is confirmed. -/
theorem finishes_iff {p q : σ} {replay : MediaActionResult} {commandSha256 : String}
    (lawful : Lawful provider)
    (remembering : Remembering provider executions) (keyed : approval.approvalId = approvalId)
    (found : s.approvals.get approvalId = some approval)
    (digest : approval.commandSha256 = command.parameterSha256)
    (remembered : (executions s.provider).get? command.idempotencyKey = some (commandSha256, first))
    (ready : Exec.run (requireReady provider configuration world.ready principal command)
      s.provider = (.ok (), p))
    (executes : Exec.run (provider.execute world.execution command) p = (.ok replay, q)) :
    Finishes provider configuration world principal command approvalId first s ↔
      approval.status = .approved ∧
        ∃ r, Exec.run (provider.verify world.verification command
          { first with idempotentReplay := true }) q = (.ok true, r) := by
  have same : executions p = executions s.provider :=
    ready_state (P := fun q => executions q = executions s.provider) rfl
      (remembering.revision _ _ _) ready
  have unchanged : provider.effects p = provider.effects s.provider :=
    ready_state (P := fun q => provider.effects q = provider.effects s.provider) rfl
      (lawful.revision _ _ _) ready
  rw [← same] at remembered
  obtain ⟨_, effects, _, rfl⟩ :=
    (remembering.replays world.execution command p _ _ remembered).of_ok executes
  constructor
  · rintro ⟨verified, result, after, returned, _⟩
    obtain ⟨_, _, read, _, _, isReady, approved, executed, _, _, verifies, _⟩ :=
      executeApproved_eq_ok.mp returned
    cases ready.symm.trans isReady
    cases executes.symm.trans executed
    obtain ⟨stored, _, status⟩ := requireApproved_eq_ok.mp approved
    rw [found] at stored
    cases stored
    exact ⟨status, _, verifies⟩
  · rintro ⟨status, r, verifies⟩
    let executed : ApprovalRequest :=
      { approval with status := .executed, executedAt := some world.executedAt }
    let verified : ApprovalRequest :=
      { executed with status := .verified, verifiedAt := some world.verifiedAt }
    let saved : InMemoryApprovalRepository :=
      { s.approvals with items := s.approvals.items.set approval.approvalId executed }
    let completed : InMemoryApprovalRepository :=
      { saved with items := saved.items.set approval.approvalId verified }
    have approved : requireApproved s.approvals command approvalId = .ok approval :=
      requireApproved_eq_ok.mpr ⟨found, digest, status⟩
    have marked : approval.markExecuted world.executedAt = .ok executed := by
      rw [ApprovalRequest.markExecuted, if_neg (not_not.mpr status)]
    have stored : s.approvals.save executed .approved = .ok saved := by
      have current : s.approvals.items.get? executed.approvalId = some approval := by
        change s.approvals.items.get? approval.approvalId = _
        rw [keyed]
        exact found
      rw [InMemoryApprovalRepository.save, current, Option.map_some, status,
        reject_of_not (not_not.mpr rfl)]
      rfl
    have confirmed : executed.markVerified world.verifiedAt = .ok verified := by
      rw [ApprovalRequest.markVerified, if_neg (not_not.mpr rfl)]
    have finished : saved.save verified .executed = .ok completed := by
      have current : saved.items.get? verified.approvalId = some executed := Dict.get?_set_self ..
      rw [InMemoryApprovalRepository.save, current, Option.map_some,
        reject_of_not (not_not.mpr rfl)]
      rfl
    refine ⟨verified, { first with idempotentReplay := true }, ⟨completed, r⟩, ?_, ?_, rfl, ?_, rfl⟩
    · exact executeApproved_eq_ok.mpr ⟨p, q, approval, executed, saved, ready, approved, executes,
        marked, stored, verifies, confirmed, finished⟩
    · subst keyed
      exact Dict.get?_set_self ..
    · have last := lawful.verify world.verification command { first with idempotentReplay := true } q
      rw [verifies] at last
      exact last.trans (effects.trans unchanged)

/-- A call that returns is a run of the five steps of its thread. -/
theorem run_of_executeApproved {thread : Nat} {verified : ApprovalRequest} {result : MediaActionResult}
    {after : Held σ} (idle : s.calls thread = none)
    (returned : Exec.run (executeApproved provider configuration world principal command approvalId)
      ⟨s.approvals, s.provider⟩ = (.ok (verified, result), after)) :
    ∃ recorded, Run (step provider configuration) (fun _ _ => True) s
      (State.put { s with approvals := after.approvals, provider := after.provider,
                          recorded := recorded } thread none) := by
  obtain ⟨p, q, approval, executed, approvals, ready, approved, executes, marked, saved, verifies,
    confirmed, finished⟩ := executeApproved_eq_ok.mp returned
  let first := State.put { s with provider := p } thread (some (.executing approval command))
  let second := State.put { s with provider := q } thread (some (.executed approval command result))
  let third := State.put
    { s with approvals := approvals, provider := q, recorded := executed :: s.recorded } thread
    (some (.verifying executed command result))
  let fourth := State.put
    { s with approvals := approvals, provider := after.provider, recorded := executed :: s.recorded }
    thread (some (.verified executed))
  have begins : step provider configuration s
      (.executeApproved thread principal command approvalId world.ready) = some first := by
    simp [step, beginCall, idle, callProvider, Exec.run_bind, ready, approved, first]
  have runs : step provider configuration first (.execute thread world.execution .none) =
      some second := by
    simp [step, first, second, callProvider, executes, put_with]
  have saves : step provider configuration second (.saveExecuted thread world.executedAt .none) =
      some third := by
    simp [step, second, third, marked, saved, store, put_with]
  have checks : step provider configuration third (.verify thread world.verification .none) =
      some fourth := by
    simp [step, third, fourth, callProvider, verifies, put_with]
  have ends : step provider configuration fourth (.saveVerified thread world.verifiedAt .none) =
      some (State.put { s with approvals := after.approvals, provider := after.provider,
                               recorded := verified :: executed :: s.recorded } thread none) := by
    simp [step, fourth, confirmed, finished, store, put_with]
  have begun : Run (step provider configuration) (fun _ _ => True) s first :=
    Run.start.next trivial begins
  have applied := (begun.next trivial runs).next trivial saves
  exact ⟨_, (applied.next trivial checks).next trivial ends⟩

end Retry

end MediaActionService

open MediaActionService

namespace MockMediaProvider

variable [Floats] [Sha256]

theorem remembering (configuration : MockMediaProviderConfiguration) :
    Remembering (provider configuration) State.executions where
  revision _ connectionId p := by
    change (Exec.run (connectionRevision connectionId) p).2.executions = p.executions
    rw [run_connectionRevision]
  verify _ command result p := by
    change (Exec.run (verify configuration command result) p).2.executions = p.executions
    rw [run_verify]
  outside change p := by cases change <;> rfl
  replays _ command p commandSha256 first known := by
    change Exec.Post (execute configuration command) _ _ p
    rw [execute, Exec.post_bind]
    apply post_requireCommand
    · intro state
      dsimp only
      rw [Exec.post_ite]
      refine ⟨fun _ => rfl, fun _ => ?_⟩
      rw [Exec.post_bind, Exec.post_get, known]
      dsimp only
      rw [Exec.post_bind, Exec.post_lift]
      refine ⟨fun _ accepted => ?_, fun _ _ => rfl⟩
      exact ⟨rfl, rfl, not_not.mp (reject_eq_ok.mp accepted), rfl⟩
    · exact fun _ => rfl
  remembers _ command p absent := by
    change Exec.Post (execute configuration command) _ _ p
    rw [execute, Exec.post_bind]
    apply post_requireCommand
    · intro state
      dsimp only
      rw [Exec.post_ite]
      refine ⟨fun _ => rfl, fun _ => ?_⟩
      rw [Exec.post_bind, Exec.post_get, absent]
      cases configuration.staleWrites with
      | true => exact ⟨rfl, rfl⟩
      | false => exact ⟨rfl, rfl⟩
    · exact fun _ => rfl

end MockMediaProvider

namespace JellyfinMediaProvider

variable [Floats] [Sha256] {connection : JellyfinConnectionSettings}
  {configuration : JellyfinProviderConfiguration} {p : State}

omit [Floats] [Sha256] in
/-- The Jellyfin provider recognises only the very result that it remembers. -/
theorem not_verify_replay {environment : Environment} {command : MediaCommand}
    {commandSha256 : String} {first result : MediaActionResult} {q : State}
    (remembered : p.executions.get? command.idempotencyKey = some (commandSha256, first))
    (different : first ≠ result) :
    Exec.run (verify connection configuration environment command result) p ≠ (.ok true, q) := by
  intro confirmed
  have refused : Exec.Post (verify connection configuration environment command result)
      (fun _ _ => False) (fun _ _ => True) p := by
    rw [verify, Exec.post_bind, Exec.post_lift]
    refine ⟨fun _ _ => ?_, fun _ _ => trivial⟩
    rw [Exec.post_bind, Exec.post_get, Exec.post_bind, Exec.post_lift]
    refine ⟨fun _ accepted => ?_, fun _ _ => trivial⟩
    rw [remembered] at accepted
    exact absurd (Option.some.inj (not_not.mp (reject_eq_ok.mp accepted))) different
  exact refused.of_ok confirmed

end JellyfinMediaProvider

section Main

variable {σ ω δ : Type} [Floats] [Sha256] {provider : MediaProvider σ ω δ}
  {configuration : MediaActionConfiguration}

/-- What is left of a call that stopped after the provider executed its command, however it
stopped and whatever other calls did since. -/
theorem left_of_run {C : State σ → Action ω δ → Prop} {executions : σ → Executions} {p : σ}
    {s t : State σ} {thread : Nat} {approval : ApprovalRequest} {command : MediaCommand}
    {result : MediaActionResult} (remembering : Remembering provider executions)
    (fresh : executions p = .empty) (reached : Run (step provider configuration) C (start p) s)
    (executed : s.calls thread = some (.executed approval command result))
    (more : Run (step provider configuration) C s t) :
    ∃ current, t.approvals.get approval.approvalId = some current ∧
      current.approvalId = approval.approvalId ∧
      current.commandSha256 = command.parameterSha256 ∧
      (executions t.provider).get? command.idempotencyKey =
        some (command.parameterSha256, { result with idempotentReplay := false }) := by
  obtain ⟨before, _⟩ := follows_of_run remembering (.at_start fresh) reached
  obtain ⟨after, later⟩ := follows_of_run remembering before more
  obtain ⟨⟨stored, found, same⟩, digest, remembered⟩ := before.calls thread _ executed
  obtain ⟨current, here, again⟩ := later.approvals _ stored found
  refine ⟨current, here, after.keyed _ current here, ?_, later.executions _ _ remembered⟩
  rw [again, same, digest]

open JellyfinMediaProvider in
/-- A retry with the Jellyfin provider gets a replayed result, which the provider refuses. -/
theorem not_finishes_of_jellyfin {connection : JellyfinConnectionSettings}
    {jellyfin : JellyfinProviderConfiguration} {p : JellyfinMediaProvider.State}
    {s t : MediaActions.State JellyfinMediaProvider.State} {world : Answering Environment}
    {principal : SessionPrincipal} {thread : Nat} {approval : ApprovalRequest} {command : MediaCommand}
    {result : MediaActionResult} (fresh : p.executions = .empty)
    (reached : Run (step (JellyfinMediaProvider.provider connection jellyfin) configuration)
      (fun _ _ => True) (MediaActionService.start p) s)
    (executed : s.calls thread = some (.executed approval command result))
    (more : Run (step (JellyfinMediaProvider.provider connection jellyfin) configuration)
      (fun _ _ => True) s t)
    (answers : Answers (JellyfinMediaProvider.provider connection jellyfin) configuration world
      principal command result t.provider) :
    ¬Finishes (JellyfinMediaProvider.provider connection jellyfin) configuration world principal
      command approval.approvalId result t := by
  intro finishes
  obtain ⟨q, replay, r, u, ready, executes, confirms⟩ := answers
  have remembering := JellyfinMediaProvider.remembering connection jellyfin
  obtain ⟨current, found, keyed, digest, remembered⟩ :=
    left_of_run remembering fresh reached executed more
  have finished := finishes_iff (JellyfinMediaProvider.lawful connection jellyfin) remembering
    keyed found digest remembered ready executes
  obtain ⟨_, v, recognised⟩ := finished.mp finishes
  have atReady : q.executions = t.provider.executions :=
    ready_state (P := fun q : JellyfinMediaProvider.State => q.executions = t.provider.executions)
      rfl (remembering.revision _ _ _) ready
  rw [← atReady] at remembered
  have kept := (remembering.replays world.execution command q _ _ remembered).of_ok executes
  rw [← kept.1] at remembered
  refine JellyfinMediaProvider.not_verify_replay remembered (fun same => ?_) recognised
  exact Bool.false_ne_true (congrArg MediaActionResult.idempotentReplay same)

/-- Once a call of `execute_approved` stopped after the provider executed its command, and the
provider answers again, a retry with the mock provider finishes exactly if the approval is still
stored as approved, and a retry with the Jellyfin provider never finishes. -/
theorem retry_finishes_iff (configuration : MediaActionConfiguration) (principal : SessionPrincipal)
    (thread : Nat) (approval : ApprovalRequest) (command : MediaCommand) (result : MediaActionResult) :
    (∀ mock p s t world, p.executions = .empty →
      Run (step (MockMediaProvider.provider mock) configuration) (fun _ _ => True) (start p) s →
      s.calls thread = some (.executed approval command result) →
      Run (step (MockMediaProvider.provider mock) configuration) (fun _ _ => True) s t →
      Answers (MockMediaProvider.provider mock) configuration world principal command result
        t.provider →
      (Finishes (MockMediaProvider.provider mock) configuration world principal command
          approval.approvalId result t ↔
        (t.approvals.get approval.approvalId).map (·.status) = some .approved)) ∧
    ∀ connection jellyfin p s t world, p.executions = .empty →
      Run (step (JellyfinMediaProvider.provider connection jellyfin) configuration)
        (fun _ _ => True) (start p) s →
      s.calls thread = some (.executed approval command result) →
      Run (step (JellyfinMediaProvider.provider connection jellyfin) configuration)
        (fun _ _ => True) s t →
      Answers (JellyfinMediaProvider.provider connection jellyfin) configuration world principal
        command result t.provider →
      ¬Finishes (JellyfinMediaProvider.provider connection jellyfin) configuration world principal
        command approval.approvalId result t := by
  constructor
  · rintro mock p s t world fresh reached executed more ⟨q, replay, r, u, ready, executes, confirms⟩
    obtain ⟨current, found, keyed, digest, remembered⟩ :=
      left_of_run (MockMediaProvider.remembering mock) fresh reached executed more
    have finishes := finishes_iff (MockMediaProvider.lawful mock) (MockMediaProvider.remembering mock)
      keyed found digest remembered ready executes
    rw [found, Option.map_some, Option.some.injEq]
    -- the mock provider recognises a result by its command, whether or not it is a replay
    exact finishes.trans (and_iff_left ⟨u, confirms⟩)
  · intro connection jellyfin p s t world fresh reached executed more answers
    exact not_finishes_of_jellyfin fresh reached executed more answers

end Main

namespace MediaActionSamples

section Stopped

variable [Floats] [Sha256]

/-- The world of a retry: every call is answered, and the server reports the playback. -/
def answering : Answering JellyfinMediaProvider.Environment where
  ready := world (.response 204 none)
  execution := world (.response 204 none)
  verification := world (.response 200 (some (.arr [.obj
    [("Id", .str "tv"), ("NowPlayingItem", .obj [("Id", .str "item")])]])))
  executedAt := noon
  verifiedAt := noon

def mockAnswering : Answering Unit := ⟨(), (), (), noon, noon⟩

theorem mock_executed : ∃ recorded,
    Run (step (MockMediaProvider.provider mock) configuration) (fun _ _ => True) (start mockState)
      (executed mockPlayed recorded mockResult) := by
  have ready := mock_ready (p := mockState) rfl rfl rfl
  obtain ⟨recorded, approved⟩ := approved_of_ready (C := fun _ _ => True) ⟨4⟩ rfl rfl ready
    (fun _ _ _ => trivial) noon
  exact ⟨recorded, approved.trans (executed_of_ready (C := fun _ _ => True) ⟨4⟩ noon recorded ready
    mock_executes (fun _ _ _ => trivial) trivial)⟩

theorem jellyfin_executed : ∃ recorded,
    Run (step (JellyfinMediaProvider.provider connection jellyfin) configuration) (fun _ _ => True)
      (start (waiting [] 0)) (executed (played [playback] 0) recorded playedResult) := by
  have ready := ready (.response 204 none) [] 0
  obtain ⟨recorded, approved⟩ := approved_of_ready (C := fun _ _ => True) ⟨4⟩ rfl rfl ready
    (fun _ _ _ => trivial) noon
  exact ⟨recorded, approved.trans (executed_of_ready (C := fun _ _ => True) ⟨4⟩ noon recorded ready
    (execute_answered []) (fun _ _ _ => trivial) trivial)⟩

/-- A call stops where the verification fails, with the approval stored as executed. -/
theorem stopped_at_verification {σ ω δ : Type} (provider : MediaProvider σ ω δ) (world : ω) (p : σ)
    (recorded : List ApprovalRequest) (result : MediaActionResult) :
    ∃ t, Run (step provider configuration) (fun _ _ => True) (executed p recorded result) t ∧
      t.provider = p ∧ ∃ current, t.approvals.get ⟨9⟩ = some current ∧ current.status = .executed := by
  let stored : ApprovalRequest := { approval with status := .executed, executedAt := some noon }
  let verifying := threadAt p (holding playback stored) (stored :: recorded)
    (some (.verifying stored playback result))
  have marked : approval.markExecuted noon = .ok stored := rfl
  have saved : (holding playback approval).save stored .approved = .ok (holding playback stored) := rfl
  have saves : step provider configuration (executed p recorded result)
      (.saveExecuted 0 noon .none) = some verifying := by
    simp [step, executed, verifying, threadAt, marked, saved, store, put_with]
  have fails : step provider configuration verifying (.verify 0 world .before) =
      some (threadAt p (holding playback stored) (stored :: recorded) none) := by
    simp [step, verifying, threadAt, callProvider, State.put]
  have begun : Run (step provider configuration) (fun _ _ => True) (executed p recorded result)
    verifying := Run.start.next trivial saves
  exact ⟨_, begun.next trivial fails, rfl, stored, Dict.get?_set_self .., rfl⟩

theorem mock_answers :
    Answers (MockMediaProvider.provider mock) configuration mockAnswering principal playback mockResult
      mockPlayed := by
  have replays : Exec.run (MockMediaProvider.execute mock playback) mockPlayed =
      (.ok { mockResult with idempotentReplay := true }, mockPlayed) := by
    have checked : Exec.run (MockMediaProvider.requireCommand playback) mockPlayed =
        (.ok ⟨∅, ∅, .empty, [(⟨5⟩, ⟨3⟩)]⟩, mockPlayed) := rfl
    have allowed : playback.kind ∉ mock.failingCommands := List.not_mem_nil
    have known : mockPlayed.executions.get? playback.idempotencyKey =
        some (playback.parameterSha256, mockResult) := Dict.get?_set_self ..
    rw [MockMediaProvider.execute, Exec.run_bind, checked]
    dsimp only
    rw [if_neg allowed, Exec.run_bind, Exec.run_get]
    dsimp only
    rw [known]
    dsimp only
    rw [reject_of_not (not_not.mpr rfl)]
    rfl
  exact ⟨_, _, _, _, mock_ready (p := mockPlayed) rfl rfl rfl, replays, rfl⟩

theorem jellyfin_answers :
    Answers (JellyfinMediaProvider.provider connection jellyfin) configuration answering principal
      playback playedResult (played [playback] 0) := by
  have known : (played [playback] 0).executions.get? playback.idempotencyKey =
      some (playback.parameterSha256, playedResult) := Dict.get?_set_self ..
  have owned : JellyfinMediaProvider.requireCommand connection playback = .ok () := rfl
  have confirms : Exec.run (JellyfinMediaProvider.verify connection jellyfin answering.verification
      playback playedResult) (played [playback] 0) = (.ok true, { played [playback] 0 with
        verifiedPlaybackRequests := [(⟨5⟩, ⟨3⟩)] }) := by
    rw [JellyfinMediaProvider.verify, owned, Exec.run_bind, Exec.run_lift_ok]
    dsimp only
    rw [Exec.run_bind, Exec.run_get]
    dsimp only
    rw [known, Option.map_some, Exec.run_bind, reject_of_not (not_not.mpr rfl)]
    rfl
  exact ⟨_, _, _, _, ready_again (.response 204 none) [playback], execute_again [playback], confirms⟩

end Stopped

section Runs

attribute [local instance] wholeFloats Sha256.standard

/-- The mock provider after a failed verification, and the Jellyfin provider after a failed save:
either provider answers again, and no retry finishes. -/
theorem retry_stuck :
    (∃ s t, Run (step (MockMediaProvider.provider mock) configuration) (fun _ _ => True)
        (start mockState) s ∧ s.calls 0 = some (.executed approval playback mockResult) ∧
      Run (step (MockMediaProvider.provider mock) configuration) (fun _ _ => True) s t ∧
      Answers (MockMediaProvider.provider mock) configuration mockAnswering principal playback
        mockResult t.provider ∧
      ¬Finishes (MockMediaProvider.provider mock) configuration mockAnswering principal playback
        approval.approvalId mockResult t) ∧
    ∃ s t, Run (step (JellyfinMediaProvider.provider connection jellyfin) configuration)
        (fun _ _ => True) (start (waiting [] 0)) s ∧
      s.calls 0 = some (.executed approval playback playedResult) ∧
      Run (step (JellyfinMediaProvider.provider connection jellyfin) configuration)
        (fun _ _ => True) s t ∧
      Answers (JellyfinMediaProvider.provider connection jellyfin) configuration answering principal
        playback playedResult t.provider ∧
      ¬Finishes (JellyfinMediaProvider.provider connection jellyfin) configuration answering principal
        playback approval.approvalId playedResult t := by
  constructor
  · obtain ⟨recorded, run⟩ := mock_executed
    obtain ⟨t, stopped, left, current, found, status⟩ := stopped_at_verification
      (MockMediaProvider.provider mock) () mockPlayed recorded mockResult
    refine ⟨_, t, run, put_calls, stopped, left ▸ mock_answers, ?_⟩
    exact not_finishes_of_status found (by rw [status]; decide)
  · obtain ⟨recorded, run⟩ := jellyfin_executed
    have stopped := stopped_at_save (JellyfinMediaProvider.provider connection jellyfin)
      (C := fun _ _ => True) (played [playback] 0) recorded playedResult trivial
    refine ⟨_, _, run, put_calls, stopped, jellyfin_answers, ?_⟩
    exact not_finishes_of_jellyfin rfl run put_calls stopped jellyfin_answers

/-- A failed save of the executed approval: the retry finishes with the mock provider only. -/
theorem retry_finishes_sample :
    (∃ t, t.provider = mockPlayed ∧ Finishes (MockMediaProvider.provider mock) configuration
      mockAnswering principal playback approval.approvalId mockResult t) ∧
    ∃ t, t.provider = played [playback] 0 ∧
      ¬Finishes (JellyfinMediaProvider.provider connection jellyfin) configuration answering principal
        playback approval.approvalId playedResult t := by
  constructor
  · obtain ⟨recorded, run⟩ := mock_executed
    have stopped := stopped_at_save (MockMediaProvider.provider mock) (C := fun _ _ => True)
      mockPlayed recorded mockResult trivial
    have finishes := (retry_finishes_iff configuration principal 0 approval playback mockResult).1
      mock mockState _ _ mockAnswering rfl run put_calls stopped mock_answers
    exact ⟨_, rfl, finishes.mpr rfl⟩
  · obtain ⟨recorded, run⟩ := jellyfin_executed
    have stopped := stopped_at_save (JellyfinMediaProvider.provider connection jellyfin)
      (C := fun _ _ => True) (played [playback] 0) recorded playedResult trivial
    exact ⟨_, rfl, (retry_finishes_iff configuration principal 0 approval playback playedResult).2
      connection jellyfin (waiting [] 0) _ _ answering rfl run put_calls stopped jellyfin_answers⟩

end Runs

end MediaActionSamples

end Cinegraph.MediaActions
