import Cinegraph.Library.Run
import Cinegraph.MediaActions.Approvals
import Cinegraph.MediaActions.Jellyfin

/-!
The media-action service as interleaved calls. A call is cut where it leaves the lock of the
repository or of the provider; a save or a provider call may raise before or after it took effect.
-/

namespace Cinegraph.MediaActions

open Library Identity MediaActionErrorMessages

/-- Whether a call raises on its own account, and when. -/
inductive Fault where
  | none
  | before
  | after
  deriving DecidableEq

structure ApprovalDecision where
  approvalId : UUID
  commandSha256 : String
  approved : Bool

/-- A call between two of its steps. -/
inductive Call where
  | proposing (userId : UUID) (profileId : UUID) (command : MediaCommand)
  | deciding (approval : ApprovalRequest) (approved : Bool)
  | executing (approval : ApprovalRequest) (command : MediaCommand)
  | executed (approval : ApprovalRequest) (command : MediaCommand) (result : MediaActionResult)
  | verifying (approval : ApprovalRequest) (command : MediaCommand) (result : MediaActionResult)
  | verified (approval : ApprovalRequest)

structure State (σ : Type) where
  approvals : InMemoryApprovalRepository
  provider : σ
  calls : Nat → Option Call
  /-- Every approval that was ever stored, newest first. -/
  recorded : List ApprovalRequest

inductive Action (ω δ : Type) where
  | propose (thread : Nat) (principal : SessionPrincipal) (command : MediaCommand) (world : ω)
  | add (thread : Nat) (approvalId : UUID) (now : DateTime) (fault : Fault)
  | decide (thread : Nat) (principal : SessionPrincipal) (command : MediaCommand)
      (decision : ApprovalDecision) (world : ω)
  | saveDecision (thread : Nat) (now : DateTime) (fault : Fault)
  | executeApproved (thread : Nat) (principal : SessionPrincipal) (command : MediaCommand)
      (approvalId : UUID) (world : ω)
  | execute (thread : Nat) (world : ω) (fault : Fault)
  | saveExecuted (thread : Nat) (now : DateTime) (fault : Fault)
  | verify (thread : Nat) (world : ω) (fault : Fault)
  | saveVerified (thread : Nat) (now : DateTime) (fault : Fault)
  | outside (change : δ)

namespace MediaActionService

section Calls

variable {σ ω δ : Type} [Floats] [Sha256] (provider : MediaProvider σ ω δ)
  (configuration : MediaActionConfiguration)

/-- `_require_connection_revision` -/
def requireConnectionRevision (world : ω) (command : MediaCommand) : Exec σ Raised Unit := do
  let revision ← provider.connectionRevision world command.providerConnectionId
  Exec.lift (reject (revision ≠ command.providerConnectionRevision) PROVIDER_CONNECTION_CHANGED)

/-- The authorization and the revision check that every call begins with. -/
def requireReady (world : ω) (principal : SessionPrincipal) (command : MediaCommand) :
    Exec σ Raised Unit := do
  Exec.lift (requireAuthorized configuration principal command)
  requireConnectionRevision provider world command

/-- What `propose` finds: the approval of the key, or none. -/
def findExisting (approvals : InMemoryApprovalRepository) (command : MediaCommand) :
    Except Raised (Option ApprovalRequest) := do
  match approvals.findByIdempotencyKey command.idempotencyKey with
  | none => return none
  | some existing =>
      reject (existing.commandSha256 ≠ command.parameterSha256) IDEMPOTENCY_KEY_REUSED
      return some existing

/-- The approval that `propose` adds. -/
def proposed (userId profileId approvalId : UUID) (command : MediaCommand) (now : DateTime) :
    ApprovalRequest where
  approvalId := approvalId
  commandId := command.commandId
  commandSha256 := command.parameterSha256
  idempotencyKey := command.idempotencyKey
  principalUserId := userId
  profileId := profileId
  providerConnectionId := command.providerConnectionId
  providerConnectionRevision := command.providerConnectionRevision
  preview := command.preview
  status := .pending
  createdAt := now
  expiresAt := now.add configuration.approvalTtl
  decidedAt := none
  executedAt := none
  verifiedAt := none
  expires_later := by
    have positive := configuration.ttl_positive
    change now.micros < now.micros + configuration.approvalTtl
    omega

/-- `_require_exact_approval` -/
def requireExactApproval (approvals : InMemoryApprovalRepository) (command : MediaCommand)
    (decision : ApprovalDecision) : Except Raised ApprovalRequest := do
  match approvals.get decision.approvalId with
  | none => throw (valueError APPROVAL_NOT_FOUND)
  | some approval =>
      reject (decision.commandSha256 ≠ command.parameterSha256 ∨
        approval.commandSha256 ≠ command.parameterSha256 ∨
        approval.commandId ≠ command.commandId ∨
        approval.profileId ≠ command.profileId ∨
        approval.providerConnectionId ≠ command.providerConnectionId) APPROVAL_COMMAND_MISMATCH
      return approval

/-- The approval that `execute_approved` reads: approved, and for this command. -/
def requireApproved (approvals : InMemoryApprovalRepository) (command : MediaCommand)
    (approvalId : UUID) : Except Raised ApprovalRequest := do
  match approvals.get approvalId with
  | none => throw (valueError APPROVAL_NOT_FOUND)
  | some approval =>
      reject (approval.commandSha256 ≠ command.parameterSha256 ∨ approval.status ≠ .approved)
        APPROVAL_COMMAND_MISMATCH
      return approval

end Calls

section Steps

variable {σ ω δ : Type} [Floats] [Sha256] (provider : MediaProvider σ ω δ)
  (configuration : MediaActionConfiguration)

/-- The call of a thread goes on, or has ended. -/
def State.put (s : State σ) (thread : Nat) (call : Option Call) : State σ :=
  { s with calls := Function.update s.calls thread call }

section Put

variable {s : State σ} {thread : Nat} {call : Option Call}

omit [Floats] [Sha256] in
@[simp] theorem put_calls : (State.put s thread call).calls thread = call := Function.update_self ..

omit [Floats] [Sha256] in
@[simp] theorem put_approvals : (State.put s thread call).approvals = s.approvals := rfl

omit [Floats] [Sha256] in
@[simp] theorem put_provider : (State.put s thread call).provider = s.provider := rfl

omit [Floats] [Sha256] in
@[simp] theorem put_recorded : (State.put s thread call).recorded = s.recorded := rfl

omit [Floats] [Sha256] in
/-- Only the last step of a thread counts. -/
theorem put_with (approvals : InMemoryApprovalRepository) (p : σ) (recorded : List ApprovalRequest)
    (next : Option Call) :
    State.put
        { approvals := approvals, provider := p, calls := (State.put s thread call).calls,
          recorded := recorded } thread next =
      State.put { approvals := approvals, provider := p, calls := s.calls, recorded := recorded }
        thread next := by
  simp [State.put]

end Put

/-- Add or save an approval; a fault before it leaves the store as it was. -/
def store (s : State σ) (thread : Nat) (fault : Fault)
    (write : Except Raised (ApprovalRequest × InMemoryApprovalRepository)) (next : ApprovalRequest → Option Call) :
    State σ :=
  match fault, write with
  | .before, _ | _, .error _ => State.put s thread none
  | fault, .ok (approval, approvals) =>
      State.put { s with approvals := approvals, recorded := approval :: s.recorded } thread
        (if fault = .none then next approval else none)

/-- A call of the provider; a fault before it leaves the provider as it was. -/
def callProvider {α : Type} (s : State σ) (thread : Nat) (fault : Fault) (call : Exec σ Raised α)
    (next : α → Option Call) : State σ :=
  match fault, Exec.run call s.provider with
  | .before, _ => State.put s thread none
  | .none, (.ok a, provider) => State.put { s with provider := provider } thread (next a)
  | _, (_, provider) => State.put { s with provider := provider } thread none

/-- The first part of a call: the checks against the provider, then a read of the approvals. -/
def beginCall {α : Type} (s : State σ) (thread : Nat) (ready : Exec σ Raised Unit)
    (read : Except Raised α) (next : α → Option Call) : Option (State σ) :=
  match s.calls thread with
  | some _ => none
  | none => some (callProvider s thread .none (ready >>= fun _ => Exec.lift read) next)

def step (s : State σ) : Action ω δ → Option (State σ)
  | .propose thread principal command world =>
      beginCall s thread (requireReady provider configuration world principal command)
        (findExisting s.approvals command)
        fun
          | some _ => none
          | none => principal.userId.map fun userId => .proposing userId principal.profileId command
  | .add thread approvalId now fault =>
      match s.calls thread with
      | some (.proposing userId profileId command) =>
          let approval := proposed configuration userId profileId approvalId command now
          some (store s thread fault (do return (approval, ← s.approvals.add approval)) fun _ => none)
      | _ => none
  | .decide thread principal command decision world =>
      beginCall s thread (requireReady provider configuration world principal command)
        (requireExactApproval s.approvals command decision)
        fun approval => some (.deciding approval decision.approved)
  | .saveDecision thread now fault =>
      match s.calls thread with
      | some (.deciding approval approved) =>
          some (store s thread fault (do
            reject (approval.expiresAt < now) APPROVAL_EXPIRED
            let updated ← approval.decide approved now
            return (updated, ← s.approvals.save updated .pending)) fun _ => none)
      | _ => none
  | .executeApproved thread principal command approvalId world =>
      beginCall s thread (requireReady provider configuration world principal command)
        (requireApproved s.approvals command approvalId)
        fun approval => some (.executing approval command)
  | .execute thread world fault =>
      match s.calls thread with
      | some (.executing approval command) =>
          some (callProvider s thread fault (provider.execute world command) fun result =>
            some (.executed approval command result))
      | _ => none
  | .saveExecuted thread now fault =>
      match s.calls thread with
      | some (.executed approval command result) =>
          some (store s thread fault (do
            let executed ← approval.markExecuted now
            return (executed, ← s.approvals.save executed .approved)) fun executed =>
              some (.verifying executed command result))
      | _ => none
  | .verify thread world fault =>
      match s.calls thread with
      | some (.verifying approval command result) =>
          some (callProvider s thread fault (provider.verify world command result) fun verified =>
            if verified then some (.verified approval) else none)
      | _ => none
  | .saveVerified thread now fault =>
      match s.calls thread with
      | some (.verified approval) =>
          some (store s thread fault (do
            let verified ← approval.markVerified now
            return (verified, ← s.approvals.save verified .executed)) fun _ => none)
      | _ => none
  | .outside change => some { s with provider := provider.outside change s.provider }

end Steps

/-! ### What every run keeps -/

section Runs

variable {σ ω δ : Type} [Floats] [Sha256] {provider : MediaProvider σ ω δ}
  {configuration : MediaActionConfiguration}

/-- Nothing but an execution makes effects visible, and those of its own command. -/
structure Lawful (provider : MediaProvider σ ω δ) : Prop where
  revision : ∀ world connectionId p,
    provider.effects (Exec.run (provider.connectionRevision world connectionId) p).2 =
      provider.effects p
  execute : ∀ world command p, ∃ count,
    provider.effects (Exec.run (provider.execute world command) p).2 =
      List.replicate count command ++ provider.effects p
  verify : ∀ world command result p,
    provider.effects (Exec.run (provider.verify world command result) p).2 = provider.effects p
  outside : ∀ change p, provider.effects (provider.outside change p) = provider.effects p

/-- An approval of this command was recorded as approved. -/
def Approved (recorded : List ApprovalRequest) (commandSha256 : String) : Prop :=
  ∃ approval ∈ recorded, approval.status = .approved ∧ approval.commandSha256 = commandSha256

omit [Floats] [Sha256] in
theorem Approved.later {recorded : List ApprovalRequest} {commandSha256 : String}
    (approved : Approved recorded commandSha256) (next : ApprovalRequest) :
    Approved (next :: recorded) commandSha256 := by
  obtain ⟨approval, member, holds⟩ := approved
  exact ⟨approval, List.mem_cons_of_mem next member, holds⟩

/-- What a call between two of its steps knows of its approval. -/
def Call.Sound (recorded : List ApprovalRequest) : Call → Prop
  | .proposing _ _ _ | .deciding _ _ => True
  | .executing approval command =>
      Approved recorded approval.commandSha256 ∧ approval.commandSha256 = command.parameterSha256
  | .executed approval _ _ | .verifying approval _ _ | .verified approval =>
      Approved recorded approval.commandSha256

theorem Call.Sound.later {recorded : List ApprovalRequest} {call : Call}
    (sound : Call.Sound recorded call) (next : ApprovalRequest) :
    Call.Sound (next :: recorded) call := by
  cases call with
  | proposing | deciding => trivial
  | executing => exact ⟨sound.1.later next, sound.2⟩
  | executed | verifying | verified => exact Approved.later sound next

structure Invariant (provider : MediaProvider σ ω δ) (s : State σ) : Prop where
  stored : ∀ approvalId approval, s.approvals.items.get? approvalId = some approval →
    approval.status = .pending ∨ approval.status = .rejected ∨
      Approved s.recorded approval.commandSha256
  calls : ∀ thread call, s.calls thread = some call → Call.Sound s.recorded call
  effects : ∀ command ∈ provider.effects s.provider, Approved s.recorded command.parameterSha256

theorem Invariant.put {s : State σ} (invariant : Invariant provider s) (thread : Nat)
    {call : Option Call} (sound : ∀ next ∈ call, Call.Sound s.recorded next) :
    Invariant provider (State.put s thread call) where
  stored := invariant.stored
  calls other next found := by
    by_cases same : other = thread
    · subst same
      simp only [State.put, Function.update_self] at found
      exact sound next found
    · simp only [State.put, Function.update_of_ne same] at found
      exact invariant.calls other next found
  effects := invariant.effects

/-- A stored approval that is approved, executed or verified was recorded as approved. -/
theorem Invariant.store {s : State σ} (invariant : Invariant provider s) {thread : Nat} {fault : Fault}
    {write : Except Raised (ApprovalRequest × InMemoryApprovalRepository)}
    {next : ApprovalRequest → Option Call}
    (written : ∀ approval approvals, write = .ok (approval, approvals) →
      approvals.items = s.approvals.items.set approval.approvalId approval ∧
        (approval.status = .pending ∨ approval.status = .rejected ∨
          Approved (approval :: s.recorded) approval.commandSha256) ∧
        ∀ call ∈ next approval, Call.Sound (approval :: s.recorded) call) :
    Invariant provider (store s thread fault write next) := by
  have ended : Invariant provider (State.put s thread none) :=
    invariant.put thread fun _ found => by cases found
  cases write with
  | error e => cases fault <;> exact ended
  | ok pair =>
      obtain ⟨approval, approvals⟩ := pair
      obtain ⟨items, status, sound⟩ := written approval approvals rfl
      have after : Invariant provider
          { s with approvals := approvals, recorded := approval :: s.recorded } := by
        constructor
        · intro approvalId stored found
          dsimp only at found
          rw [items, Dict.get?_set] at found
          split at found
          · cases found
            exact status
          · rcases invariant.stored approvalId stored found with pending | rejected | approved
            · exact .inl pending
            · exact .inr (.inl rejected)
            · exact .inr (.inr (approved.later approval))
        · exact fun other call found => (invariant.calls other call found).later approval
        · exact fun command member => (invariant.effects command member).later approval
      cases fault with
      | none => exact after.put thread sound
      | before => exact ended
      | after => exact after.put thread fun _ found => by cases found

/-- A provider call whose effects are those of a command that is approved. -/
theorem Invariant.callProvider {α : Type} {s : State σ} (invariant : Invariant provider s)
    {thread : Nat} {fault : Fault} {call : Exec σ Raised α} {next : α → Option Call}
    (effects : ∀ command ∈ provider.effects (Exec.run call s.provider).2,
      Approved s.recorded command.parameterSha256)
    (sound : ∀ a p, Exec.run call s.provider = (.ok a, p) → ∀ c ∈ next a, Call.Sound s.recorded c) :
    Invariant provider (callProvider s thread fault call next) := by
  have after : Invariant provider { s with provider := (Exec.run call s.provider).2 } :=
    ⟨invariant.stored, invariant.calls, effects⟩
  have ended (t : State σ) (before : Invariant provider t) :
      Invariant provider (State.put t thread none) :=
    before.put thread fun _ found => by cases found
  unfold MediaActionService.callProvider
  rcases ran : Exec.run call s.provider with ⟨e | a, p⟩
  · rw [ran] at after
    cases fault <;> first | exact ended s invariant | exact ended _ after
  · rw [ran] at after
    cases fault with
    | none => exact after.put thread (sound a p ran)
    | before => exact ended s invariant
    | after => exact ended _ after

omit [Floats] [Sha256] in
/-- The checks that begin a call keep what reading the revision keeps. -/
theorem ready_keeps {P : σ → Prop} {world : ω} {principal : SessionPrincipal} {command : MediaCommand}
    {α : Type} {read : Except Raised α} {p : σ} (before : P p)
    (revision : P (Exec.run (provider.connectionRevision world command.providerConnectionId) p).2) :
    P (Exec.run (requireReady provider configuration world principal command >>=
      fun _ => Exec.lift read) p).2 := by
  unfold requireReady requireConnectionRevision
  cases requireAuthorized configuration principal command with
  | error e => exact before
  | ok _ =>
      simp only [Exec.run_bind, Exec.run_lift_ok]
      generalize Exec.run (provider.connectionRevision world command.providerConnectionId) p =
        revised at revision ⊢
      rcases revised with ⟨e | current, t⟩
      · exact revision
      · dsimp only
        cases reject (current ≠ command.providerConnectionRevision) PROVIDER_CONNECTION_CHANGED with
        | error e => exact revision
        | ok _ => cases read <;> exact revision

omit [Floats] [Sha256] in
/-- What a call reads is what the read gave. -/
theorem run_read {α : Type} {ready : Exec σ Raised Unit} {read : Except Raised α} {a : α} {p t : σ}
    (ran : Exec.run (ready >>= fun _ => Exec.lift read) p = (.ok a, t)) : read = .ok a := by
  rw [Exec.run_bind] at ran
  generalize Exec.run ready p = first at ran
  rcases first with ⟨e | _, t'⟩
  · cases ran
  · cases read with
    | error e => cases ran
    | ok b =>
        cases ran
        rfl

theorem requireApproved_ok {approvals : InMemoryApprovalRepository} {command : MediaCommand}
    {approvalId : UUID} {approval : ApprovalRequest}
    (h : requireApproved approvals command approvalId = .ok approval) :
    approvals.items.get? approvalId = some approval ∧
      approval.commandSha256 = command.parameterSha256 ∧ approval.status = .approved := by
  unfold requireApproved at h
  split at h
  · cases h
  · rename_i found stored
    simp only [reject_bind_eq_ok, not_or, ne_eq, not_not] at h
    obtain ⟨⟨digest, status⟩, same⟩ := h
    cases same
    exact ⟨stored, digest, status⟩

theorem Invariant.beginCall {α : Type} {s t : State σ} (invariant : Invariant provider s)
    (lawful : Lawful provider) {thread : Nat} {world : ω} {principal : SessionPrincipal}
    {command : MediaCommand} {read : Except Raised α} {next : α → Option Call}
    (sound : ∀ a, read = .ok a → ∀ call ∈ next a, Call.Sound s.recorded call)
    (taken : beginCall s thread (requireReady provider configuration world principal command) read
      next = some t) : Invariant provider t := by
  unfold MediaActionService.beginCall at taken
  split at taken
  · cases taken
  · cases taken
    apply invariant.callProvider
    · have same : provider.effects (Exec.run (requireReady provider configuration world principal
          command >>= fun _ => Exec.lift read) s.provider).2 = provider.effects s.provider := by
        apply ready_keeps (P := fun p => provider.effects p = provider.effects s.provider) rfl
        exact lawful.revision world command.providerConnectionId s.provider
      rw [same]
      exact invariant.effects
    · exact fun a p ran => sound a (run_read ran)

/-- What a step keeps, whatever the provider answers and wherever a save or a call fails. -/
theorem Invariant.after_step {s t : State σ} (invariant : Invariant provider s) (lawful : Lawful provider)
    {action : Action ω δ} (taken : step provider configuration s action = some t) :
    Invariant provider t := by
  cases action with
  | propose thread principal command world =>
      apply invariant.beginCall lawful _ taken
      intro existing _ call found
      cases existing with
      | some _ => cases found
      | none =>
          obtain ⟨userId, _, rfl⟩ := Option.map_eq_some_iff.mp found
          trivial
  | add thread approvalId now fault =>
      simp only [step] at taken
      split at taken
      · cases taken
        apply invariant.store
        intro approval approvals written
        simp only [bind_eq_ok] at written
        obtain ⟨added, ok, pair⟩ := written
        cases pair
        exact ⟨(InMemoryApprovalRepository.add_ok ok).2, .inl rfl, fun _ found => by cases found⟩
      · cases taken
  | decide thread principal command decision world =>
      apply invariant.beginCall lawful _ taken
      intro approval _ call found
      cases found
      trivial
  | saveDecision thread now fault =>
      simp only [step] at taken
      split at taken
      · cases taken
        apply invariant.store
        intro updated approvals written
        simp only [bind_eq_ok] at written
        obtain ⟨_, _, decided, ok, saved, stored, pair⟩ := written
        cases pair
        obtain ⟨_, _, _, status⟩ := ApprovalRequest.decide_ok ok
        refine ⟨(InMemoryApprovalRepository.save_ok stored).2, ?_, fun _ found => by cases found⟩
        split at status
        · exact .inr (.inr ⟨updated, List.mem_cons_self, status, rfl⟩)
        · exact .inr (.inl status)
      · cases taken
  | executeApproved thread principal command approvalId world =>
      apply invariant.beginCall lawful _ taken
      intro approval read call found
      cases found
      obtain ⟨stored, digest, status⟩ := requireApproved_ok read
      rcases invariant.stored approvalId approval stored with pending | rejected | approved
      · rw [status] at pending
        cases pending
      · rw [status] at rejected
        cases rejected
      · exact ⟨approved, digest⟩
  | execute thread world fault =>
      simp only [step] at taken
      split at taken
      · rename_i approval command waiting
        cases taken
        obtain ⟨approved, digest⟩ := invariant.calls thread _ waiting
        apply invariant.callProvider
        · obtain ⟨count, effects⟩ := lawful.execute world command s.provider
          rw [effects]
          intro other member
          rcases List.mem_append.mp member with own | before
          · rw [List.eq_of_mem_replicate own, ← digest]
            exact approved
          · exact invariant.effects other before
        · intro result p _ call found
          cases found
          exact approved
      · cases taken
  | saveExecuted thread now fault =>
      simp only [step] at taken
      split at taken
      · rename_i approval command result waiting
        cases taken
        have approved : Approved s.recorded approval.commandSha256 :=
          invariant.calls thread _ waiting
        apply invariant.store
        intro executed approvals written
        simp only [bind_eq_ok] at written
        obtain ⟨marked, ok, saved, stored, pair⟩ := written
        cases pair
        obtain ⟨_, digest, _⟩ := ApprovalRequest.markExecuted_ok ok
        rw [← digest] at approved
        refine ⟨(InMemoryApprovalRepository.save_ok stored).2, .inr (.inr (approved.later _)), ?_⟩
        intro call found
        cases found
        exact approved.later _
      · cases taken
  | verify thread world fault =>
      simp only [step] at taken
      split at taken
      · rename_i approval command result waiting
        cases taken
        have approved : Approved s.recorded approval.commandSha256 :=
          invariant.calls thread _ waiting
        apply invariant.callProvider
        · rw [lawful.verify]
          exact invariant.effects
        · intro verified p _ call found
          cases verified with
          | false => cases found
          | true =>
              cases found
              exact approved
      · cases taken
  | saveVerified thread now fault =>
      simp only [step] at taken
      split at taken
      · rename_i approval waiting
        cases taken
        have approved : Approved s.recorded approval.commandSha256 :=
          invariant.calls thread _ waiting
        apply invariant.store
        intro verified approvals written
        simp only [bind_eq_ok] at written
        obtain ⟨marked, ok, saved, stored, pair⟩ := written
        cases pair
        obtain ⟨_, digest, _⟩ := ApprovalRequest.markVerified_ok ok
        rw [← digest] at approved
        exact ⟨(InMemoryApprovalRepository.save_ok stored).2, .inr (.inr (approved.later _)),
          fun _ found => by cases found⟩
      · cases taken
  | outside change =>
      cases taken
      refine ⟨invariant.stored, invariant.calls, ?_⟩
      rw [lawful.outside]
      exact invariant.effects

theorem invariant_of_run {C : State σ → Action ω δ → Prop} {s t : State σ} (lawful : Lawful provider)
    (run : Run (step provider configuration) C s t) (invariant : Invariant provider s) :
    Invariant provider t :=
  run.invariant invariant fun _ _ _ before _ taken => before.after_step lawful taken

/-! ### Statuses that no approval leaves -/

/-- A rejected or verified approval is settled. -/
def Settled (status : ApprovalStatus) : Prop := status = .rejected ∨ status = .verified

/-- A step leaves the approvals alone or writes one over an approval that is not settled. -/
def Writes (s t : State σ) : Prop :=
  t.approvals = s.approvals ∨ ∃ approval,
    t.approvals.items = s.approvals.items.set approval.approvalId approval ∧
      ∀ current, s.approvals.items.get? approval.approvalId = some current → ¬Settled current.status

omit [Floats] [Sha256] in
theorem writes_store {s : State σ} {thread : Nat} {fault : Fault}
    {write : Except Raised (ApprovalRequest × InMemoryApprovalRepository)}
    {next : ApprovalRequest → Option Call}
    (written : ∀ approval approvals, write = .ok (approval, approvals) →
      approvals.items = s.approvals.items.set approval.approvalId approval ∧
        ∀ current, s.approvals.items.get? approval.approvalId = some current →
          ¬Settled current.status) :
    Writes s (store s thread fault write next) := by
  cases write with
  | error e => cases fault <;> exact .inl rfl
  | ok pair =>
      obtain ⟨approval, approvals⟩ := pair
      have here := written approval approvals rfl
      cases fault with
      | none => exact .inr ⟨approval, here⟩
      | before => exact .inl rfl
      | after => exact .inr ⟨approval, here⟩

omit [Floats] [Sha256] in
theorem writes_callProvider {α : Type} {s : State σ} {thread : Nat} {fault : Fault}
    {call : Exec σ Raised α} {next : α → Option Call} :
    Writes s (callProvider s thread fault call next) := by
  unfold callProvider
  rcases Exec.run call s.provider with ⟨e | a, p⟩ <;> cases fault <;> exact .inl rfl

omit [Floats] [Sha256] in
theorem writes_beginCall {α : Type} {s t : State σ} {thread : Nat} {ready : Exec σ Raised Unit}
    {read : Except Raised α} {next : α → Option Call}
    (taken : beginCall s thread ready read next = some t) : Writes s t := by
  unfold beginCall at taken
  split at taken
  · cases taken
  · cases taken
    exact writes_callProvider

omit [Floats] [Sha256] in
/-- A save under a status that is not settled writes over no settled approval. -/
theorem writes_save {repository saved : InMemoryApprovalRepository} {approval : ApprovalRequest}
    {expected : ApprovalStatus} (open_status : ¬Settled expected)
    (stored : repository.save approval expected = .ok saved) :
    saved.items = repository.items.set approval.approvalId approval ∧
      ∀ current, repository.items.get? approval.approvalId = some current →
        ¬Settled current.status := by
  obtain ⟨⟨current, found, status⟩, items⟩ := InMemoryApprovalRepository.save_ok stored
  refine ⟨items, fun other same => ?_⟩
  cases found.symm.trans same
  rw [status]
  exact open_status

theorem writes_of_step {s t : State σ} {action : Action ω δ}
    (taken : step provider configuration s action = some t) : Writes s t := by
  cases action with
  | propose | decide | executeApproved => exact writes_beginCall taken
  | add thread approvalId now fault =>
      simp only [step] at taken
      split at taken
      · cases taken
        apply writes_store
        intro approval approvals written
        simp only [bind_eq_ok] at written
        obtain ⟨added, ok, pair⟩ := written
        cases pair
        obtain ⟨absent, items⟩ := InMemoryApprovalRepository.add_ok ok
        exact ⟨items, fun current found => by cases absent.symm.trans found⟩
      · cases taken
  | saveDecision thread now fault =>
      simp only [step] at taken
      split at taken
      · cases taken
        apply writes_store
        intro updated approvals written
        simp only [bind_eq_ok] at written
        obtain ⟨_, _, decided, ok, saved, stored, pair⟩ := written
        cases pair
        exact writes_save (by simp [Settled]) stored
      · cases taken
  | execute thread world fault =>
      simp only [step] at taken
      split at taken
      · cases taken
        exact writes_callProvider
      · cases taken
  | saveExecuted thread now fault =>
      simp only [step] at taken
      split at taken
      · cases taken
        apply writes_store
        intro executed approvals written
        simp only [bind_eq_ok] at written
        obtain ⟨marked, ok, saved, stored, pair⟩ := written
        cases pair
        exact writes_save (by simp [Settled]) stored
      · cases taken
  | verify thread world fault =>
      simp only [step] at taken
      split at taken
      · cases taken
        exact writes_callProvider
      · cases taken
  | saveVerified thread now fault =>
      simp only [step] at taken
      split at taken
      · cases taken
        apply writes_store
        intro verified approvals written
        simp only [bind_eq_ok] at written
        obtain ⟨marked, ok, saved, stored, pair⟩ := written
        cases pair
        exact writes_save (by simp [Settled]) stored
      · cases taken
  | outside change =>
      cases taken
      exact .inl rfl

/-- No approval leaves a settled status. -/
theorem settled_of_run {C : State σ → Action ω δ → Prop} {s t : State σ} {approvalId : UUID}
    {approval : ApprovalRequest} (run : Run (step provider configuration) C s t)
    (found : s.approvals.items.get? approvalId = some approval) (settled : Settled approval.status) :
    t.approvals.items.get? approvalId = some approval := by
  apply run.invariant (I := fun t => t.approvals.items.get? approvalId = some approval) found
  intro s t action here _ taken
  rcases writes_of_step taken with same | ⟨written, items, unsettled⟩
  · rw [same]
    exact here
  · rw [items, Dict.get?_set]
    split
    · rename_i same
      subst same
      exact absurd settled (unsettled approval here)
    · exact here

/-! ### What the provider keeps -/

omit [Floats] [Sha256] in
/-- The provider after a call is the one before it or the one the call left. -/
theorem provider_callProvider {P : σ → Prop} {α : Type} {s : State σ} {thread : Nat} {fault : Fault}
    {call : Exec σ Raised α} {next : α → Option Call} (before : P s.provider)
    (after : fault ≠ .before → P (Exec.run call s.provider).2) :
    P (callProvider s thread fault call next).provider := by
  unfold callProvider
  rcases ran : Exec.run call s.provider with ⟨e | a, p⟩ <;> rw [ran] at after
  all_goals
    cases fault with
    | before => exact before
    | none => exact after (by decide)
    | after => exact after (by decide)

omit [Floats] [Sha256] in
theorem provider_store {s : State σ} {thread : Nat} {fault : Fault}
    {write : Except Raised (ApprovalRequest × InMemoryApprovalRepository)}
    {next : ApprovalRequest → Option Call} :
    (store s thread fault write next).provider = s.provider := by
  rcases write with e | ⟨approval, approvals⟩ <;> cases fault <;> rfl

/-- What a step keeps of the provider: what its calls keep, and the execution of this step. -/
theorem provider_of_step {P : σ → Prop} {s t : State σ} {action : Action ω δ}
    (taken : step provider configuration s action = some t) (before : P s.provider)
    (revision : ∀ world connectionId p, P p →
      P (Exec.run (provider.connectionRevision world connectionId) p).2)
    (verify : ∀ world command result p, P p →
      P (Exec.run (provider.verify world command result) p).2)
    (outside : ∀ change p, P p → P (provider.outside change p))
    (execute : ∀ thread world fault approval command, action = .execute thread world fault →
      s.calls thread = some (.executing approval command) → fault ≠ .before →
        P (Exec.run (provider.execute world command) s.provider).2) : P t.provider := by
  have begun {α : Type} {thread : Nat} {world : ω} {principal : SessionPrincipal}
      {command : MediaCommand} {read : Except Raised α} {next : α → Option Call}
      (taken : beginCall s thread (requireReady provider configuration world principal command) read
        next = some t) : P t.provider := by
    unfold beginCall at taken
    split at taken
    · cases taken
    · cases taken
      apply provider_callProvider before
      intro _
      exact ready_keeps before (revision world command.providerConnectionId s.provider before)
  cases action with
  | propose | decide | executeApproved => exact begun taken
  | execute thread world fault =>
      simp only [step] at taken
      split at taken
      · rename_i approval command waiting
        cases taken
        apply provider_callProvider before
        exact execute thread world fault approval command rfl waiting
      · cases taken
  | verify thread world fault =>
      simp only [step] at taken
      split at taken
      · cases taken
        apply provider_callProvider before
        intro _
        exact verify world _ _ s.provider before
      · cases taken
  | add | saveDecision | saveExecuted | saveVerified =>
      simp only [step] at taken
      split at taken
      · cases taken
        rw [provider_store]
        exact before
      · cases taken
  | outside change =>
      cases taken
      exact outside change s.provider before

/-- What holds of the provider in every run whose executions keep it under the condition of the
run. -/
theorem provider_of_run {P : σ → Prop} {C : State σ → Action ω δ → Prop} {s t : State σ}
    (run : Run (step provider configuration) C s t) (init : P s.provider)
    (revision : ∀ world connectionId p, P p →
      P (Exec.run (provider.connectionRevision world connectionId) p).2)
    (verify : ∀ world command result p, P p →
      P (Exec.run (provider.verify world command result) p).2)
    (outside : ∀ change p, P p → P (provider.outside change p))
    (execute : ∀ s thread world fault approval command, C s (.execute thread world fault) →
      s.calls thread = some (.executing approval command) → fault ≠ .before → P s.provider →
        P (Exec.run (provider.execute world command) s.provider).2) : P t.provider := by
  apply run.invariant (I := fun s => P s.provider) init
  intro s t action before meets taken
  apply provider_of_step taken before revision verify outside
  rintro thread world fault approval command rfl waiting ran
  exact execute s thread world fault approval command meets waiting ran before

/-- A step makes visible only effects of commands that were approved before it. -/
theorem Invariant.effects_of_step {s t : State σ} {action : Action ω δ}
    (invariant : Invariant provider s) (lawful : Lawful provider)
    (taken : step provider configuration s action = some t) :
    ∃ added, provider.effects t.provider = added ++ provider.effects s.provider ∧
      ∀ command ∈ added, Approved s.recorded command.parameterSha256 := by
  apply provider_of_step
    (P := fun p => ∃ added, provider.effects p = added ++ provider.effects s.provider ∧
      ∀ command ∈ added, Approved s.recorded command.parameterSha256) taken
  · exact ⟨[], rfl, fun _ member => by cases member⟩
  · intro world connectionId p kept
    rw [lawful.revision]
    exact kept
  · intro world command result p kept
    rw [lawful.verify]
    exact kept
  · intro change p kept
    rw [lawful.outside]
    exact kept
  · intro thread world fault approval command _ waiting _
    obtain ⟨count, effects⟩ := lawful.execute world command s.provider
    obtain ⟨approved, digest⟩ := invariant.calls thread _ waiting
    refine ⟨List.replicate count command, effects, fun other member => ?_⟩
    rw [List.eq_of_mem_replicate member, ← digest]
    exact approved

/-- No call is under way and nothing is stored. -/
def start (p : σ) : State σ where
  approvals := .empty
  provider := p
  calls _ := none
  recorded := []

theorem Invariant.at_start {p : σ} (none_visible : provider.effects p = []) :
    Invariant provider (start p) where
  stored _ _ found := by cases found
  calls _ _ found := by cases found
  effects command member := by
    change command ∈ provider.effects p at member
    rw [none_visible] at member
    cases member

end Runs

end MediaActionService

end Cinegraph.MediaActions
